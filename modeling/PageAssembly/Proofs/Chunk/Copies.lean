/-
  PageAssembly/Proofs/Chunk/Copies.lean
  =====================================
  **What a placeholder copies from its directive.**

  A placeholder shows texts of its directive: the collection or the path, and the caption.  They
  are escaped for markup only.  Braces are written as themselves, and no reference has one.

  The parts of a placeholder meet at quotes, hyphens and angle brackets.  A word with a brace that
  holds none of these, such as the front of a directive, is foreign to all parts but the copied
  texts.  So where it stands in a placeholder, it stands in a text of the directive
  (`Deferred.exists_text_of_infix`).  A closing brace stands in none, since it would have ended the
  directive (`Directive.unclosed_placeholder`).
-/
import PageAssembly.Proofs.Chunk.Targets
import PageAssembly.Proofs.Directive.Grammar
import Mathlib.Data.List.Infix

namespace PageAssembly

/-- A word without `d` does not reach over a `d`. -/
theorem Text.infix_of_append_cons {w x y : Text} {d : Char} (hd : d ∉ w) (h : w <:+: x ++ d :: y) :
    w <:+: x ∨ w <:+: y := by
  have hfront : ∀ z : Text, z <:+: w → z <+: d :: y → z = [] := by
    intro z hz hprefix
    cases z with
    | nil => rfl
    | cons e z =>
      obtain rfl := (List.cons_prefix_cons.1 hprefix).1
      exact absurd (hz.subset List.mem_cons_self) hd
  rcases List.infix_append_iff.1 h with hx | hy | ⟨u, v, rfl, hu, hv⟩
  · exact .inl hx
  · rcases List.infix_cons_iff.1 hy with hprefix | hy
    · rw [hfront w List.infix_rfl hprefix]
      exact .inl List.nil_infix
    · exact .inr hy
  · rw [hfront v List.infix_append_right hv, List.append_nil]
    exact .inl hu.isInfix

/-! ### Words that are foreign to markup -/

def braces : Text := ['{', '}']

/-- The characters at which the parts of a placeholder meet. -/
def joints : Text := ['&', ';', '<', '>', '"', '-']

/-- A word that is no part of the markup of a placeholder, and reaches over no joint of it. -/
structure Foreign (w : Text) : Prop where
  brace : ∃ b ∈ braces, b ∈ w
  unjoined : ∀ d ∈ joints, d ∉ w

theorem Foreign.not_infix {w x : Text} (hw : Foreign w) (hx : ∀ b ∈ braces, b ∉ x) : ¬ w <:+: x := by
  intro h
  obtain ⟨b, hb, hmem⟩ := hw.brace
  exact hx b hb (h.subset hmem)

/-- Where `x` is no place for the word, it stands behind the joint. -/
theorem Foreign.infix_behind {w x y : Text} {d : Char} (hw : Foreign w) (hd : d ∈ joints)
    (hx : ∀ b ∈ braces, b ∉ x) (h : w <:+: x ++ d :: y) : w <:+: y :=
  (Text.infix_of_append_cons (hw.unjoined d hd) h).resolve_left (hw.not_infix hx)

/-- Where `y` is no place for the word, it stands in front of the joint. -/
theorem Foreign.infix_before {w x y : Text} {d : Char} (hw : Foreign w) (hd : d ∈ joints)
    (hy : ∀ b ∈ braces, b ∉ y) (h : w <:+: x ++ d :: y) : w <:+: x :=
  (Text.infix_of_append_cons (hw.unjoined d hd) h).resolve_right (hw.not_infix hy)

namespace Markup

/-- A character is written as itself, or as a reference without braces. -/
def Refers (f : Char → Text) : Prop :=
  ∀ c, f c = [c] ∨ ∃ name, f c = '&' :: (name ++ [';']) ∧ ∀ b ∈ braces, b ∉ '&' :: name

theorem refers_escapeChar : Refers escapeChar := by
  intro c
  unfold escapeChar
  split
  · exact .inr ⟨"amp".toList, rfl, by decide⟩
  · exact .inr ⟨"lt".toList, rfl, by decide⟩
  · exact .inr ⟨"gt".toList, rfl, by decide⟩
  · exact .inl rfl

theorem refers_escapeValueChar : Refers escapeValueChar := by
  intro c
  unfold escapeValueChar
  split
  · exact .inr ⟨"quot".toList, rfl, by decide⟩
  · exact .inr ⟨"#x27".toList, rfl, by decide⟩
  · exact refers_escapeChar _

section

variable {f : Char → Text} {w s : Text}

theorem Refers.prefix_of_flatMap (hf : Refers f) (hw : '&' ∉ w) (h : w <+: s.flatMap f) : w <+: s := by
  induction s generalizing w with
  | nil => exact h
  | cons c s ih =>
    cases w with
    | nil => exact List.nil_prefix
    | cons d w =>
      rw [List.mem_cons, not_or] at hw
      rw [List.flatMap_cons] at h
      rcases hf c with hc | ⟨name, hc, -⟩
      · rw [hc, List.singleton_append, List.cons_prefix_cons] at h
        exact List.cons_prefix_cons.2 ⟨h.1, ih hw.2 h.2⟩
      · rw [hc, List.cons_append, List.cons_prefix_cons] at h
        exact absurd h.1.symm hw.1

/-- A foreign word stands in what is written only where it stands in the text. -/
theorem Refers.infix_of_flatMap (hf : Refers f) (hw : Foreign w) (h : w <:+: s.flatMap f) : w <:+: s := by
  induction s with
  | nil => exact h
  | cons c s ih =>
    have hw' : '&' ∉ w := hw.unjoined '&' (by decide)
    have hall : w <:+: f c ++ s.flatMap f := List.flatMap_cons ▸ h
    rcases hf c with hc | ⟨name, hc, hname⟩
    · rw [hc, List.singleton_append, List.infix_cons_iff] at hall
      rcases hall with hprefix | hrest
      · refine (hf.prefix_of_flatMap hw' ?_ : w <+: c :: s).isInfix
        rwa [List.flatMap_cons, hc]
      · exact (ih hrest).trans (List.suffix_cons c s).isInfix
    · have hreference : f c ++ s.flatMap f = '&' :: name ++ ';' :: s.flatMap f := by
        rw [hc]
        simp
      rw [hreference] at hall
      exact (ih (hw.infix_behind (by decide) hname hall)).trans (List.suffix_cons c s).isInfix

end

end Markup

/-! ### The parts of a placeholder -/

/-- A foreign word stands in a division only where it stands in a value or in the content. -/
theorem Placeholder.exists_of_infix_division {w content : Text} {fields : List (Text × Text)} (hw : Foreign w)
    (hnames : ∀ f ∈ fields, ∀ b ∈ braces, b ∉ f.1) (h : w <:+: division fields content) :
    (∃ f ∈ fields, w <:+: f.2) ∨ w <:+: content := by
  have hfields : ∀ x : Text, (∀ b ∈ braces, b ∉ x) →
      w <:+: x ++ ((fields.flatMap fun f => field f.1 f.2) ++ '>' :: (content ++ "</div>".toList)) →
        (∃ f ∈ fields, w <:+: f.2) ∨ w <:+: content := by
    clear h
    -- `x` is what stands between the last value and the next field
    induction fields with
    | nil =>
      intro x hx h
      have hcontent : w <:+: content ++ '<' :: "/div>".toList := hw.infix_behind (d := '>') (by decide) hx h
      exact .inr (hw.infix_before (by decide) (by decide) hcontent)
    | cons f fields ih =>
      intro x hx h
      have hsplit : x ++ (((f :: fields).flatMap fun f => field f.1 f.2) ++ '>' :: (content ++ "</div>".toList)) =
          (x ++ (' ' :: (f.1 ++ ['=']))) ++ '"' :: (Markup.escapeValue f.2 ++
            '"' :: ((fields.flatMap fun f => field f.1 f.2) ++ '>' :: (content ++ "</div>".toList))) := by
        simp [field]
      have hfront : ∀ b ∈ braces, b ∉ x ++ (' ' :: (f.1 ++ ['='])) := by
        intro b hb
        have hmarks : ∀ b ∈ braces, b ≠ ' ' ∧ b ≠ '=' := by decide
        simp [hx b hb, hnames f List.mem_cons_self b hb, hmarks b hb]
      rw [hsplit] at h
      rcases Text.infix_of_append_cons (hw.unjoined '"' (by decide)) (hw.infix_behind (by decide) hfront h) with
        hvalue | hrest
      · exact .inl ⟨f, List.mem_cons_self, Markup.refers_escapeValueChar.infix_of_flatMap hw hvalue⟩
      · rcases ih (fun g hg => hnames g (List.mem_cons_of_mem f hg)) [] (fun _ _ => List.not_mem_nil) hrest with
          ⟨g, hg, hvalue⟩ | hcontent
        · exact .inl ⟨g, List.mem_cons_of_mem f hg, hvalue⟩
        · exact .inr hcontent
  refine hfields "<div".toList (by decide) ?_
  rwa [division, List.append_assoc] at h

namespace Deferred

/-- The texts of the directive that its placeholder copies. -/
def texts : Deferred → List Text
  | .progressive (.chunk c) => [c.collection, c.caption.getD []]
  | .progressive (.continuation c) => [c.collection]
  | .render r => [r.path]

theorem name_unbraced {d : Deferred} {f : Text × Text} (hf : f ∈ d.fields) : ∀ b ∈ braces, b ∉ f.1 := by
  have hid : ∀ b ∈ braces, b ∉ Placeholder.idName := by decide
  have hothers : ∀ n ∈ otherNames, ∀ b ∈ braces, b ∉ n := by decide
  rcases name_of_mem_fields hf with rfl | hname
  · exact hid
  · exact hothers f.1 hname

theorem decimal_unbraced (n : Nat) : ∀ b ∈ braces, b ∉ Text.decimal n := by
  intro b hb hmem
  have hdigits : ∀ b ∈ braces, b ∉ "0123456789".toList := by decide
  exact hdigits b hb (Verbatim.mem_decimal hmem)

theorem word_unbraced (k : Directive.Kind) : ∀ b ∈ braces, b ∉ k.word := by
  cases k <;> decide

section

variable {w : Text}

/-- An id shows the collection of its directive, and no other text. -/
theorem infix_of_progressive_id {p : Progressive} (hw : Foreign w) (h : w <:+: p.id) : w <:+: p.target.2.1 := by
  rw [p.id_eq] at h
  exact hw.infix_before (by decide) (decimal_unbraced _) (hw.infix_behind (by decide) (word_unbraced _) h)

theorem infix_of_render_id {r : Render} (hw : Foreign w) (h : w <:+: r.id) : w <:+: r.path :=
  hw.infix_behind (d := '-') (x := "render".toList) (by decide) (by decide) h

/-- What a placeholder starts with shows the id, and no other text. -/
theorem infix_of_heading {id : Text} {k : Directive.Kind} {f : Text × Text} (hw : Foreign w)
    (hf : f ∈ Placeholder.heading id k) (h : w <:+: f.2) : w <:+: id := by
  simp only [Placeholder.heading, List.mem_cons, List.not_mem_nil, or_false] at hf
  rcases hf with rfl | rfl | rfl
  · exact absurd h (hw.not_infix (by decide))
  · exact h
  · exact absurd h (hw.not_infix (word_unbraced k))

theorem exists_text_of_field {d : Deferred} {f : Text × Text} (hw : Foreign w) (hf : f ∈ d.fields)
    (h : w <:+: f.2) : ∃ v ∈ d.texts, w <:+: v := by
  rcases d with (c | c) | r
  · refine ⟨c.collection, List.mem_cons_self, ?_⟩
    rcases List.mem_append.1 hf with hf | hf
    · exact infix_of_progressive_id (p := .chunk c) hw (infix_of_heading hw hf h)
    · simp only [List.mem_cons, List.not_mem_nil, or_false] at hf
      rcases hf with rfl | rfl
      · exact h
      · exact absurd h (hw.not_infix (decimal_unbraced _))
  · refine ⟨c.collection, List.mem_cons_self, ?_⟩
    rcases List.mem_append.1 hf with hf | hf
    · exact infix_of_progressive_id (p := .continuation c) hw (infix_of_heading hw hf h)
    · simp only [List.mem_cons, List.not_mem_nil, or_false] at hf
      rcases hf with rfl | rfl
      · exact h
      · exact absurd h (hw.not_infix (decimal_unbraced _))
  · refine ⟨r.path, List.mem_cons_self, ?_⟩
    rcases List.mem_append.1 hf with hf | hf
    · exact infix_of_render_id hw (infix_of_heading hw hf h)
    · rw [List.mem_singleton] at hf
      rwa [hf] at h

/-- A foreign word that stands in a placeholder stands in one of the texts that are copied. -/
theorem exists_text_of_infix {d : Deferred} (hw : Foreign w) (h : w <:+: d.placeholder) :
    ∃ v ∈ d.texts, w <:+: v := by
  rw [d.placeholder_eq] at h
  rcases Placeholder.exists_of_infix_division hw (fun _ => name_unbraced) h with ⟨f, hf, hvalue⟩ | hcaption
  · exact exists_text_of_field hw hf hvalue
  · rcases d with (c | c) | r
    · exact ⟨c.caption.getD [], List.mem_cons_of_mem _ List.mem_cons_self,
        Markup.refers_escapeChar.infix_of_flatMap hw hcaption⟩
    · exact absurd hcaption (hw.not_infix fun _ _ => List.not_mem_nil)
    · exact absurd hcaption (hw.not_infix fun _ _ => List.not_mem_nil)

end

end Deferred

/-! ### What a directive says stands in it -/

namespace Attribute

theorem subset_of_readQuoted {mark : Char} {s v r : Text} (h : readQuoted mark s = some (v, r)) : v ⊆ s := by
  cases s with
  | nil => cases h
  | cons c s =>
    simp only [readQuoted] at h
    split at h
    · split at h
      · cases h
      · cases h
        exact List.subset_cons_of_subset c (List.takeWhile_prefix _).subset
    · cases h

theorem subset_of_readBare {s v r : Text} (h : readBare s = some (v, r)) : v ⊆ s := by
  rw [readBare_eq] at h
  split at h
  · cases h
  · cases h
    exact (List.takeWhile_prefix _).subset

theorem subset_of_readValue {s v r : Text} (h : readValue s = some (v, r)) : v ⊆ s := by
  simp only [readValue, Option.orElse_eq_orElse, Option.orElse_eq_or, Option.or_eq_some_iff] at h
  rcases h with h | ⟨_, h | ⟨_, h⟩⟩
  · exact subset_of_readQuoted h
  · exact subset_of_readQuoted h
  · exact subset_of_readBare h

theorem subset_of_readAssigned {s v r : Text} (h : readAssigned s = some (v, r)) : v ⊆ s := by
  unfold readAssigned at h
  split at h
  · exact List.subset_cons_of_subset '=' (subset_of_readValue h)
  · cases h

theorem subset_of_readAttribute {s name v r : Text} (h : readAttribute s = some ((name, .text v), r)) :
    v ⊆ s := by
  obtain ⟨⟨n, t⟩, hn, hvalue⟩ := Option.map_eq_some_iff.1 h
  obtain ⟨-, rfl⟩ := nonempty_of_readName hn
  dsimp only at hvalue
  split at hvalue
  · next u q hassigned =>
    cases hvalue
    exact List.subset_append_of_subset_right name (subset_of_readAssigned hassigned)
  · cases hvalue

end Attribute

theorem Attributes.subset_of_text? {s name v : Text} (h : (ofText s).text? name = some v) : v ⊆ s := by
  have hentry := OrderedMap.get?_eq_some_iff.1 (Directive.text?_eq_some_iff.1 h)
  rcases OrderedMap.mem_entries_insertAll hentry with hfound | hempty
  · obtain ⟨m, hm, hvalue⟩ := List.mem_map.1 hfound
    obtain ⟨z, r, hsplit, -, -, -, hread⟩ := Pattern.exists_of_mem_locate hm
    rw [hvalue] at hread
    rw [hsplit]
    exact List.subset_append_of_subset_right z (Attribute.subset_of_readAttribute hread)
  · cases hempty

namespace Directive

theorem cases_of_deferred? {d : Directive} {e : Deferred} (h : d.deferred? = some e) :
    (∃ c, d.chunk? = some c ∧ e = .progressive (.chunk c)) ∨
      (∃ c, d.continuation? = some c ∧ e = .progressive (.continuation c)) ∨
        ∃ r, d.render? = some r ∧ e = .render r := by
  unfold deferred? progressive? at h
  cases hchunk : d.chunk? with
  | some c =>
    rw [hchunk] at h
    exact .inl ⟨c, rfl, (Option.some.inj h).symm⟩
  | none =>
    rw [hchunk] at h
    cases hcontinuation : d.continuation? with
    | some c =>
      rw [hcontinuation] at h
      exact .inr (.inl ⟨c, rfl, (Option.some.inj h).symm⟩)
    | none =>
      rw [hcontinuation] at h
      obtain ⟨r, hr, rfl⟩ := Option.map_eq_some_iff.1 h
      exact .inr (.inr ⟨r, hr, rfl⟩)

theorem subset_of_deferred? {k : Kind} {body : Text} {e : Deferred}
    (h : (⟨k, Attributes.ofText body⟩ : Directive).deferred? = some e) : ∀ v ∈ e.texts, v ⊆ body := by
  rcases cases_of_deferred? h with ⟨c, hc, rfl⟩ | ⟨c, hc, rfl⟩ | ⟨r, hr, rfl⟩
  · obtain ⟨-, collection, index, hcollection, -, rfl⟩ := chunk?_eq_some_iff.1 hc
    rw [Deferred.texts, List.forall_mem_cons, List.forall_mem_singleton]
    refine ⟨Attributes.subset_of_text? hcollection, ?_⟩
    cases hcaption : Chunk.caption ⟨Attributes.ofText body, collection, index, false⟩ with
    | none => exact List.nil_subset body
    | some caption => exact Attributes.subset_of_text? hcaption
  · rw [continuation?] at hc
    split at hc
    · obtain ⟨v, hv, rfl⟩ := Option.map_eq_some_iff.1 hc
      rw [Deferred.texts, List.forall_mem_singleton]
      exact Attributes.subset_of_text? hv
    · cases hc
  · rw [render?] at hr
    split at hr
    · obtain ⟨v, hv, rfl⟩ := Option.map_eq_some_iff.1 hr
      rw [Deferred.texts, List.forall_mem_singleton]
      exact Attributes.subset_of_text? hv
    · cases hr

/-- A placeholder holds no closing brace, as a directive holds none in front of its end. -/
theorem unclosed_placeholder {s r : Text} {d : Directive} {e : Deferred}
    (h : readDirective s = some (d, r)) (he : d.deferred? = some e) : '}' ∉ e.placeholder := by
  obtain ⟨k, -, body, -, -, -, hbody, rfl⟩ := readDirective_eq_some_iff.1 h
  have hforeign : Foreign ['}'] := ⟨⟨'}', by decide, by decide⟩, by decide⟩
  intro hmem
  obtain ⟨v, hv, hinfix⟩ := Deferred.exists_text_of_infix hforeign ((List.singleton_infix_iff _ _).2 hmem)
  exact hbody (subset_of_deferred? he v hv ((List.singleton_infix_iff _ _).1 hinfix))

end Directive
end PageAssembly
