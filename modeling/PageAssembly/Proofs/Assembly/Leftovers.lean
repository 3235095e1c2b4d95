/-
  PageAssembly/Proofs/Assembly/Leftovers.lean
  ===========================================
  **What converting a text leaves to be converted.**

  A conversion goes through the text once, and puts a placeholder in the place of each directive
  that is answered later.  In the text around the placeholders no such directive is left: where one
  is read there, it was read in the text as it was (`isSome_read_of_content`), and a directive that
  stays is found again at its place.

  But a placeholder copies texts of its directive.  The front of another directive may stand in one
  of them, and the text behind the placeholder may close it.  So every directive that is left starts
  inside a placeholder (`exists_placeholder`), and the converted text is settled exactly if none
  does (`settled_ofText_iff`).
-/
import PageAssembly.Proofs.Assembly.Replacing
import PageAssembly.Proofs.Chunk.Copies
import PageAssembly.Proofs.Chunk.Rendering
import PageAssembly.Proofs.Verbatim.Wrapping

namespace PageAssembly

open Pattern

/-- Where a text that is put together from parts is split, one part is split. -/
theorem Text.exists_of_flatMap_eq_append {α : Type} {f : α → Text} {xs : List α} {z y : Text}
    (h : xs.flatMap f = z ++ y) (hy : y ≠ []) :
    ∃ before x after u v, xs = before ++ x :: after ∧ f x = u ++ v ∧ v ≠ [] ∧
      z = before.flatMap f ++ u ∧ y = v ++ after.flatMap f := by
  induction xs generalizing z with
  | nil => exact absurd (List.append_eq_nil_iff.1 h.symm).2 hy
  | cons x xs ih =>
    rw [List.flatMap_cons] at h
    rcases List.append_eq_append_iff.1 h with ⟨a, rfl, hrest⟩ | ⟨v, hx, rfl⟩
    · obtain ⟨before, x', after, u, v, rfl, hx', hv, rfl, hy⟩ := ih hrest
      refine ⟨x :: before, x', after, u, v, rfl, hx', hv, ?_, hy⟩
      rw [List.flatMap_cons, List.append_assoc]
    · cases v with
      | nil =>
        -- the split is at the end of `x`, so it is at the front of the next part
        obtain ⟨before, x', after, u, v, rfl, hx', hv, hz, hy⟩ := ih (z := []) rfl
        refine ⟨x :: before, x', after, u, v, rfl, hx', hv, ?_, hy⟩
        rw [List.flatMap_cons, List.append_assoc, ← hz, hx, List.append_nil, List.append_nil]
      | cons c v => exact ⟨[], x, xs, z, c :: v, rfl, hx, List.cons_ne_nil c v, rfl, rfl⟩

namespace Directive

/-! ### The front of a directive -/

/-- What a directive starts with: the opening braces, the word of its kind, and a blank. -/
def front (k : Kind) (blank : Char) : Text := opening ++ k.word ++ [blank]

/-- The first closing brace of the text is doubled. -/
def Closes (s : Text) : Prop := ∃ z r, '}' ∉ z ∧ s = z ++ (closing ++ r)

theorem closes_append {z : Text} (hz : '}' ∉ z) (s : Text) : Closes (z ++ s) ↔ Closes s := by
  constructor
  · rintro ⟨x, r, hx, hs⟩
    obtain ⟨y, rfl, rfl⟩ := Text.exists_append_of_not_mem hz hs.symm
    rw [List.mem_append, not_or] at hx
    exact ⟨y, r, hx.2, rfl⟩
  · rintro ⟨x, r, hx, rfl⟩
    refine ⟨z ++ x, r, ?_, (List.append_assoc z x _).symm⟩
    rw [List.mem_append, not_or]
    exact ⟨hz, hx⟩

theorem closes_cons_closing (s : Text) : Closes ('}' :: s) ↔ s.head? = some '}' := by
  constructor
  · rintro ⟨z, r, hz, hs⟩
    cases z with
    | nil =>
      rw [(List.cons.inj hs).2]
      rfl
    | cons c z => exact absurd (List.mem_cons.2 (.inl (List.cons.inj hs).1)) hz
  · intro h
    obtain ⟨r, rfl⟩ : ∃ r, s = '}' :: r := List.head?_eq_some_iff.1 h
    exact ⟨[], r, List.not_mem_nil, rfl⟩

theorem isSome_read {k : Kind} {c : Char} {s : Text} (hc : Text.isBlank c = true)
    (hhead : s.head? ≠ some '}') (h : Closes s) : (readDirective (front k c ++ s)).isSome := by
  obtain ⟨body, r, hbody, rfl⟩ := h
  have hne : body ≠ [] := by
    rintro rfl
    exact hhead rfl
  have hread : readDirective (front k c ++ (body ++ (closing ++ r))) = some (⟨k, Attributes.ofText body⟩, r) :=
    readDirective_eq_some_iff.2 ⟨k, c, body, by simp [front], hc, hne, hbody, rfl⟩
  rw [hread]
  rfl

theorem exists_front {s r : Text} {d : Directive} (h : readDirective s = some (d, r)) :
    ∃ c q, s = front d.kind c ++ q ∧ Text.isBlank c = true ∧ q.head? ≠ some '}' ∧ Closes q := by
  obtain ⟨k, c, body, rfl, hc, hne, hbody, rfl⟩ := readDirective_eq_some_iff.1 h
  refine ⟨c, body ++ (closing ++ r), by simp [front], hc, ?_, body, r, hbody, rfl⟩
  obtain ⟨e, body, rfl⟩ := List.exists_cons_of_ne_nil hne
  intro hhead
  obtain rfl := Option.some.inj hhead
  exact hbody List.mem_cons_self

theorem foreign_front {k : Kind} {c : Char} (hc : Text.isBlank c = true) : Foreign (front k c) := by
  have hblank : ∀ d ∈ joints, Text.isBlank d = false := by decide
  have hword : ∀ d ∈ joints, d ∉ opening ++ k.word := by
    cases k <;> decide
  refine ⟨⟨'{', by decide, List.mem_append_left [c] (List.mem_append_left k.word List.mem_cons_self)⟩, ?_⟩
  intro d hd
  rw [front, List.mem_append, List.mem_singleton, not_or]
  refine ⟨hword d hd, ?_⟩
  rintro rfl
  rw [hblank d hd] at hc
  cases hc

/-- A directive holds no closing brace in front of the two that end it. -/
theorem Written.exists_inner {k : Kind} {body w : Text} (h : Written k body w) :
    ∃ x, w = x ++ closing ∧ '}' ∉ x := by
  cases h with
  | intro blanks separate blank nonempty unclosed =>
    refine ⟨_, rfl, ?_⟩
    have hword : '}' ∉ opening ++ k.word := by
      cases k <;> decide
    have hblanks : '}' ∉ blanks := fun hmem => absurd (blank _ hmem) (by decide)
    rw [List.mem_append, List.mem_append, not_or, not_or]
    exact ⟨⟨hword, hblanks⟩, unclosed⟩

theorem exists_opening {s r : Text} {d : Directive} (h : readDirective s = some (d, r)) :
    ∃ t, s = '{' :: '{' :: t := by
  obtain ⟨c, q, rfl, -⟩ := exists_front h
  exact ⟨_, rfl⟩

theorem ends_of_read {w r : Text} {d : Directive} (h : pattern.read (w ++ r) = some (d, r)) :
    ∃ t, w = t ++ ['}'] := by
  obtain ⟨body, hbody⟩ := exists_written h
  obtain ⟨x, rfl, -⟩ := hbody.exists_inner
  exact ⟨x ++ ['}'], by simp [closing]⟩

/-- What was read is read whatever is behind. -/
theorem read_behind {w r : Text} {d : Directive} (h : readDirective (w ++ r) = some (d, r)) (r' : Text) :
    readDirective (w ++ r') = some (d, r') := by
  obtain ⟨body, hbody⟩ := exists_written h
  have hd : (⟨d.kind, Attributes.ofText body⟩ : Directive) = d :=
    (Prod.mk.inj (Option.some.inj ((hbody.read r).symm.trans h))).1
  rw [hbody.read, hd]

/-- No directive that is found starts inside a place where one is read. -/
theorem not_starts_inside {s z w r : Text} {d : Directive} (hs : s = z ++ (w ++ r))
    (h : readDirective (w ++ r) = some (d, r)) {m : Located Directive} (hm : m ∈ find s)
    (hlt : z.length < m.start) : z.length + w.length ≤ m.start := by
  have hscans := pattern.scans_find s
  obtain ⟨body, hbody⟩ := exists_written h
  obtain ⟨x, rfl, hx⟩ := hbody.exists_inner
  -- the match over the front of `w` ends behind `x`
  obtain ⟨n, hn, hfrom, hto⟩ := pattern.exists_covering 0 hs (Option.isSome_of_eq_some h)
  rw [Nat.zero_add] at hfrom hto
  have hinner : s = z ++ (x ++ (closing ++ r)) := by
    rw [hs, List.append_assoc]
  have hlate := Pattern.not_ends_inside ends_of_read hinner hx hn hto
  have hearly := hscans.stop_le hn hm (by omega)
  -- and `m` does not start with the last closing brace
  apply Nat.le_of_not_lt
  intro hinside
  rw [List.length_append, show closing.length = 2 from rfl] at hinside
  have hstart : m.start = (z ++ x ++ ['}']).length := by
    simp only [List.length_append, List.length_singleton]
    omega
  have hlast : s.drop (z ++ x ++ ['}']).length = '}' :: r := by
    have hsplit : s = (z ++ x ++ ['}']) ++ '}' :: r := by
      rw [hinner]
      simp [closing]
    rw [hsplit, List.drop_left]
  obtain ⟨t, ht⟩ := exists_opening (hscans.read m hm)
  rw [hstart, hlast] at ht
  exact absurd (List.cons.inj ht).1 (by decide)

/-- What is found where a directive is read is this directive. -/
theorem value_of_starts_inside {s z w r : Text} {d : Directive} (hs : s = z ++ (w ++ r))
    (h : readDirective (w ++ r) = some (d, r)) {m : Located Directive} (hm : m ∈ find s)
    (hfrom : z.length ≤ m.start) (hto : m.start < z.length + w.length) : m.value = d := by
  have hstart : m.start = z.length := by
    apply Nat.le_antisymm _ hfrom
    apply Nat.le_of_not_lt
    intro hlt
    exact Nat.not_lt.2 (not_starts_inside hs h hm hlt) hto
  have hdrop : s.drop z.length = w ++ r := by
    rw [hs, List.drop_left]
  have hread := (pattern.scans_find s).read m hm
  rw [hstart, hdrop] at hread
  exact (Prod.mk.inj (Option.some.inj (hread.symm.trans h))).1

end Directive

namespace Conversion

/-! ### The converted text, piece by piece -/

/-- A piece as it stands in the converted text. -/
def converted : Piece Directive → Text := replaced fun d => d.deferred?.map Deferred.placeholder

theorem text_ofPieces (offset : Nat) (ps : List (Piece Directive)) :
    Draft.text (Draft.ofPieces offset ps) = ps.flatMap converted := by
  rw [← Draft.shownAs_placeholder fun _ _ => Draft.source_ofPieces]
  exact Draft.shownAs_ofPieces Deferred.placeholder

theorem content_eq (s : Text) : (ofText s).content = (Directive.pattern.pieces s).flatMap converted := by
  rw [← Rendering.text_draft, Rendering.draft, text_ofPieces]

theorem content_plain {c : Char} {s : Text} (h : Directive.readDirective (c :: s) = none) :
    (ofText (c :: s)).content = c :: (ofText s).content := by
  rw [content_eq, content_eq, Directive.pattern.pieces_cons_none h]
  rfl

theorem content_hit {w r : Text} {d : Directive} (h : Directive.readDirective (w ++ r) = some (d, r)) :
    (ofText (w ++ r)).content = converted (.hit w d) ++ (ofText r).content := by
  rw [content_eq, content_eq, Directive.pattern.pieces_append h, List.flatMap_cons]

/-- A directive is converted to a placeholder, or it stays. -/
theorem converted_hit (w : Text) (d : Directive) :
    (∃ e, d.deferred? = some e ∧ converted (.hit w d) = e.placeholder) ∨
      d.deferred? = none ∧ converted (.hit w d) = w := by
  rw [converted, replaced]
  cases d.deferred? with
  | none => exact .inr ⟨rfl, rfl⟩
  | some e => exact .inl ⟨e, rfl, rfl⟩

/-- Where a directive was, the converted text goes on with an angle bracket or with two opening
    braces. -/
theorem exists_of_hit {w r : Text} {d : Directive} (h : Directive.readDirective (w ++ r) = some (d, r)) :
    ∃ q, (ofText (w ++ r)).content = '<' :: q ∨ (ofText (w ++ r)).content = '{' :: '{' :: q := by
  rw [content_hit h]
  rcases converted_hit w d with ⟨e, -, he⟩ | ⟨-, hw⟩
  · obtain ⟨t, ht⟩ := e.exists_placeholder
    exact ⟨_, .inl (by rw [he, ← ht, List.cons_append])⟩
  · obtain ⟨body, hbody⟩ := Directive.exists_written h
    cases hbody
    exact ⟨_, .inr (by rw [hw]; rfl)⟩

/-- A character that starts neither a placeholder nor a directive stood in the text as it was. -/
theorem exists_of_content {s q : Text} {c : Char} (h : (ofText s).content = c :: q) (hc : c ≠ '<')
    (hq : c = '{' → q.head? ≠ some '{') : ∃ t, s = c :: t ∧ q = (ofText t).content := by
  induction s using Directive.pattern.search_induction with
  | nil => cases h
  | plain b t hnone ih =>
    rw [content_plain hnone] at h
    obtain ⟨rfl, rfl⟩ := List.cons.inj h
    exact ⟨t, rfl, rfl⟩
  | hit w d r hw hread ih =>
    obtain ⟨z, hz | hz⟩ := exists_of_hit hread
    · exact absurd (List.cons.inj (h.symm.trans hz)).1 hc
    · obtain ⟨hbrace, rfl⟩ := List.cons.inj (h.symm.trans hz)
      exact absurd rfl (hq hbrace)

theorem exists_of_content_append {s x q : Text} (h : (ofText s).content = x ++ q) (hx : '<' ∉ x ∧ '{' ∉ x) :
    ∃ t, s = x ++ t ∧ q = (ofText t).content := by
  induction x generalizing s with
  | nil => exact ⟨s, rfl, h.symm⟩
  | cons c x ih =>
    rw [List.mem_cons, not_or, List.mem_cons, not_or] at hx
    obtain ⟨s, rfl, hs⟩ := exists_of_content h (Ne.symm hx.1.1) fun hc => absurd hc.symm hx.2.1
    obtain ⟨t, rfl, hq⟩ := ih hs.symm ⟨hx.1.2, hx.2.2⟩
    exact ⟨t, rfl, hq⟩

theorem head?_content (s : Text) : (ofText s).content.head? = some '}' ↔ s.head? = some '}' := by
  induction s using Directive.pattern.search_induction with
  | nil => exact Iff.rfl
  | plain c t hnone ih => rw [content_plain hnone, List.head?_cons, List.head?_cons]
  | hit w d r hw hread ih =>
    obtain ⟨t, ht⟩ := Directive.exists_opening hread
    obtain ⟨q, hq | hq⟩ := exists_of_hit hread
    · rw [hq, ht]
      exact iff_of_false (by simp) (by simp)
    · rw [hq, ht]
      exact iff_of_false (by simp) (by simp)

/-- The text as it was is closed where the converted text is. -/
theorem closes_of_content {s : Text} (h : Directive.Closes (ofText s).content) : Directive.Closes s := by
  induction s using Directive.pattern.search_induction with
  | nil => exact h
  | plain c t hnone ih =>
    rw [content_plain hnone] at h
    by_cases hc : c = '}'
    · subst hc
      rw [Directive.closes_cons_closing, head?_content] at h
      exact (Directive.closes_cons_closing t).2 h
    · have hfree : '}' ∉ [c] := by simpa using Ne.symm hc
      exact (Directive.closes_append hfree t).2 (ih ((Directive.closes_append hfree _).1 h))
  | hit w d r hw hread ih =>
    -- the directive itself ends with the first closing braces
    obtain ⟨body, hbody⟩ := Directive.exists_written hread
    obtain ⟨x, rfl, hx⟩ := hbody.exists_inner
    exact ⟨x, r, hx, List.append_assoc x _ r⟩

/-- Where a directive is read from a character of the text on, it was read there in the text as it
    was. -/
theorem isSome_read_of_content {c : Char} {s : Text}
    (h : (Directive.readDirective (c :: (ofText s).content)).isSome) :
    (Directive.readDirective (c :: s)).isSome := by
  obtain ⟨⟨d, r⟩, hread⟩ := Option.isSome_iff_exists.1 h
  obtain ⟨b, q, hfront, hb, hhead, hcloses⟩ := Directive.exists_front hread
  obtain ⟨rfl, hcontent⟩ : c = '{' ∧ (ofText s).content = '{' :: (d.kind.word ++ [b] ++ q) :=
    List.cons.inj hfront
  have hword : ∀ k : Directive.Kind, '<' ∉ k.word ∧ '{' ∉ k.word ∧ k.word.head? ≠ some '{' ∧ k.word ≠ [] := by
    intro k
    cases k <;> decide
  obtain ⟨hangle, hbrace, hsecond, hne⟩ := hword d.kind
  obtain ⟨s, rfl, hs⟩ := exists_of_content hcontent (by decide) fun _ => by
    rwa [List.append_assoc, List.head?_append_of_ne_nil _ hne]
  have hblank : '<' ∉ d.kind.word ++ [b] ∧ '{' ∉ d.kind.word ++ [b] := by
    constructor
    · rw [List.mem_append, List.mem_singleton, not_or]
      exact ⟨hangle, fun heq => absurd (heq ▸ hb) (by decide)⟩
    · rw [List.mem_append, List.mem_singleton, not_or]
      exact ⟨hbrace, fun heq => absurd (heq ▸ hb) (by decide)⟩
  obtain ⟨s, rfl, rfl⟩ := exists_of_content_append hs.symm hblank
  have hsource := Directive.isSome_read (k := d.kind) hb ((head?_content s).not.1 hhead) (closes_of_content hcloses)
  simpa [Directive.front, Directive.opening] using hsource

/-! ### Placeholders and what is left -/

/-- The placeholders of the converted text, with the directives they stand for. -/
def placeholders (s : Text) : List (Located (Located Deferred)) := locate 0 (Rendering.draft s)

/-- A directive that is answered later is a placeholder of the converted text; where this one is
    split, the rest of it is followed by the text behind it. -/
theorem exists_placeholder_of_hit {s w u v : Text} {d : Directive} {e : Deferred}
    {before after : List (Piece Directive)} (h : Directive.pattern.pieces s = before ++ .hit w d :: after)
    (he : d.deferred? = some e) (hparts : e.placeholder = u ++ v) :
    ∃ p ∈ placeholders s, p.value.value = e ∧ (before.flatMap converted ++ u).length = p.start + u.length ∧
      p.stop = (before.flatMap converted ++ u).length + v.length ∧
      (ofText s).content.drop (before.flatMap converted ++ u).length = v ++ (ofText s).content.drop p.stop := by
  have hcontent : (ofText s).content = before.flatMap converted ++ u ++ (v ++ after.flatMap converted) := by
    rw [content_eq, h, List.flatMap_append, List.flatMap_cons, converted, replaced, he, ← converted,
      Option.map_some, Option.getD_some, hparts, List.append_assoc, List.append_assoc]
  have hstart : (Draft.text (Draft.ofPieces 0 before)).length = (before.flatMap converted).length := by
    rw [text_ofPieces]
  have hmem : ⟨(before.flatMap converted).length, (before.flatMap converted).length + e.placeholder.length,
      e.placeholder, ⟨(before.flatMap Piece.source).length, (before.flatMap Piece.source).length + w.length, w, e⟩⟩ ∈
      placeholders s := by
    rw [placeholders, Rendering.draft, h, Draft.ofPieces_append, Draft.ofPieces_of_some he, locate_append, ← hstart]
    simp only [Nat.zero_add, locate, Draft.text, List.mem_append, List.mem_cons, true_or, or_true]
  have hstop : (before.flatMap converted).length + e.placeholder.length =
      (before.flatMap converted ++ u).length + v.length := by
    rw [hparts, List.length_append, List.length_append, Nat.add_assoc]
  refine ⟨_, hmem, rfl, List.length_append, hstop, ?_⟩
  change _ = v ++ (ofText s).content.drop ((before.flatMap converted).length + e.placeholder.length)
  rw [hstop, ← List.drop_drop, hcontent, List.drop_left, List.drop_left]

/-- Each directive that is left and answered later starts inside a placeholder. -/
theorem exists_placeholder {s : Text} {m : Located Directive} (hm : m ∈ Directive.find (ofText s).content)
    (hd : m.value.deferred?.isSome) :
    ∃ p ∈ placeholders s, ∃ u v, p.value.value.placeholder = u ++ v ∧ u ≠ [] ∧ v ≠ [] ∧ '}' ∉ v ∧
      m.start = p.start + u.length ∧ p.stop = m.start + v.length ∧
      (ofText s).content.drop m.start = v ++ (ofText s).content.drop p.stop := by
  obtain ⟨z, r, hsplit, hne, hstart, -, hread⟩ := Pattern.exists_of_mem_locate hm
  rw [Nat.zero_add] at hstart
  obtain ⟨t, ht⟩ := Directive.exists_opening hread
  obtain ⟨before, x, after, u, v, hps, hx, hv, rfl, hy⟩ := Text.exists_of_flatMap_eq_append
    ((content_eq s).symm.trans hsplit) (List.append_ne_nil_of_left_ne_nil hne r)
  rcases Pattern.pieces_eq_cons (Pattern.pieces_of_append hps) with
    ⟨c, q, rfl, hs, hnone, rfl⟩ | ⟨w, d, q, rfl, hs, hhit, rfl⟩
  · -- a character of the text: the directive was read there before
    obtain ⟨rfl, rfl⟩ : u = [] ∧ v = [c] :=
      (List.append_eq_singleton_iff.1 hx.symm).resolve_right fun h => hv h.2
    rw [hy, ← content_eq] at hread
    have hsome := isSome_read_of_content (Option.isSome_of_eq_some hread)
    rw [hs] at hnone
    have hnone : Directive.readDirective (c :: q) = none := hnone
    rw [hnone] at hsome
    cases hsome
  · rw [hs] at hhit
    rcases converted_hit w d with ⟨e, he, hplaceholder⟩ | ⟨hnone, hkept⟩
    · -- a placeholder, which does not start with a brace
      have hparts : e.placeholder = u ++ v := hplaceholder.symm.trans hx
      obtain ⟨p, hp, rfl, hpstart, hpstop, hdrop⟩ := exists_placeholder_of_hit hps he hparts
      have hu : u ≠ [] := by
        rintro rfl
        obtain ⟨t', ht'⟩ := p.value.value.exists_placeholder
        rw [hy, ← List.nil_append v, ← hparts, ← ht'] at ht
        exact absurd (List.cons.inj ht).1 (by decide)
      have hclosed := Directive.unclosed_placeholder hhit he
      rw [hparts, List.mem_append, not_or] at hclosed
      rw [← hstart] at hpstart hpstop hdrop
      exact ⟨p, hp, u, v, hparts, hu, hv, hclosed.2, hpstart, hpstop, hdrop⟩
    · -- a directive that stays, and is found again
      obtain rfl : w = u ++ v := hkept.symm.trans hx
      have hwhole : (ofText s).content =
          before.flatMap converted ++ (u ++ v ++ (Directive.pattern.pieces q).flatMap converted) := by
        rw [hsplit, hy, List.append_assoc, List.append_assoc]
      have hpos : 0 < v.length := List.length_pos_iff.2 hv
      rw [List.length_append] at hstart
      have hvalue : m.value = d := by
        apply Directive.value_of_starts_inside hwhole (Directive.read_behind hhit _) hm
        · omega
        · rw [List.length_append]
          omega
      rw [hvalue, hnone] at hd
      cases hd

/-! ### What stands inside a placeholder -/

/-- A text holds the front of a directive that is answered later. -/
def HoldsFront (v : Text) : Prop :=
  ∃ k c, k ≠ Directive.Kind.inclusion ∧ Text.isBlank c = true ∧ Directive.front k c <:+: v

theorem kind_of_deferred? {d : Directive} (h : d.deferred?.isSome) : d.kind ≠ .inclusion := by
  intro hkind
  obtain ⟨e, he⟩ := Option.isSome_iff_exists.1 h
  rcases Directive.cases_of_deferred? he with ⟨c, hc, -⟩ | ⟨c, hc, -⟩ | ⟨r, hr, -⟩
  · rw [Directive.chunk?, if_neg (by rw [hkind]; decide)] at hc
    cases hc
  · rw [Directive.continuation?, if_neg (by rw [hkind]; decide)] at hc
    cases hc
  · rw [Directive.render?, if_neg (by rw [hkind]; decide)] at hr
    cases hr

/-- Where a directive starts inside a placeholder, its front stands in a text that the placeholder
    copies, and it is closed behind the placeholder. -/
theorem exists_front_inside {e : Deferred} {u v q r : Text} {d : Directive} (he : e.placeholder = u ++ v)
    (hv : v ≠ []) (hclosed : '}' ∉ v) (h : Directive.readDirective (v ++ q) = some (d, r))
    (hd : d.deferred?.isSome) : (∃ t ∈ e.texts, HoldsFront t) ∧ Directive.Closes q := by
  obtain ⟨c, rest, hfront, hc, -, hcloses⟩ := Directive.exists_front h
  have hforeign : Foreign (Directive.front d.kind c) := Directive.foreign_front hc
  -- the front does not reach over the end tag of the placeholder
  obtain ⟨x, hx⟩ : ∃ x, e.placeholder = x ++ '<' :: "/div>".toList := by
    rw [e.placeholder_eq, Placeholder.division, ← List.cons_append, ← List.append_assoc]
    exact ⟨_, rfl⟩
  obtain ⟨y, rfl⟩ : ∃ y, v = Directive.front d.kind c ++ y := by
    rcases List.append_eq_append_iff.1 (hx.symm.trans he) with ⟨a, -, ha⟩ | ⟨b, -, rfl⟩
    · obtain ⟨t, ht⟩ := Directive.exists_opening h
      obtain ⟨b, v, rfl⟩ := List.exists_cons_of_ne_nil hv
      obtain rfl : b = '{' := (List.cons.inj ht).1
      have hbrace : '{' ∈ '<' :: "/div>".toList := ha ▸ List.mem_append_right a List.mem_cons_self
      exact absurd hbrace (by decide)
    · rw [List.append_assoc, List.cons_append] at hfront
      obtain ⟨y, rfl, -⟩ := Text.exists_append_of_not_mem (hforeign.unjoined '<' (by decide)) hfront
      exact ⟨y ++ '<' :: "/div>".toList, List.append_assoc _ y _⟩
  rw [List.append_assoc] at hfront
  obtain rfl := List.append_cancel_left hfront
  rw [List.mem_append, not_or] at hclosed
  obtain ⟨t, ht, hinfix⟩ := Deferred.exists_text_of_infix (d := e) hforeign ⟨u, y, by rw [he, List.append_assoc]⟩
  exact ⟨⟨t, ht, d.kind, c, kind_of_deferred? hd, hc, hinfix⟩, (Directive.closes_append hclosed.2 q).1 hcloses⟩

/-! ### Settled texts -/

/-- The text has no directive that is answered later, and converting it changes nothing. -/
structure Settled (s : Text) : Prop where
  chunks_eq : Directive.chunks s = []
  continuations_eq : Directive.continuations s = []
  renders_eq : Directive.renders s = []
  content_eq : (ofText s).content = s

theorem settled_iff {s : Text} : Settled s ↔ deferred s = [] := by
  have hperm : (deferred s).Perm (answeredLater s) := (deferred_perm_kept s).trans (kept_perm s)
  constructor
  · intro h
    have hnone : answeredLater s = [] := by
      rw [answeredLater, askingForChunks, h.chunks_eq, h.continuations_eq, h.renders_eq]
      rfl
    exact (hnone ▸ hperm).eq_nil
  · intro h
    have hnone : answeredLater s = [] := (h ▸ hperm).nil_eq.symm
    rw [answeredLater, askingForChunks] at hnone
    simp only [List.append_eq_nil_iff, List.map_eq_nil_iff] at hnone
    refine ⟨hnone.1.1, hnone.1.2, hnone.2, ?_⟩
    rw [ofText, h]
    rfl

/-- A text is settled exactly if no directive is found in it that is answered later. -/
theorem settled_iff_forall {s : Text} : Settled s ↔ ∀ m ∈ Directive.find s, m.value.deferred? = none := by
  rw [settled_iff, deferred, Directive.collect, List.filterMap_eq_nil_iff]
  refine forall₂_congr fun m _ => ?_
  rw [Located.filterMap, Option.map_eq_none_iff]

/-- The converted text is settled exactly if none of the directives that are found in it and
    answered later starts inside a placeholder.  So it is if behind each placeholder that copies the
    front of such a directive the next closing brace is not doubled. -/
theorem settled_ofText_iff (s : Text) :
    (Settled (ofText s).content ↔
      ∀ m ∈ Directive.find (ofText s).content, m.value.deferred?.isSome →
        ∀ p ∈ placeholders s, ¬(p.start < m.start ∧ m.start < p.stop)) ∧
      ((∀ p ∈ placeholders s, (∃ t ∈ p.value.value.texts, HoldsFront t) →
          ¬Directive.Closes ((ofText s).content.drop p.stop)) →
        Settled (ofText s).content) := by
  refine ⟨⟨fun h m hm hd => ?_, fun h => settled_iff_forall.2 fun m hm => ?_⟩, fun h =>
    settled_iff_forall.2 fun m hm => ?_⟩
  · rw [settled_iff_forall.1 h m hm] at hd
    cases hd
  · apply Option.not_isSome_iff_eq_none.1
    intro hd
    obtain ⟨p, hp, u, v, -, hu, hv, -, hstart, hstop, -⟩ := exists_placeholder hm hd
    have hpos : 0 < u.length ∧ 0 < v.length := ⟨List.length_pos_iff.2 hu, List.length_pos_iff.2 hv⟩
    exact h m hm hd p hp (by omega)
  · apply Option.not_isSome_iff_eq_none.1
    intro hd
    obtain ⟨p, hp, u, v, hparts, -, hv, hclosed, -, -, hdrop⟩ := exists_placeholder hm hd
    have hread := (Directive.pattern.scans_find _).read m hm
    rw [hdrop] at hread
    obtain ⟨hfront, hcloses⟩ := exists_front_inside hparts hv hclosed hread hd
    exact h p hp hfront hcloses

/-- A directive for a chunk whose collection is the front of another one. -/
def nested : Text := "\x7b\x7bchunk collection=\"\x7b\x7bchunk \" index=0\x7d\x7d\x7d\x7d".toList

theorem unsettled_nested : ¬Settled (ofText nested).content ∧
    (Directive.chunks (ofText nested).content).map (fun c => (c.value.collection, c.value.index)) =
      [("\x7b\x7bchunk ".toList, 0)] ∧
    (ofText (ofText nested).content).content ≠ (ofText nested).content := by
  have hchunks : (Directive.chunks (ofText nested).content).map (fun c => (c.value.collection, c.value.index)) =
      [("\x7b\x7bchunk ".toList, 0)] := by decide +kernel
  refine ⟨fun h => ?_, hchunks, by decide +kernel⟩
  rw [h.chunks_eq] at hchunks
  cases hchunks

end Conversion
end PageAssembly
