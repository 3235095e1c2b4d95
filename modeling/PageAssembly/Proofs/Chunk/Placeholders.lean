/-
  PageAssembly/Proofs/Chunk/Placeholders.lean
  ===========================================
  **A placeholder is found again by its own id, and by no other.**

  A placeholder is searched for by its opening tag, in which the id has to stand as the
  value of an attribute.  Values are escaped, so a quote in an opening tag ends a name or a
  value.  What is searched for starts with the name of the attribute and goes on with an id,
  and no id starts with a blank; so it cannot stand across the end of a value, and what
  it finds is an attribute with this value (`Placeholder.exists_field_of_mentions`).

  In a text without other angle brackets the search for an id therefore hits exactly the
  placeholders with the id, each of them as a whole (`Placeholder.pieces_withId_placeholder`).
  Ids keep the kinds apart, and say which chunk a placeholder is for
  (`Deferred.exists_chunk_of_id`).
-/
import PageAssembly.Chunk.Rendering
import PageAssembly.Proofs.Markup.Escaping
import PageAssembly.Proofs.Text.Weaving

namespace PageAssembly

/-- A word up to its first `d`, in a text that starts with a longer one. -/
theorem Text.append_cons_split {d : Char} {x a p y : Text} (hx : d ∉ x) (hp : d ∈ p)
    (h : x ++ d :: a = p ++ y) : ∃ q, p = x ++ d :: q ∧ a = q ++ y := by
  obtain ⟨p₁, p₂, rfl, hfree⟩ := List.eq_append_cons_of_mem hp
  rw [List.append_assoc, List.cons_append] at h
  obtain ⟨rfl, rfl⟩ := Text.append_cons_inj hx hfree h
  exact ⟨p₂, rfl, rfl⟩

/-- A word without `d` at the end of a text: behind the `d` there is nothing else, or something. -/
theorem Text.eq_or_exists_of_append {c d : Char} {a k x q : Text} (hk : d ∉ k)
    (h : a ++ [c] ++ k = x ++ [d] ++ q) : q = k ∨ ∃ a', q = a' ++ c :: k := by
  rcases List.append_eq_append_iff.1 h with ⟨as, hx, hkeq⟩ | ⟨bs, ha, hq⟩
  · rcases List.eq_nil_or_concat as with rfl | ⟨as, e, rfl⟩
    · exact .inl hkeq.symm
    · rw [List.concat_eq_append, ← List.append_assoc] at hx
      obtain ⟨-, hde⟩ := List.append_inj' hx rfl
      obtain rfl : d = e := by simpa using hde
      exact absurd (hkeq ▸ by simp) hk
  · rcases List.eq_nil_or_concat bs with rfl | ⟨bs, e, rfl⟩
    · exact .inl hq
    · rw [List.concat_eq_append, ← List.append_assoc] at ha
      obtain ⟨-, hce⟩ := List.append_inj' ha rfl
      obtain rfl : c = e := by simpa using hce
      exact .inr ⟨bs, by simpa using hq⟩

namespace Placeholder

/-! ### The id in an opening tag -/

theorem mentions_iff {w s : Text} :
    mentions w s = true ↔ ∃ a c b, s = a ++ c :: (w ++ b) ∧ Text.isWord c = false := by
  induction s with
  | nil =>
    constructor
    · intro h
      cases h
    · rintro ⟨a, c, b, h, -⟩
      cases a <;> cases h
  | cons d s ih =>
    unfold mentions
    rw [Bool.or_eq_true, ih]
    constructor
    · rintro (h | ⟨a, c, b, rfl, hc⟩)
      · rw [Bool.and_eq_true, List.isPrefixOf_iff_prefix] at h
        obtain ⟨hd, b, rfl⟩ := h
        exact ⟨[], d, b, rfl, by simpa using hd⟩
      · exact ⟨d :: a, c, b, rfl, hc⟩
    · rintro ⟨a, c, b, h, hc⟩
      cases a with
      | nil =>
        obtain ⟨rfl, rfl⟩ := List.cons.inj h
        left
        rw [Bool.and_eq_true, List.isPrefixOf_iff_prefix]
        exact ⟨by simpa using hc, b, rfl⟩
      | cons e a =>
        obtain ⟨rfl, rfl⟩ := List.cons.inj h
        exact .inr ⟨a, c, b, rfl, hc⟩

def idName : Text := "data-progressive-id".toList

theorem idField_eq (id : Text) :
    idField id = (idName ++ ['=']) ++ '"' :: (Markup.escapeValue id ++ ['"']) := by
  have hname : "data-progressive-id=\"".toList = (idName ++ ['=']) ++ ['"'] := by decide
  calc "data-progressive-id=\"".toList ++ Markup.escapeValue id ++ ['"']
      = ((idName ++ ['=']) ++ ['"']) ++ Markup.escapeValue id ++ ['"'] := by rw [hname]
    _ = (idName ++ ['=']) ++ '"' :: (Markup.escapeValue id ++ ['"']) := by
        simp only [List.append_assoc, List.cons_append, List.nil_append]

theorem head_of_fields {fields : List (Text × Text)} {c : Char} {s : Text}
    (h : (fields.flatMap fun f => field f.1 f.2) = c :: s) : c = ' ' := by
  cases fields with
  | nil => cases h
  | cons f fields => exact (List.cons.inj h).1.symm

/-- The attributes of an opening tag mention an id only where an attribute has it as its value. -/
theorem exists_field_of_mentions {id : Text} {first : Char} {rest : Text}
    (hid : Markup.escapeValue id = first :: rest) (hfirst : first ≠ ' ')
    {fields : List (Text × Text)} (hnames : ∀ f ∈ fields, '"' ∉ f.1)
    (h : mentions (idField id) (fields.flatMap fun f => field f.1 f.2) = true) :
    ∃ f ∈ fields, idName <:+ f.1 ∧ f.2 = id := by
  obtain ⟨a, c, b, hsplit, hc⟩ := mentions_iff.1 h
  clear h
  have hkey : '"' ∉ idName ++ ['='] := by decide
  induction fields generalizing a with
  | nil => cases a <;> cases hsplit
  | cons f fields ih =>
    let later := fields.flatMap fun f => field f.1 f.2
    have hname : '"' ∉ ' ' :: (f.1 ++ ['=']) := by
      simp [hnames f List.mem_cons_self]
    have hvalue := Markup.not_mem_escapeValue (c := '"') (by decide) f.2
    have hvalue' := Markup.not_mem_escapeValue (c := '"') (by decide) id
    -- up to the first quote, which ends a name or the value of the first attribute
    have hquotes : (' ' :: (f.1 ++ ['='])) ++ '"' :: (Markup.escapeValue f.2 ++ '"' :: later) =
        (a ++ c :: (idName ++ ['='])) ++ '"' :: (Markup.escapeValue id ++ '"' :: b) := by
      simpa [field, idField_eq, later] using hsplit
    by_cases hfront : '"' ∈ a ++ c :: (idName ++ ['='])
    · obtain ⟨p, hp, hrest⟩ := Text.append_cons_split hname hfront hquotes
      by_cases hback : '"' ∈ p
      · obtain ⟨q, rfl, hlater⟩ := Text.append_cons_split hvalue hback hrest
        have hend : a ++ [c] ++ (idName ++ ['=']) =
            ' ' :: (f.1 ++ ['=']) ++ '"' :: Markup.escapeValue f.2 ++ ['"'] ++ q := by
          simpa using hp
        rcases Text.eq_or_exists_of_append hkey hend with rfl | ⟨a', rfl⟩
        · exact absurd (head_of_fields hlater) (by decide)
        · obtain ⟨g, hg, hnamed, hvalued⟩ := ih (fun g hg => hnames g (List.mem_cons_of_mem _ hg)) a'
            (by simpa [idField_eq, later] using hlater)
          exact ⟨g, List.mem_cons_of_mem _ hg, hnamed, hvalued⟩
      · obtain ⟨-, hlater⟩ := Text.append_cons_inj hvalue hback hrest
        rw [hid] at hlater
        exact absurd (head_of_fields hlater) hfirst
    · obtain ⟨hnamed, hrest⟩ := Text.append_cons_inj hname hfront hquotes
      obtain ⟨hvalues, -⟩ := Text.append_cons_inj hvalue hvalue' hrest
      refine ⟨f, List.mem_cons_self, ?_, Markup.escapeValue_injective hvalues⟩
      have hended : (' ' :: f.1) ++ ['='] = (a ++ c :: idName) ++ ['='] := by
        simpa using hnamed
      have hnamed : ' ' :: f.1 = a ++ c :: idName := List.append_cancel_right hended
      cases a with
      | nil => exact ⟨[], (List.cons.inj hnamed).2.symm⟩
      | cons d a => exact ⟨a ++ [c], by simp [(List.cons.inj hnamed).2]⟩

theorem mentions_of_field {id : Text} {fields : List (Text × Text)} (h : (idName, id) ∈ fields) :
    mentions (idField id) (fields.flatMap fun f => field f.1 f.2) = true := by
  obtain ⟨before, after, rfl⟩ := List.append_of_mem h
  refine mentions_iff.2 ⟨before.flatMap fun f => field f.1 f.2, ' ',
    after.flatMap fun f => field f.1 f.2, ?_, by decide⟩
  simp [field, idField_eq]

/-! ### Reading a placeholder -/

theorem cut_closing {content : Text} (hcontent : '<' ∉ content) (rest : Text) :
    Text.cut "</div>".toList (content ++ "</div>".toList ++ rest) = some (content, rest) := by
  induction content with
  | nil =>
    have hexpect : Text.expect "</div>".toList ('<' :: ("/div>".toList ++ rest)) = some rest :=
      Text.expect_append "</div>".toList rest
    change Text.cut "</div>".toList ('<' :: ("/div>".toList ++ rest)) = _
    unfold Text.cut
    rw [hexpect]
  | cons c content ih =>
    have hne : c ≠ '<' := fun h => hcontent (h ▸ List.mem_cons_self)
    have hnone : Text.expect "</div>".toList (c :: (content ++ "</div>".toList ++ rest)) = none := by
      rw [Option.eq_none_iff_forall_ne_some]
      intro r hr
      exact hne (List.cons.inj (Text.expect_eq_some_iff.1 hr)).1
    rw [List.cons_append, List.cons_append]
    unfold Text.cut
    rw [hnone, ih fun h => hcontent (List.mem_cons_of_mem _ h)]
    rfl

theorem readWithId_eq_none (id : Text) {s : Text} (h : ¬ "<div".toList <+: s) :
    readWithId id s = none := by
  rw [Option.eq_none_iff_forall_ne_some]
  rintro ⟨u, r⟩ hr
  obtain ⟨t, hs, -⟩ := suffix_of_readWithId hr
  exact h ⟨t, hs.symm⟩

/-- A division is read if it mentions the id, and then all of it. -/
theorem readWithId_division (id : Text) {fields : List (Text × Text)} {content : Text}
    (hfields : '>' ∉ fields.flatMap fun f => field f.1 f.2) (hcontent : '<' ∉ content) (rest : Text) :
    readWithId id (division fields content ++ rest) =
      if mentions (idField id) (fields.flatMap fun f => field f.1 f.2) then some ((), rest) else none := by
  have hsplit : division fields content ++ rest = "<div".toList ++
      ((fields.flatMap fun f => field f.1 f.2) ++ '>' :: (content ++ "</div>".toList ++ rest)) := by
    simp [division]
  have hall : ∀ c ∈ fields.flatMap (fun f => field f.1 f.2), (c != '>') = true := by
    intro c hc
    rw [bne_iff_ne]
    exact fun h => hfields (h ▸ hc)
  rw [hsplit, readWithId, Text.expect_append, Option.bind_eq_bind, Option.bind_some]
  rw [List.dropWhile_append_of_pos hall, List.takeWhile_append_of_pos hall]
  simp only [List.dropWhile_cons, List.takeWhile_cons, bne_self_eq_false, Bool.false_eq_true, if_false,
    List.append_nil]
  rw [cut_closing hcontent]
  rfl

end Placeholder

/-! ### Ids -/

/-- Two words in front of their last `d` are one word if the words behind it hold no `d`. -/
theorem Text.append_cons_inj_last {d : Char} {x y a b : Text} (ha : d ∉ a) (hb : d ∉ b)
    (h : x ++ d :: a = y ++ d :: b) : x = y ∧ a = b := by
  have hreverse : a.reverse ++ d :: x.reverse = b.reverse ++ d :: y.reverse := by
    have := congrArg List.reverse h
    simpa using this
  obtain ⟨hab, hxy⟩ := Text.append_cons_inj (by simpa using ha) (by simpa using hb) hreverse
  exact ⟨List.reverse_injective hxy, List.reverse_injective hab⟩

theorem Text.numbered_inj {x y : Text} {m n : Nat}
    (h : x ++ '-' :: Text.decimal m = y ++ '-' :: Text.decimal n) : x = y ∧ m = n := by
  have hfree : ∀ k, '-' ∉ Text.decimal k := fun k hk => absurd (Verbatim.mem_decimal hk) (by decide)
  obtain ⟨hxy, hmn⟩ := Text.append_cons_inj_last (hfree m) (hfree n) h
  exact ⟨hxy, Text.decimal_injective hmn⟩

namespace Deferred

/-- Only the placeholders of a chunk have its id. -/
theorem exists_chunk_of_id {d : Deferred} {c : Chunk} (h : d.id = c.id) :
    ∃ c', d = .progressive (.chunk c') ∧ c'.key = c.key := by
  rcases d with (c' | c') | r
  · refine ⟨c', rfl, ?_⟩
    have h : "chunk-".toList ++ c'.collection ++ '-' :: Text.decimal c'.index =
        "chunk-".toList ++ c.collection ++ '-' :: Text.decimal c.index := h
    rw [List.append_assoc, List.append_assoc] at h
    obtain ⟨hcollection, hindex⟩ := Text.numbered_inj (List.append_cancel_left h)
    rw [Chunk.key, Chunk.key, hcollection, hindex]
  · have h : 'c' :: 'o' :: _ = 'c' :: 'h' :: _ := h
    exact absurd (List.cons.inj (List.cons.inj h).2).1 (by decide)
  · have h : 'r' :: _ = 'c' :: _ := h
    exact absurd (List.cons.inj h).1 (by decide)

/-- Only the placeholders of continuations have the id of a continuation. -/
theorem exists_continuation_of_id {d : Deferred} {c : Continuation} (h : d.id = c.id) :
    ∃ c', d = .progressive (.continuation c') := by
  rcases d with (c' | c') | r
  · have h : 'c' :: 'h' :: _ = 'c' :: 'o' :: _ := h
    exact absurd (List.cons.inj (List.cons.inj h).2).1 (by decide)
  · exact ⟨c', rfl⟩
  · have h : 'r' :: _ = 'c' :: _ := h
    exact absurd (List.cons.inj h).1 (by decide)

theorem exists_escapeValue_id (d : Deferred) :
    ∃ first rest, Markup.escapeValue d.id = first :: rest ∧ first ≠ ' ' := by
  rcases d with (c | c) | r
  · exact ⟨'c', _, rfl, by decide⟩
  · exact ⟨'c', _, rfl, by decide⟩
  · exact ⟨'r', _, rfl, by decide⟩

/-! ### Placeholders as divisions -/

def fields : Deferred → List (Text × Text)
  | .progressive (.chunk c) => Placeholder.heading c.id .chunk ++
      [("data-collection".toList, c.collection), ("data-index".toList, Text.decimal c.index)]
  | .progressive (.continuation c) => Placeholder.heading c.id .continuation ++
      [("data-collection".toList, c.collection), ("data-from".toList, Text.decimal c.first)]
  | .render r => Placeholder.heading r.id .render ++ [("data-path".toList, r.path)]

def caption : Deferred → Text
  | .progressive (.chunk c) => Markup.escape (c.caption.getD [])
  | _ => []

theorem placeholder_eq (d : Deferred) : d.placeholder = Placeholder.division d.fields d.caption := by
  rcases d with (c | c) | r <;> rfl

theorem not_mem_caption (d : Deferred) : '<' ∉ d.caption := by
  rcases d with (c | c) | r
  · exact Markup.not_mem_escape _
  · exact List.not_mem_nil
  · exact List.not_mem_nil

/-- The names of the other attributes of placeholders. -/
def otherNames : List Text :=
  ["class".toList, "data-type".toList, "data-collection".toList, "data-index".toList,
    "data-from".toList, "data-path".toList]

theorem exists_fields (d : Deferred) :
    ∃ before after, d.fields = before ++ (Placeholder.idName, d.id) :: after ∧
      ∀ f ∈ before ++ after, f.1 ∈ otherNames := by
  have hnames : ∀ names ∈ [["class".toList, "data-type".toList, "data-collection".toList, "data-index".toList],
      ["class".toList, "data-type".toList, "data-collection".toList, "data-from".toList],
      ["class".toList, "data-type".toList, "data-path".toList]], ∀ n ∈ names, n ∈ otherNames := by decide
  rcases d with (c | c) | r
  · refine ⟨[("class".toList, Placeholder.className)], [("data-type".toList, _),
      ("data-collection".toList, _), ("data-index".toList, _)], rfl, fun f hf => ?_⟩
    exact hnames _ List.mem_cons_self f.1 (List.mem_map_of_mem (f := Prod.fst) hf)
  · refine ⟨[("class".toList, Placeholder.className)], [("data-type".toList, _),
      ("data-collection".toList, _), ("data-from".toList, _)], rfl, fun f hf => ?_⟩
    exact hnames _ (List.mem_cons_of_mem _ List.mem_cons_self) f.1
      (List.mem_map_of_mem (f := Prod.fst) hf)
  · refine ⟨[("class".toList, Placeholder.className)], [("data-type".toList, _),
      ("data-path".toList, _)], rfl, fun f hf => ?_⟩
    exact hnames _ (List.mem_cons_of_mem _ (List.mem_cons_of_mem _ List.mem_cons_self)) f.1
      (List.mem_map_of_mem (f := Prod.fst) hf)

theorem otherNames_plain : ∀ n ∈ otherNames, '<' ∉ n ∧ '>' ∉ n ∧ '"' ∉ n ∧ ¬ Placeholder.idName <:+ n := by
  decide

theorem name_of_mem_fields {d : Deferred} {f : Text × Text} (hf : f ∈ d.fields) :
    f = (Placeholder.idName, d.id) ∨ f.1 ∈ otherNames := by
  obtain ⟨before, after, hfields, hothers⟩ := d.exists_fields
  rw [hfields, List.mem_append, List.mem_cons] at hf
  rcases hf with hf | rfl | hf
  · exact .inr (hothers f (List.mem_append_left _ hf))
  · exact .inl rfl
  · exact .inr (hothers f (List.mem_append_right _ hf))

theorem not_mem_name {c : Char} (hc : c ∈ ['<', '>', '"']) {d : Deferred} {f : Text × Text}
    (hf : f ∈ d.fields) : c ∉ f.1 := by
  rcases name_of_mem_fields hf with rfl | hname
  · have hall : ∀ c ∈ ['<', '>', '"'], c ∉ Placeholder.idName := by decide
    exact hall c hc
  · obtain ⟨hleft, hright, hquote, -⟩ := otherNames_plain f.1 hname
    simp only [List.mem_cons, List.not_mem_nil, or_false] at hc
    rcases hc with rfl | rfl | rfl
    · exact hleft
    · exact hright
    · exact hquote

theorem not_mem_fields {c : Char} (hc : c ∈ ['<', '>']) (d : Deferred) :
    c ∉ d.fields.flatMap fun f => Placeholder.field f.1 f.2 := by
  have hmarkup : c ∈ ['<', '>', '"'] := List.mem_append_left ['"'] hc
  have hrest : c ∉ [' ', '=', '"'] := by
    revert c
    decide
  rw [List.mem_flatMap]
  rintro ⟨f, hf, hmem⟩
  have hname := not_mem_name hmarkup hf
  have hvalue := Markup.not_mem_escapeValue hmarkup f.2
  simp only [Placeholder.field, List.mem_cons, List.mem_append, List.not_mem_nil, or_false] at hmem hrest
  tauto

/-- A placeholder mentions its own id and no other. -/
theorem mentions_fields (d e : Deferred) :
    Placeholder.mentions (Placeholder.idField e.id)
      (d.fields.flatMap fun f => Placeholder.field f.1 f.2) = true ↔ d.id = e.id := by
  constructor
  · intro h
    obtain ⟨first, rest, hid, hfirst⟩ := e.exists_escapeValue_id
    obtain ⟨f, hf, hname, hvalue⟩ := Placeholder.exists_field_of_mentions hid hfirst
      (fun f hf => not_mem_name (by decide) hf) h
    rcases name_of_mem_fields hf with rfl | hother
    · exact hvalue
    · exact absurd hname (otherNames_plain f.1 hother).2.2.2
  · intro h
    obtain ⟨before, after, hfields, -⟩ := d.exists_fields
    apply Placeholder.mentions_of_field
    rw [hfields, h]
    exact List.mem_append_right _ List.mem_cons_self

/-- A placeholder is read as one with its own id. -/
theorem readWithId_placeholder (d e : Deferred) (rest : Text) :
    Placeholder.readWithId e.id (d.placeholder ++ rest) =
      if d.id = e.id then some ((), rest) else none := by
  rw [d.placeholder_eq, Placeholder.readWithId_division e.id (d.not_mem_fields (by decide))
    d.not_mem_caption]
  by_cases h : d.id = e.id
  · rw [if_pos h, if_pos ((d.mentions_fields e).2 h)]
  · rw [if_neg h, if_neg fun hmentions => h ((d.mentions_fields e).1 hmentions)]

/-- Inside a placeholder no other one starts. -/
theorem not_opening_of_suffix {d : Deferred} {z t : Text} (hz : z ≠ []) (hsuffix : '<' :: t = d.placeholder)
    (h : z <:+ t) (r : Text) : ¬ "<div".toList <+: z ++ r := by
  rintro ⟨after, hopening⟩
  obtain ⟨c, z, rfl⟩ := List.exists_cons_of_ne_nil hz
  obtain rfl : '<' = c := (List.cons.inj hopening).1
  have hopening : 'd' :: _ = z ++ r := (List.cons.inj hopening).2
  let inside := "div".toList ++ (d.fields.flatMap fun f => Placeholder.field f.1 f.2) ++ '>' :: d.caption
  have hinside : '<' ∉ inside := by
    have hfields := d.not_mem_fields (c := '<') (by decide)
    have hcaption := d.not_mem_caption
    simp only [inside, List.mem_append, List.mem_cons]
    rintro ((hmem | hmem) | hmem | hmem)
    · exact absurd hmem (by decide)
    · exact hfields hmem
    · exact absurd hmem (by decide)
    · exact hcaption hmem
  have hbody : t = inside ++ '<' :: "/div>".toList := by
    rw [d.placeholder_eq] at hsuffix
    have hdivision : Placeholder.division d.fields d.caption = '<' :: (inside ++ '<' :: "/div>".toList) := by
      simp [Placeholder.division, inside]
    rw [hdivision] at hsuffix
    exact (List.cons.inj hsuffix).2
  obtain ⟨before, hbefore⟩ := h
  rw [hbody] at hbefore
  by_cases hmem : '<' ∈ before
  · obtain ⟨q, -, hq⟩ := Text.append_cons_split hinside hmem hbefore.symm
    have hclosing : '<' ∉ "/div>".toList := by decide
    exact hclosing (hq ▸ List.mem_append_right q List.mem_cons_self)
  · obtain ⟨-, rfl⟩ := Text.append_cons_inj hmem hinside hbefore
    exact absurd (List.cons.inj hopening).1 (by decide)

theorem exists_placeholder (d : Deferred) : ∃ t, '<' :: t = d.placeholder := by
  rw [d.placeholder_eq]
  exact ⟨_, rfl⟩

end Deferred

namespace Placeholder

open Pattern

theorem pieces_withId_placeholder (d e : Deferred) (r : Text) :
    (withId e.id).pieces (d.placeholder ++ r) =
      (if d.id = e.id then [.hit d.placeholder ()] else d.placeholder.map Piece.plain) ++
        (withId e.id).pieces r := by
  have hread := d.readWithId_placeholder e r
  by_cases h : d.id = e.id
  · rw [if_pos h] at hread ⊢
    exact pieces_append (withId e.id) hread
  · rw [if_neg h] at hread ⊢
    obtain ⟨t, ht⟩ := d.exists_placeholder
    refine pieces_append_of_none (withId e.id) fun z hz hsuffix => ?_
    rw [← ht, List.suffix_cons_iff] at hsuffix
    rcases hsuffix with rfl | hsuffix
    · rw [ht]
      exact hread
    · exact readWithId_eq_none _ (Deferred.not_opening_of_suffix hz ht hsuffix r)

end Placeholder
end PageAssembly
