/-
  PageAssembly/Directive/Attribute.lean
  =====================================
  **Attributes of directives.**

  An attribute is a name of word characters, alone (a flag) or with a value behind an
  equals sign.  A value stands in double quotes, in single quotes, or bare up to the
  next blank; a quote that is never closed belongs to a bare value.  Whatever is no
  attribute is passed over.  A name that comes twice keeps its first place and takes
  its last value.
-/
import PageAssembly.OrderedMap
import PageAssembly.Text.Pattern
import PageAssembly.Text.Digit
import PageAssembly.Text.Word

namespace PageAssembly

/-- The value of an attribute: none, for a flag, or a text. -/
inductive AttributeValue where
  | flag
  | text (value : Text)
deriving DecidableEq, Repr

/-- Attributes by name, in the order in which the names first came. -/
abbrev Attributes := OrderedMap Text AttributeValue

namespace Attribute

/-! ### Reading a value -/

/-- A value between two of the given quotes. -/
def readQuoted (mark : Char) : Text → Option (Text × Text)
  | [] => none
  | c :: s =>
    if c = mark then
      match s.dropWhile (· != mark) with
      | [] => none
      | _ :: r => some (s.takeWhile (· != mark), r)
    else none

/-- A value up to the next blank. -/
def readBare (s : Text) : Option (Text × Text) :=
  match s.takeWhile (!Text.isBlank ·) with
  | [] => none
  | c :: v => some (c :: v, s.dropWhile (!Text.isBlank ·))

/-- A value in any of its three forms. -/
def readValue (s : Text) : Option (Text × Text) :=
  readQuoted '"' s <|> readQuoted '\'' s <|> readBare s

/-- A value behind an equals sign. -/
def readAssigned : Text → Option (Text × Text)
  | '=' :: s => readValue s
  | _ => none

/-- A run of word characters. -/
def readName (s : Text) : Option (Text × Text) :=
  match s.takeWhile Text.isWord with
  | [] => none
  | c :: v => some (c :: v, s.dropWhile Text.isWord)

/-- An attribute: a name, with a value or alone. -/
def readAttribute (s : Text) : Option ((Text × AttributeValue) × Text) :=
  (readName s).map fun n =>
    match readAssigned n.2 with
    | some (v, r) => ((n.1, .text v), r)
    | none => ((n.1, .flag), n.2)

/-- A name with a value; a name alone does not count. -/
def readAssignment (s : Text) : Option ((Text × Text) × Text) := do
  let (name, r) ← readName s
  let (v, r) ← readAssigned r
  pure ((name, v), r)

/-! ### Quoted values -/

theorem readQuoted_append {mark : Char} {v : Text} (h : mark ∉ v) (r : Text) :
    readQuoted mark (mark :: (v ++ mark :: r)) = some (v, r) := by
  have hall : ∀ c ∈ v, (c != mark) = true := fun c hc => bne_iff_ne.2 fun heq => h (heq ▸ hc)
  rw [readQuoted, if_pos rfl, List.dropWhile_append_of_pos hall, List.takeWhile_append_of_pos hall,
    List.dropWhile_cons_of_neg (by simp), List.takeWhile_cons_of_neg (by simp), List.append_nil]

theorem readQuoted_of_ne {mark c : Char} (h : c ≠ mark) (s : Text) : readQuoted mark (c :: s) = none := by
  rw [readQuoted, if_neg h]

/-! ### Reading takes something off the front -/

theorem suffix_of_readQuoted {mark : Char} {s v r : Text} (h : readQuoted mark s = some (v, r)) :
    r <:+ s := by
  cases s with
  | nil => cases h
  | cons c s =>
    simp only [readQuoted] at h
    split at h
    · split at h
      · cases h
      · next d t hd =>
        cases h
        have ht : d :: r <:+ s := hd ▸ List.dropWhile_suffix _
        exact ((List.suffix_cons d r).trans ht).trans (List.suffix_cons c s)
    · cases h

theorem suffix_of_readBare {s v r : Text} (h : readBare s = some (v, r)) : r <:+ s := by
  simp only [readBare] at h
  split at h
  · cases h
  · cases h
    exact List.dropWhile_suffix _

theorem suffix_of_readValue {s v r : Text} (h : readValue s = some (v, r)) : r <:+ s := by
  simp only [readValue, Option.orElse_eq_orElse, Option.orElse_eq_or, Option.or_eq_some_iff] at h
  rcases h with h | ⟨_, h | ⟨_, h⟩⟩
  · exact suffix_of_readQuoted h
  · exact suffix_of_readQuoted h
  · exact suffix_of_readBare h

theorem suffix_of_readAssigned {s v r : Text} (h : readAssigned s = some (v, r)) : r <:+ s := by
  unfold readAssigned at h
  split at h
  · exact (suffix_of_readValue h).trans (List.suffix_cons _ _)
  · cases h

theorem nonempty_of_readName {s v r : Text} (h : readName s = some (v, r)) :
    v ≠ [] ∧ s = v ++ r := by
  simp only [readName] at h
  split at h
  · cases h
  · next c w hw =>
    cases h
    exact ⟨by simp, by rw [← hw, List.takeWhile_append_dropWhile]⟩

def pattern : Pattern (Text × AttributeValue) where
  read := readAttribute
  nonempty := by
    intro s a r h
    simp only [readAttribute, Option.map_eq_some_iff] at h
    obtain ⟨⟨n, t⟩, hn, h⟩ := h
    obtain ⟨hv, rfl⟩ := nonempty_of_readName hn
    have ht : r <:+ t := by
      simp only at h
      split at h
      · next hr =>
        cases h
        exact suffix_of_readAssigned hr
      · cases h
        exact List.suffix_refl _
    obtain ⟨u, rfl⟩ := ht
    exact ⟨n ++ u, by simp [hv], by simp⟩

/-- Names with values among other text. -/
def assignments : Pattern (Text × Text) where
  read := readAssignment
  nonempty := by
    intro s a r h
    simp only [readAssignment, Option.bind_eq_bind, Option.bind_eq_some_iff, Option.pure_def,
      Option.some.injEq, Prod.mk.injEq] at h
    obtain ⟨⟨n, t⟩, hn, ⟨v, u⟩, hu, rfl, rfl⟩ := h
    obtain ⟨hv, rfl⟩ := nonempty_of_readName hn
    obtain ⟨w, rfl⟩ := suffix_of_readAssigned hu
    exact ⟨n ++ w, by simp [hv], by simp⟩

end Attribute

def Attributes.ofText (s : Text) : Attributes :=
  OrderedMap.ofList ((Attribute.pattern.find s).map Located.value)

/-- The text of an attribute; none where it is missing or a flag. -/
def Attributes.text? (m : Attributes) (name : Text) : Option Text :=
  match m.get? name with
  | some (.text v) => some v
  | _ => none

/-- The number that an attribute writes. -/
def Attributes.number? (m : Attributes) (name : Text) : Option Nat :=
  (m.text? name).bind Text.natural?

end PageAssembly
