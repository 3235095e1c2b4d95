/-
  PageAssembly/Waterfall/Placeholder.lean
  =======================================
  **Render placeholders in a document.**

  Any division without content, in any letter case, may be a render placeholder: it is
  one when its attributes say that it is of the render type and name a path.  The order
  of the attributes, their quotes and the case of their names do not matter, and of two
  attributes with one name the last counts.  The path is read as markup text.
-/
import PageAssembly.Directive.Typed
import PageAssembly.Markup.Escape

namespace PageAssembly.Waterfall

/-! ### Attributes of a division -/

/-- Whether the character may stand in the name of an attribute. -/
def isFieldChar (c : Char) : Bool := Text.isWord c || c == '-'

/-- Whether the character may stand in a value without quotes. -/
def isBareChar (c : Char) : Bool := !(Text.isBlank c || c == '"' || c == '\'' || c == '>')

/-- A value without quotes. -/
def readBare (s : Text) : Option (Text × Text) :=
  match s.takeWhile isBareChar with
  | [] => none
  | c :: v => some (c :: v, s.dropWhile isBareChar)

/-- The value of an attribute, behind an equals sign between blanks. -/
def readFieldValue (s : Text) : Option (Text × Text) :=
  match Text.trimStart s with
  | '=' :: r =>
    let r := Text.trimStart r
    Attribute.readQuoted '"' r <|> Attribute.readQuoted '\'' r <|> readBare r
  | _ => none

/-- An attribute with its value; the name in lower case. -/
def readField (s : Text) : Option ((Text × Text) × Text) :=
  match s.takeWhile isFieldChar with
  | [] => none
  | c :: name =>
    (readFieldValue (s.dropWhile isFieldChar)).map fun p =>
      (((c :: name).map Char.toLower, p.1), p.2)

theorem suffix_of_readBare {s v r : Text} (h : readBare s = some (v, r)) : r <:+ s := by
  simp only [readBare] at h
  split at h
  · cases h
  · cases h
    exact List.dropWhile_suffix _

theorem suffix_of_readFieldValue {s v r : Text} (h : readFieldValue s = some (v, r)) :
    r <:+ s := by
  simp only [readFieldValue] at h
  split at h
  · next t ht =>
    have hs : Text.trimStart t <:+ s :=
      ((List.dropWhile_suffix _).trans (List.suffix_cons '=' t)).trans
        (ht ▸ List.dropWhile_suffix _)
    simp only [Option.orElse_eq_orElse, Option.orElse_eq_or, Option.or_eq_some_iff] at h
    rcases h with h | ⟨_, h | ⟨_, h⟩⟩
    · exact (Attribute.suffix_of_readQuoted h).trans hs
    · exact (Attribute.suffix_of_readQuoted h).trans hs
    · exact (suffix_of_readBare h).trans hs
  · cases h

def field : Pattern (Text × Text) where
  read := readField
  nonempty := by
    intro s a r h
    simp only [readField] at h
    split at h
    · cases h
    · next c name hn =>
      simp only [Option.map_eq_some_iff, Prod.mk.injEq] at h
      obtain ⟨⟨v, t⟩, hv, _, rfl⟩ := h
      obtain ⟨w, hw⟩ := suffix_of_readFieldValue hv
      refine ⟨c :: (name ++ w), by simp, ?_⟩
      rw [← List.takeWhile_append_dropWhile (p := isFieldChar) (l := s), hn, ← hw]
      simp

def fields (s : Text) : OrderedMap Text Text := OrderedMap.ofList ((field.find s).map Located.value)

/-- The path that a division with these attributes is a placeholder for. -/
def pathOf? (s : Text) : Option Text :=
  let m := fields s
  if m.get? "data-type".toList = some "render".toList then
    match m.get? "data-path".toList with
    | some (c :: path) => some (Markup.unescape (c :: path))
    | _ => none
  else none

/-! ### Divisions without content -/

/-- A division without content: the path that it is a placeholder for, if it is one. -/
def readDivision (s : Text) : Option (Option Text × Text) := do
  let inside ← Text.expectCaseless "<div".toList s
  match inside with
  | [] => none
  | c :: _ =>
    if Text.isWord c then none
    else
      match inside.dropWhile (· != '>') with
      | [] => none
      | _ :: r =>
        let rest ← Text.expectCaseless "</div>".toList (Text.trimStart r)
        pure (pathOf? (inside.takeWhile (· != '>')), rest)

def division : Pattern (Option Text) where
  read := readDivision
  nonempty := by
    intro s a r h
    simp only [readDivision, Option.bind_eq_bind, Option.bind_eq_some_iff] at h
    obtain ⟨t, ht, h⟩ := h
    obtain ⟨w, hw, rfl⟩ := Text.expectBy_eq_some ht
    split at h
    · cases h
    · split at h
      · cases h
      · split at h
        · cases h
        · next d u hu =>
          simp only [Option.bind_eq_some_iff, Option.pure_def, Option.some.injEq,
            Prod.mk.injEq] at h
          obtain ⟨v, hv, _, rfl⟩ := h
          obtain ⟨x, _, hx⟩ := Text.expectBy_eq_some hv
          have h₁ : v <:+ u := List.IsSuffix.trans ⟨x, hx.symm⟩ (List.dropWhile_suffix _)
          obtain ⟨y, hy⟩ := (h₁.trans (List.suffix_cons d u)).trans (hu ▸ List.dropWhile_suffix _)
          refine ⟨w ++ y, ?_, by simp [hy]⟩
          intro hn
          rw [(List.append_eq_nil_iff.1 hn).1] at hw
          simp at hw

/-- The paths of a document's render placeholders, in order. -/
def paths (document : Text) : List Text := (division.find document).filterMap Located.value

/-- The document with every placeholder for a path replaced. -/
def fill (path content document : Text) : Text :=
  division.substitute (fun source p => if p = some path then content else source) document

/-- The paths of a text's render directives and then of its placeholders, each once. -/
def allPaths (s : Text) : List Text :=
  ((Directive.renders s).map (fun r => r.value.path) ++ paths s).eraseDups

end PageAssembly.Waterfall
