/-
  PageAssembly/Alias/Directive.lean
  =================================
  **Alias directives: short names for contract ids, given in a page.**

  The body of an alias directive is an object whose members are texts, or names with
  values as in any directive.  A body in braces that holds no further brace reaches to
  its closing brace; any other body reaches to the first closing brace.  Only
  directives that define at least one name count, and only they are taken out of the
  page; later definitions of a name override earlier ones.
-/
import PageAssembly.Directive.Basic
import PageAssembly.Json.Reader
import PageAssembly.Text.Splice

namespace PageAssembly

/-- Contract ids by short name. -/
abbrev Aliases := OrderedMap Text Text

namespace Alias

/-! ### Bodies -/

/-- The names whose member is a text. -/
def ofMembers (m : OrderedMap Text Json) : List (Text × Text) :=
  m.entries.filterMap fun e =>
    match e.2 with
    | .text v => some (e.1, v)
    | _ => none

/-- The definitions of a body without blanks at its ends. -/
def definitions (body : Text) : Aliases :=
  match body with
  | '{' :: _ => OrderedMap.ofList (((Json.read? body).bind Json.members).elim [] ofMembers)
  | _ => OrderedMap.ofList ((Attribute.assignments.find body).map Located.value)

/-! ### Reading -/

/-- A body in braces, and the text behind the directive. -/
def readBraced : Text → Option (Text × Text)
  | '{' :: s =>
    match s.dropWhile (fun c => c != '{' && c != '}') with
    | '}' :: r =>
      (Text.expect Directive.closing (Text.trimStart r)).map fun rest =>
        ('{' :: (s.takeWhile (fun c => c != '{' && c != '}') ++ ['}']), rest)
    | _ => none
  | _ => none

/-- A body up to the first closing brace, and the text behind the directive. -/
def readOpen (s : Text) : Option (Text × Text) :=
  (Text.expect Directive.closing (s.dropWhile (· != '}'))).map fun r =>
    (Text.trimEnd (s.takeWhile (· != '}')), r)

/-- A body behind a blank. -/
def readBody : Text → Option (Text × Text)
  | [] => none
  | c :: s =>
    if Text.isBlank c then readBraced (Text.trimStart s) <|> readOpen (Text.trimStart s) else none

/-- An alias directive with its definitions, and the text behind it. -/
def readDirective (s : Text) : Option (Aliases × Text) := do
  let r ← Text.expect Directive.opening s
  let r ← Text.expectCaseless "aliases".toList r
  let (body, r) ← readBody r
  pure (definitions body, r)

theorem suffix_of_readBraced {s b r : Text} (h : readBraced s = some (b, r)) : r <:+ s := by
  unfold readBraced at h
  split at h
  · next t =>
    split at h
    · next u hu =>
      simp only [Option.map_eq_some_iff, Prod.mk.injEq] at h
      obtain ⟨v, hv, _, rfl⟩ := h
      have h₁ : v <:+ u :=
        List.IsSuffix.trans ⟨_, (Text.expect_eq_some_iff.1 hv).symm⟩ (List.dropWhile_suffix _)
      have h₂ : '}' :: u <:+ t := hu ▸ List.dropWhile_suffix _
      exact ((h₁.trans (List.suffix_cons _ _)).trans h₂).trans (List.suffix_cons _ _)
    · cases h
  · cases h

theorem suffix_of_readOpen {s b r : Text} (h : readOpen s = some (b, r)) : r <:+ s := by
  simp only [readOpen, Option.map_eq_some_iff, Prod.mk.injEq] at h
  obtain ⟨v, hv, _, rfl⟩ := h
  exact List.IsSuffix.trans ⟨_, (Text.expect_eq_some_iff.1 hv).symm⟩ (List.dropWhile_suffix _)

theorem suffix_of_readBody {s b r : Text} (h : readBody s = some (b, r)) : r <:+ s := by
  cases s with
  | nil => cases h
  | cons c s =>
    simp only [readBody] at h
    split at h
    · simp only [Option.orElse_eq_orElse, Option.orElse_eq_or, Option.or_eq_some_iff] at h
      have hs : Text.trimStart s <:+ c :: s :=
        (List.dropWhile_suffix _).trans (List.suffix_cons c s)
      rcases h with h | ⟨_, h⟩
      · exact (suffix_of_readBraced h).trans hs
      · exact (suffix_of_readOpen h).trans hs
    · cases h

def pattern : Pattern Aliases where
  read := readDirective
  nonempty := by
    intro s a r h
    simp only [readDirective, Option.bind_eq_bind, Option.bind_eq_some_iff, Option.pure_def,
      Option.some.injEq, Prod.mk.injEq] at h
    obtain ⟨t, ht, u, hu, ⟨b, v⟩, hv, _, rfl⟩ := h
    rw [Text.expect_eq_some_iff.1 ht]
    obtain ⟨w, _, rfl⟩ := Text.expectBy_eq_some hu
    exact nonempty_of_suffix
      (((suffix_of_readBody hv).trans ⟨w, rfl⟩).trans (List.suffix_cons _ _))

/-! ### Alias directives of a page -/

/-- The alias directives that define a name, in order. -/
def find (s : Text) : List (Located Aliases) :=
  (pattern.find s).filter fun m => !m.value.isEmpty

def occursIn (s : Text) : Bool := !(find s).isEmpty

def strip (s : Text) : Text := s.splice ((find s).map fun m => ⟨m.start, m.stop, []⟩)

def defined (s : Text) : Aliases :=
  (find s).foldl (fun t m => t.insertAll m.value.entries) OrderedMap.empty

end Alias
end PageAssembly
