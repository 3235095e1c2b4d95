/-
  PageAssembly/Directive/Basic.lean
  =================================
  **Directives.**

  A directive stands in double braces: the word of its kind, a blank, and a body that
  is not empty and holds no closing brace.  The body is read as attributes.  Whether
  the attributes are those that the kind needs is not looked at here.
-/
import PageAssembly.Directive.Attribute

namespace PageAssembly

/-- What a directive asks for. -/
inductive Directive.Kind where
  | inclusion
  | chunk
  | continuation
  | render
deriving DecidableEq, Repr

/-- A directive: its kind and its attributes. -/
structure Directive where
  kind : Directive.Kind
  attributes : Attributes

namespace Directive

def Kind.all : List Kind := [.inclusion, .chunk, .continuation, .render]

/-- The word that a directive of this kind starts with. -/
def Kind.word : Kind → Text
  | .inclusion => "include".toList
  | .chunk => "chunk".toList
  | .continuation => "continue".toList
  | .render => "render".toList

/-- Double braces in front of and behind a directive. -/
def opening : Text := ['{', '{']
@[inherit_doc opening]
def closing : Text := ['}', '}']

/-! ### Reading -/

/-- The kind whose word stands at the front, and the rest. -/
def readKind (s : Text) : Option (Kind × Text) :=
  Kind.all.findSome? fun k => (Text.expect k.word s).map fun r => (k, r)

/-- A body behind a blank, and the text behind its closing braces. -/
def readBody (s : Text) : Option (Text × Text) :=
  match s.takeWhile (· != '}') with
  | c :: d :: body =>
    if Text.isBlank c then
      (Text.expect closing (s.dropWhile (· != '}'))).map fun r => (d :: body, r)
    else none
  | _ => none

/-- A directive, and the text behind it. -/
def readDirective (s : Text) : Option (Directive × Text) := do
  let r ← Text.expect opening s
  let (kind, r) ← readKind r
  let (body, r) ← readBody r
  pure (⟨kind, Attributes.ofText body⟩, r)

theorem suffix_of_readKind {s r : Text} {k : Kind} (h : readKind s = some (k, r)) :
    s = k.word ++ r := by
  obtain ⟨j, _, hj⟩ := List.exists_of_findSome?_eq_some h
  simp only [Option.map_eq_some_iff, Prod.mk.injEq] at hj
  obtain ⟨t, ht, rfl, rfl⟩ := hj
  exact Text.expect_eq_some_iff.1 ht

theorem suffix_of_readBody {s b r : Text} (h : readBody s = some (b, r)) : r <:+ s := by
  simp only [readBody] at h
  split at h
  · split at h
    · simp only [Option.map_eq_some_iff, Prod.mk.injEq] at h
      obtain ⟨t, ht, _, rfl⟩ := h
      have hr : t <:+ s.dropWhile (· != '}') := ⟨closing, (Text.expect_eq_some_iff.1 ht).symm⟩
      exact hr.trans (List.dropWhile_suffix _)
    · cases h
  · cases h

def pattern : Pattern Directive where
  read := readDirective
  nonempty := by
    intro s d r h
    simp only [readDirective, Option.bind_eq_bind, Option.bind_eq_some_iff, Option.pure_def,
      Option.some.injEq, Prod.mk.injEq] at h
    obtain ⟨t, ht, ⟨k, u⟩, hu, ⟨b, v⟩, hv, _, rfl⟩ := h
    obtain ⟨w, rfl⟩ := suffix_of_readBody hv
    rw [Text.expect_eq_some_iff.1 ht, suffix_of_readKind hu]
    exact ⟨opening ++ (k.word ++ w), by simp [opening], by simp⟩

def find (s : Text) : List (Located Directive) := pattern.find s

/-- The directives of a text that are of one of the given kinds, in order. -/
def findKinds (kinds : List Kind) (s : Text) : List (Located Directive) :=
  (find s).filter fun d => d.value.kind ∈ kinds

end Directive
end PageAssembly
