/-
  PageAssembly/Inclusion/Key.lean
  ===============================
  **Resolution keys.**

  The key of an include joins the contract it is resolved to, the function, the path
  and the parameters in the order of their names.  Includes with one key are fetched
  once, share a cache entry, and close a cycle when they are nested.
-/
import PageAssembly.Directive.Typed

namespace PageAssembly.Inclusion

/-- A parameter put into a list that is ordered by name. -/
def insertByName (e : Text × AttributeValue) :
    List (Text × AttributeValue) → List (Text × AttributeValue)
  | [] => [e]
  | f :: fs => if Text.le e.1 f.1 then e :: f :: fs else f :: insertByName e fs

/-- The parameters in the order of their names. -/
def byName (params : Attributes) : List (Text × AttributeValue) :=
  params.entries.foldr insertByName []

/-- A parameter as the key shows it: a flag as its name, a value behind an equals sign. -/
def keyPart : Text × AttributeValue → Text
  | (name, .flag) => name
  | (name, .text v) => name ++ '=' :: v

/-- The key of a call to a contract. -/
def keyOf (contract : Text) (func path : Option Text) (params : Attributes) : Text :=
  contract ++ ':' :: (func.getD [] ++ '|' :: (path.getD [] ++ '|' ::
    [','].intercalate ((byName params).map keyPart)))

/-- The key of the include under the contract that it is resolved to. -/
def key (i : Inclusion) (target : Text) : Text := keyOf target i.func i.path i.params

end PageAssembly.Inclusion
