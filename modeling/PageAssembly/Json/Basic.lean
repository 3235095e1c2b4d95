/-
  PageAssembly/Json/Basic.lean
  ============================
  **Data values.**

  Hosts answer with data and alias directives may hold an object.  Whole numbers and
  numbers written with a point or an exponent are kept apart, and an object keeps its
  members as they were written; `members` reads them as a map, in which the last
  member of a name counts.
-/
import PageAssembly.OrderedMap
import PageAssembly.Number.Binary64

namespace PageAssembly

inductive Json where
  | null
  | bool (b : Bool)
  | integer (n : Int)
  | decimal (x : Binary64)
  | text (s : Text)
  | list (items : List Json)
  | object (fields : List (Text × Json))
deriving Inhabited

namespace Json

/-- The members of an object by name. -/
def members : Json → Option (OrderedMap Text Json)
  | .object fields => some (OrderedMap.ofList fields)
  | _ => none

/-- The word that messages use for the kind of a value. -/
def kind : Json → Text
  | .null => "NoneType".toList
  | .bool _ => "bool".toList
  | .integer _ => "int".toList
  | .decimal _ => "float".toList
  | .text _ => "str".toList
  | .list _ => "list".toList
  | .object _ => "dict".toList

end Json
end PageAssembly
