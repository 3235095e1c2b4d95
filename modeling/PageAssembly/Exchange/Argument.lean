/-
  PageAssembly/Exchange/Argument.lean
  ===================================
  **Arguments of remote calls.**

  There are two conventions.  A plain include passes the path and the viewer by
  position.  An include with parameters passes them by name, and the name of each
  decides its type: the viewer flag becomes the viewer's address, names that end in
  `_id` and a few counting names become numbers when their value is a numeral, and all
  else is a text in which alias references are replaced.
-/
import PageAssembly.Alias.Lookup
import PageAssembly.Directive.Typed

namespace PageAssembly

/-- A typed argument of a remote call. -/
inductive Argument where
  | string (s : Text)
  | symbol (s : Text)
  | address (s : Text)
  | u64 (n : Int)
  | u32 (n : Int)
  | bool (b : Bool)
  | void
deriving DecidableEq, Repr

/-- The arguments of a call, by position or by name. -/
inductive Arguments where
  | positional (args : List Argument)
  | named (args : OrderedMap Text Argument)
deriving DecidableEq

namespace Argument

/-- A text where there is one. -/
def ofText? (s : Option Text) : Argument := s.elim .void .string

/-- An address where there is one; the empty text is none. -/
def ofAddress? : Option Text → Argument
  | some (c :: s) => .address (c :: s)
  | _ => .void

/-- Parameters that count something. -/
def counting : List Text :=
  ["count".toList, "depth".toList, "index".toList, "limit".toList, "offset".toList]

/-- The argument that a parameter with a value gives. -/
def ofValue (name value : Text) (aliases : Aliases) : Argument :=
  match Text.natural? value with
  | some n =>
    if Text.endsWith "_id".toList name then .u64 (Int.ofNat n)
    else if counting.contains name then .u32 (Int.ofNat n)
    else .string (Aliases.substitute aliases value)
  | none => .string (Aliases.substitute aliases value)

def ofParameter (name : Text) (value : AttributeValue) (viewer : Option Text)
    (aliases : Aliases) : Argument :=
  match value with
  | .flag => if name = "viewer".toList then ofAddress? viewer else .bool true
  | .text v => ofValue name v aliases

end Argument

namespace Arguments

/-- The path and the viewer, by position. -/
def plain (path viewer : Option Text) : Arguments :=
  .positional [.ofText? path, .ofAddress? viewer]

def ofParameters (params : Attributes) (viewer : Option Text) (aliases : Aliases) : Arguments :=
  .named (params.mapEntries fun name value => .ofParameter name value viewer aliases)

/-- The path among the arguments: the first one, or the one of that name, if it is a text. -/
def path? (args : Arguments) : Option Text :=
  let arg := match args with
    | .positional as => as.head?
    | .named m => m.get? "path".toList
  match arg with
  | some (.string s) => some s
  | _ => none

end Arguments

/-! ### The call of an include -/

/-- The name of the function that renders `func`. -/
def renderFunction (func : Option Text) : Text :=
  match func with
  | none => "render".toList
  | some [] => "render".toList
  | some f =>
    if f = "render".toList ∨ "render_".toList.isPrefixOf f then f else "render_".toList ++ f

namespace Inclusion

/-- Whether the include passes its parameters by name. -/
def isParameterized (i : Inclusion) : Bool :=
  !i.params.isEmpty || (i.func.elim false (Text.endsWith "_include".toList))

def arguments (i : Inclusion) (viewer : Option Text) (aliases : Aliases) : Arguments :=
  if i.isParameterized then .ofParameters i.params viewer aliases else .plain i.path viewer

end Inclusion
end PageAssembly
