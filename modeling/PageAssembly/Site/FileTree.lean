/-
  PageAssembly/Site/FileTree.lean
  ===============================
  **Trees of files.**

  A tree lists its files with their octets, and folders that may be empty.  A place in
  it is reached component by component: `..` leads to the parent, and every step needs
  a folder to stand in.  Above the tree there are only folders, of which nothing else
  is known.

  A path is joined from parts as file systems join them: empty components and single
  dots vanish, and a part that starts with a slash makes the path start anew, outside.
-/
import PageAssembly.OrderedMap
import PageAssembly.Text.Basic

namespace PageAssembly

/-- Files with their octets, and folders, by the names that lead to them. -/
structure FileTree where
  files : List (List Text × List UInt8)
  folders : List (List Text)

/-- A place in a tree, or somewhere above it. -/
inductive Place where
  | inside (names : List Text)
  | above
deriving DecidableEq, Repr

namespace FileTree

def read? (t : FileTree) : Place → Option (List UInt8)
  | .inside names => t.files.lookup names
  | .above => none

/-- Whether a path lies below another. -/
def isBelow (names path : List Text) : Bool := names.isPrefixOf path && names ≠ path

def isFolder (t : FileTree) : Place → Bool
  | .inside [] => true
  | .inside names =>
    t.folders.any (fun f => names.isPrefixOf f) || t.files.any (fun f => isBelow names f.1)
  | .above => true

/-- One step from a place. -/
def step (t : FileTree) (p : Place) (name : Text) : Option Place :=
  if t.isFolder p then
    match p with
    | .above => if name = ['.', '.'] then some .above else none
    | .inside names =>
      if name = ['.', '.'] then
        if names.isEmpty then some .above else some (.inside names.dropLast)
      else some (.inside (names ++ [name]))
  else none

/-- The place that components lead to. -/
def walk (t : FileTree) : Place → List Text → Option Place
  | p, [] => some p
  | p, name :: names => (t.step p name).bind fun q => t.walk q names

/-- The components of a part of a path. -/
def components (part : Text) : List Text :=
  (Text.parts '/' part).filter fun c => c ≠ [] && c ≠ ['.']

/-- Whether a part starts a path anew. -/
def isAbsolute (part : Text) : Bool := part.head? = some '/'

/-- Where a path joined from parts starts, and the components that follow. -/
def join (base : Place) (parts : List Text) : Place × List Text :=
  parts.foldl (fun p part =>
    if isAbsolute part then (.above, components part) else (p.1, p.2 ++ components part)) (base, [])

/-- The place that a path joined from parts leads to. -/
def find (t : FileTree) (base : Place) (parts : List Text) : Option Place :=
  t.walk (join base parts).1 (join base parts).2

/-- The octets of the file at the end of a path. -/
def readPath? (t : FileTree) (base : Place) (parts : List Text) : Option (List UInt8) :=
  (t.find base parts).bind t.read?

/-- The folder at the end of a path. -/
def folderPath? (t : FileTree) (base : Place) (parts : List Text) : Option Place :=
  (t.find base parts).filter t.isFolder

/-- The size of a folder: one block. -/
def folderSize : Nat := 4096

/-- The name directly below a folder that a path leads through, with the size of what it
    names: `size` where the path ends there. -/
def below? (names path : List Text) (size : Nat) : Option (Text × Nat) :=
  if names.isPrefixOf path then
    match path.drop names.length with
    | [] => none
    | [name] => some (name, size)
    | name :: _ :: _ => some (name, folderSize)
  else none

/-- The names directly in a folder, each once and with its size. -/
def listing (t : FileTree) : Place → List (Text × Nat)
  | .above => []
  | .inside names =>
    (OrderedMap.ofList ((t.files.filterMap fun f => below? names f.1 f.2.length) ++
      t.folders.filterMap fun f => below? names f folderSize)).entries

end FileTree
end PageAssembly
