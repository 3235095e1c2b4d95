/-
  PageAssembly/CommandLine/Tags.lean
  ==================================
  **The `tags` command.**

  Lists what a file holds: its directives with all that their kind needs, its alias
  directives and its protected blocks, in the order of their offsets.
-/
import PageAssembly.Alias.Lookup
import PageAssembly.CommandLine.Render
import PageAssembly.Directive.Placeholder
import PageAssembly.Verbatim

namespace PageAssembly.CommandLine

/-- A line of the listing: where something stands, what it is, and what is said of it. -/
structure Row where
  start : Nat
  stop : Nat
  kind : Text
  note : Text
deriving DecidableEq, Repr

namespace Row

/-- An attribute as the listing shows it. -/
def attributeNote : Text × AttributeValue → Text
  | (name, .flag) => name
  | (name, .text v) => name ++ '=' :: Text.quoted v

def spaced (notes : List Text) : Text := [' '].intercalate notes

def ofTag (kind : Directive.Kind) (attributes : Attributes) (m : Located α) : Row :=
  ⟨m.start, m.stop, kind.word, spaced (attributes.entries.map attributeNote)⟩

def ofAlias (m : Located Aliases) : Row :=
  ⟨m.start, m.stop, "aliases".toList,
    spaced (m.value.entries.map fun e => attributeNote (e.1, .text e.2))⟩

def ofBlock (b : Verbatim.Block) : Row :=
  ⟨b.start, b.stop, "noparse".toList, Text.decimal b.inner.length ++ " chars".toList⟩

/-- Whether a row does not come after another. -/
def le (a b : Row) : Bool :=
  if a.start ≠ b.start then a.start < b.start
  else if a.stop ≠ b.stop then a.stop < b.stop
  else if a.kind ≠ b.kind then Text.le a.kind b.kind
  else Text.le a.note b.note

/-- A row put into ordered rows. -/
def insert (r : Row) : List Row → List Row
  | [] => [r]
  | q :: qs => if le r q then r :: q :: qs else q :: insert r qs

end Row

def rows (s : Text) : List Row :=
  let found :=
    (Directive.inclusions s).map (fun m => Row.ofTag .inclusion m.value.attributes m) ++
    (Directive.chunks s).map (fun m => Row.ofTag .chunk m.value.attributes m) ++
    (Directive.continuations s).map (fun m => Row.ofTag .continuation m.value.attributes m) ++
    (Directive.renders s).map (fun m => Row.ofTag .render m.value.attributes m) ++
    (Alias.find s).map Row.ofAlias ++ (Verbatim.blocks (Verbatim.token 0) s).map Row.ofBlock
  found.foldr Row.insert []

/-- The text of a file, with every line end written as a line feed. -/
def lineFeeds : Text → Text
  | [] => []
  | '\r' :: '\n' :: s => '\n' :: lineFeeds s
  | '\r' :: s => '\n' :: lineFeeds s
  | c :: s => c :: lineFeeds s

/-- What is printed about the rows besides the listing itself. -/
def tagsOutput (rows : List Row) : Text := if rows.isEmpty then "No tags found\n".toList else []

/-- The rows of the file at a path; none where there is no such file. -/
def tags (tree : FileTree) (file : Text) : Option (List Row) :=
  (tree.readPath? (.inside []) [file]).map fun bs => rows (lineFeeds (Text.Utf8.decode bs))

end PageAssembly.CommandLine
