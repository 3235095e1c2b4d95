/-
  PageAssembly/Alias/Lookup.lean
  ==============================
  **Looking short names up.**

  A reference is a name, or a name behind an at sign.  An unknown reference stands for
  itself, so that it fails later as the contract it seems to name.  Inside a value
  every at sign with a known name behind it is replaced, once and from left to right.
  A document's own definitions are layered over those it was reached with.
-/
import PageAssembly.Alias.Directive
import PageAssembly.Text.Quoted

namespace PageAssembly

namespace Alias

/-- A name behind an at sign, and the text behind it. -/
def readReference : Text → Option (Text × Text)
  | '@' :: s => Attribute.readName s
  | _ => none

def reference : Pattern Text where
  read := readReference
  nonempty := by
    intro s n r h
    unfold readReference at h
    split at h
    · obtain ⟨_, rfl⟩ := Attribute.nonempty_of_readName h
      exact nonempty_of_suffix ⟨n, rfl⟩
    · cases h

end Alias

namespace Aliases

/-- The table with further definitions layered over it. -/
def extend (t : Aliases) (more : Aliases) : Aliases := t.insertAll more.entries

/-- Whether the name, without at signs in front, is in the table. -/
def knows (t : Aliases) (name : Text) : Bool := t.contains (name.dropWhile (· == '@'))

def resolve (t : Aliases) (reference : Text) : Text :=
  match reference with
  | '@' :: name => (t.get? name).getD reference
  | name => (t.get? name).getD name

/-- The value with every known reference in it replaced. -/
def substitute (t : Aliases) (value : Text) : Text :=
  Alias.reference.substitute (fun source name => (t.get? name).getD source) value

/-- The contract that an include names: the word `SELF` stands for the contract being
    rendered, everything else is a reference. -/
def target (t : Aliases) (reference current : Text) : Text :=
  if reference = "SELF".toList then current else resolve t reference

def shown (t : Aliases) : Text :=
  "AliasTable(\x7b".toList ++
    [',', ' '].intercalate (t.entries.map fun e => Text.quoted e.1 ++ ": ".toList ++ Text.quoted e.2) ++
    "\x7d)".toList

end Aliases
end PageAssembly
