/-
  PageAssembly/Exchange/Reply.lean
  ================================
  **Replies to remote calls, and what is read from them.**

  A host replies with a data value, with octets or with counts.  Content is a text, or
  octets that write one; nothing is no content, and anything else is a mistake of the
  host.  Counts of a collection are read leniently: from an object, or from text that
  writes one, with whole numbers in any of their spellings; what cannot be read is no
  counts.
-/
import PageAssembly.Failure
import PageAssembly.Json.Reader
import PageAssembly.Number.Spelling
import PageAssembly.Text.Utf8

namespace PageAssembly

/-- How many chunks a collection has, how long they are, and which version it is. -/
structure ChunkCounts where
  count : Int := 0
  totalBytes : Int := 0
  version : Int := 0
deriving DecidableEq, Repr

/-- What a host replies. -/
inductive Reply where
  | data (v : Json)
  | bytes (bs : List UInt8)
  | counts (c : ChunkCounts)

namespace Reply

/-- The word that messages use for the kind of a reply. -/
def kind : Reply → Text
  | .data v => v.kind
  | .bytes _ => "bytes".toList
  | .counts _ => "ChunkMeta".toList

/-- The content of the reply; nothing where the call returned nothing. -/
def content? : Reply → Except Failure (Option Text)
  | .data .null => .ok none
  | .data (.text s) => .ok (some s)
  | .bytes bs => .ok (some (Text.Utf8.decode bs))
  | r => .error (.unexpectedReply r.kind)

end Reply

namespace ChunkCounts

/-- The whole number that a data value stands for: a whole number itself, a decimal
    number without fraction below 2^63, a truth value, or a text that spells one. -/
def integer? : Json → Option Int
  | .integer n => some n
  | .decimal x => x.toInt?.filter fun n => n.natAbs < Binary64.twoTo 63
  | .bool b => some (if b then 1 else 0)
  | .text s => Spelling.lenient? s
  | _ => none

/-- A field of the counts; a missing one is zero. -/
def field? (m : OrderedMap Text Json) (name : Text) : Option Int :=
  match m.get? name with
  | none => some 0
  | some v => integer? v

def ofMembers? (m : OrderedMap Text Json) : Option ChunkCounts := do
  let count ← field? m "count".toList
  let totalBytes ← field? m "total_bytes".toList
  let version ← field? m "version".toList
  pure ⟨count, totalBytes, version⟩

def ofText? (s : Text) : Option ChunkCounts :=
  ((Json.read? s).bind Json.members).bind ofMembers?

/-- The counts that a data value or octets hold. -/
def ofReply? : Reply → Option ChunkCounts
  | .data (.text s) => ofText? s
  | .data v => v.members.bind ofMembers?
  | .bytes bs => ofText? (Text.Utf8.decode bs)
  | .counts _ => none

end ChunkCounts
end PageAssembly
