/-
  PageAssembly/Site/Host.lean
  ===========================
  **A directory of files as a host.**

  Below the root every contract has a directory, with a file for each function, a
  directory of pages by path for each function, and numbered chunks by collection.  A
  call for a page is answered by the file for its path if there is one, and else by
  the function's own file.  Contract names are limited to word characters, at signs,
  points and hyphens.
-/
import PageAssembly.Exchange.Host
import PageAssembly.Number.Spelling
import PageAssembly.Site.FileTree
import PageAssembly.Site.PagePath

namespace PageAssembly

/-- A tree of files, and the place of the root of its contracts. -/
structure Site where
  tree : FileTree
  root : Place

namespace Site

/-- Whether a text may name a contract. -/
def isContractName (s : Text) : Bool :=
  !s.isEmpty && s.all fun c => Text.isWord c || c == '@' || c == '.' || c == '-'

/-- The path of a contract's directory, if it has one. -/
def contractPath (site : Site) (target : Text) (function : Text) : Except Failure (List Text) :=
  if isContractName target && (site.tree.folderPath? site.root [target]).isSome then .ok [target]
  else .error (.remote ⟨target, some function, "Contract not found: ".toList ++ target⟩)

/-- The text of an argument that names a collection. -/
def collectionOf : Argument → Text
  | .string s => s
  | .symbol s => s
  | .address s => s
  | .u64 n => Text.decimalInt n
  | .u32 n => Text.decimalInt n
  | .bool b => if b then "True".toList else "False".toList
  | .void => "None".toList

/-- The number that a text given as an argument writes. -/
def numberOf (s : Text) : Except Failure Int :=
  match Spelling.numeral? s with
  | some n => .ok n
  | none => .error (.notNumber s)

/-- The number of an argument that names a chunk. -/
def indexOf : Argument → Except Failure Int
  | .u64 n => .ok n
  | .u32 n => .ok n
  | .string s => numberOf s
  | .symbol s => numberOf s
  | .address s => numberOf s
  | .bool b => .ok (if b then 1 else 0)
  | .void => .error .noNumber

def argument (args : Arguments) (i : Nat) : Except Failure Argument :=
  match args with
  | .positional as =>
    match as[i]? with
    | some a => .ok a
    | none => .error .missingArgument
  | .named _ => .error (.noPosition i)

/-- A file of octets, as a reply; none is nothing. -/
def fileReply (bs : Option (List UInt8)) : Reply := bs.elim (.data .null) .bytes

/-- The chunk file that arguments name, as a reply. -/
def chunkReply (site : Site) (contract : List Text) (args : Arguments) : Except Failure Reply := do
  let collection ← argument args 0
  let index ← indexOf (← argument args 1)
  pure (fileReply (site.tree.readPath? site.root
    (contract ++ ["chunks".toList, collectionOf collection, Text.decimalInt index ++ ".md".toList])))

/-- Whether a name is that of a numbered chunk. -/
def isChunkName (name : Text) : Bool :=
  Text.endsWith ".md".toList name &&
    (let stem := name.take (name.length - 3)
     !stem.isEmpty && stem.all Text.isAnyDigit)

/-- What the files of a collection add up to. -/
def countsOf (files : List (Text × Nat)) : ChunkCounts :=
  let numbered := files.filter fun f => isChunkName f.1
  ⟨Int.ofNat numbered.length, Int.ofNat ((numbered.map Prod.snd).foldl Nat.add 0), 1⟩

def countsData (c : ChunkCounts) : Json :=
  .object [("count".toList, .integer c.count), ("total_bytes".toList, .integer c.totalBytes),
    ("version".toList, .integer c.version)]

/-- The counts of a collection; none where it has no directory. -/
def countsReply (site : Site) (contract : List Text) (args : Arguments) : Except Failure Reply := do
  let collection ← argument args 0
  match site.tree.folderPath? site.root (contract ++ ["chunks".toList, collectionOf collection]) with
  | some p => pure (.data (countsData (countsOf (site.tree.listing p))))
  | none => pure (.data .null)

/-- The paths of the files that may answer a call for a page, the first one first. -/
def candidates (contract : List Text) (function : Text) (args : Arguments) : List (List Text) :=
  let whole := [contract ++ [function ++ ".md".toList]]
  match args.path? with
  | none => whole
  | some path =>
    if path.isEmpty then whole
    else ((PagePath.ofPath? path).toList.map fun names => contract ++ function :: names) ++ whole

/-- The page that answers a call. -/
def page (site : Site) (contract : List Text) (call : Call) (function : Text) : Except Failure Reply :=
  match (candidates contract function call.arguments).findSome? (site.tree.readPath? site.root) with
  | some bs => .ok (.bytes bs)
  | none =>
    .error (.remote ⟨call.target, some function,
      "Simulation failed: ".toList ++ call.target ++ " has no function ".toList ++ function⟩)

def functionOf (call : Call) : Text :=
  match call.function with
  | some (c :: f) => c :: f
  | _ => "render".toList

def answer (site : Site) (call : Call) : Except Failure Reply := do
  let function := functionOf call
  let contract ← site.contractPath call.target function
  if function = "get_chunk".toList then site.chunkReply contract call.arguments
  else if function = "get_chunk_meta".toList then site.countsReply contract call.arguments
  else site.page contract call function

/-- The site as a host; it keeps no state, and counts are told by a call. -/
def host (site : Site) : Host Unit := ⟨fun call w => (site.answer call, w), none⟩

end Site
end PageAssembly
