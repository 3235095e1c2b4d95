/-
  PageAssembly/Exchange/Host.lean
  ===============================
  **Hosts, and the exchange with them.**

  A page is assembled on behalf of a host, which alone can make remote calls.  A host
  is described by how it answers a call in a state of its own (the world) and how that
  state changes; it may also tell the counts of a collection without a call.  Every
  call that is made is kept, in order.
-/
import PageAssembly.Exchange.Argument
import PageAssembly.Exchange.Reply

namespace PageAssembly

structure Call where
  target : Text
  function : Option Text
  arguments : Arguments
deriving DecidableEq

/-- How a host answers; `counts` tells the counts of a contract's collection, for hosts
    that need no call for it. -/
structure Host (ω : Type) where
  answer : Call → ω → Except Failure Reply × ω
  counts : Option (Text → Text → ω → Except Failure Reply × ω)

/-- The state of the host, and the calls made so far. -/
structure Exchange (ω : Type) where
  world : ω
  calls : List Call

namespace Host

variable {ω : Type}

def ask (h : Host ω) (c : Call) : StateM (Exchange ω) (Except Failure Reply) := fun x =>
  let (reply, world) := h.answer c x.world
  (reply, ⟨world, x.calls ++ [c]⟩)

/-- The content that a call returned; nothing is a failure. -/
def content (c : Call) (reply : Except Failure Reply) : Except Failure Text := do
  match ← (← reply).content? with
  | some s => pure s
  | none => throw (.noResult c.target c.function)

def chunkCall (contract collection : Text) (index : Int) : Call :=
  ⟨contract, some "get_chunk".toList, .positional [.symbol collection, .u32 index]⟩

def countsCall (contract collection : Text) : Call :=
  ⟨contract, some "get_chunk_meta".toList, .positional [.symbol collection]⟩

/-- The counts of a collection, if they are known. -/
def chunkCounts (h : Host ω) (contract collection : Text) :
    StateM (Exchange ω) (Except Failure (Option ChunkCounts)) :=
  match h.counts with
  | none => return (← h.ask (countsCall contract collection)).map ChunkCounts.ofReply?
  | some tell => fun x =>
    let (reply, world) := tell contract collection x.world
    let found := reply.map fun
      | .counts c => some c
      | r => ChunkCounts.ofReply? r
    (found, { x with world })

end Host
end PageAssembly
