/-
  PageAssembly/Chunk/Loader.lean
  ==============================
  **Loading chunks: requests, flights and resets.**

  A request for a chunk is answered from memory, joins the flight that is already under
  way for it, or starts a flight of its own.  A flight lands with the reply to its call;
  what it brought goes into memory unless the loader was reset since the flight
  started.  A reset forgets the chunks and the flights that requests may join, but
  flights under way still land for those who wait for them.

  Flights may land in any order.  The loader makes no calls itself: starting and
  landing are separate operations, and the reply is an argument of landing.
-/
import PageAssembly.Chunk.Memory
import PageAssembly.Exchange.Reply

namespace PageAssembly

/-- A call for a chunk that is under way, and the generation it started in. -/
structure Flight where
  number : Nat
  key : ChunkKey
  generation : Nat
deriving DecidableEq, Repr

/-- What a loader knows. -/
structure Loader where
  memory : Memory
  /-- The flight that a request for a chunk joins. -/
  pending : List (ChunkKey × Nat)
  /-- The flights that have not landed. -/
  flights : List Flight
  /-- How many resets there were. -/
  generation : Nat
  /-- How many flights were started. -/
  started : Nat
  aborted : Bool
deriving DecidableEq, Repr

/-- How a request is answered. -/
inductive Ticket where
  | ready (content : Text)
  | joined (flight : Nat)
  | started (flight : Flight)
deriving DecidableEq, Repr

/-- What a flight gives to those who wait for it; `fresh` when memory took it. -/
structure Landing where
  outcome : Except Failure Text
  fresh : Bool

namespace Loader

def new (capacity : Int) : Loader := ⟨.empty capacity, [], [], 0, 0, false⟩

def request (l : Loader) (k : ChunkKey) : Ticket × Loader :=
  match l.memory.get? k with
  | some content => (.ready content, { l with memory := l.memory.touch k })
  | none =>
    match l.pending.lookup k with
    | some n => (.joined n, l)
    | none =>
      let f : Flight := ⟨l.started, k, l.generation⟩
      (.started f,
        { l with
          pending := (k, f.number) :: l.pending
          flights := l.flights ++ [f]
          started := l.started + 1 })

/-- Takes a flight off the list of those under way, and off those that may be joined. -/
def leave (l : Loader) (f : Flight) : Loader :=
  { l with
    flights := l.flights.filter fun g => g.number ≠ f.number
    pending := l.pending.filter fun p => p ≠ (f.key, f.number) }

/-- Lands a flight with the reply to its call. -/
def land (l : Loader) (f : Flight) (reply : Except Failure Reply) : Landing × Loader :=
  let l := l.leave f
  match reply.bind Reply.content? with
  | .error e => (⟨.error e, false⟩, l)
  | .ok none => (⟨.ok [], false⟩, l)
  | .ok (some content) =>
    if f.generation ≠ l.generation then (⟨.ok content, false⟩, l)
    else
      let l := { l with memory := l.memory.put f.key content }
      if l.memory.capacity < 0 then (⟨.error .nothingToForget, false⟩, l)
      else (⟨.ok content, true⟩, l)

/-- Forgets all chunks and flights, and takes an abort back. -/
def reset (l : Loader) : Loader :=
  { l with memory := l.memory.clear, pending := [], generation := l.generation + 1, aborted := false }

def abort (l : Loader) : Loader := { l with aborted := true }

def cached? (l : Loader) (k : ChunkKey) : Option Text := l.memory.get? k

end Loader
end PageAssembly
