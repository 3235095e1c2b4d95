/-
  PageAssembly/Chunk/Memory.lean
  ==============================
  **A bounded memory of chunks.**

  The memory keeps the chunks that were used last.  Its entries stand in the order of
  their last use, oldest first; using a chunk or putting one in moves it to the end,
  and what no longer fits goes from the front.
-/
import PageAssembly.Text.Basic

namespace PageAssembly

/-- The collection and the number of a chunk. -/
structure ChunkKey where
  collection : Text
  index : Int
deriving DecidableEq, Repr

def ChunkKey.shown (k : ChunkKey) : Text := k.collection ++ ':' :: Text.decimalInt k.index

/-- Chunks in the order of their last use, and how many there may be. -/
structure Memory where
  capacity : Int
  entries : List (ChunkKey × Text)
deriving DecidableEq, Repr

namespace Memory

def empty (capacity : Int) : Memory := ⟨capacity, []⟩

def get? (m : Memory) (k : ChunkKey) : Option Text := m.entries.lookup k

def without (m : Memory) (k : ChunkKey) : List (ChunkKey × Text) :=
  m.entries.filter fun e => e.1 ≠ k

/-- The memory after a use of the chunk. -/
def touch (m : Memory) (k : ChunkKey) : Memory :=
  match m.get? k with
  | some v => { m with entries := m.without k ++ [(k, v)] }
  | none => m

/-- The last entries, as many as the capacity allows. -/
def fit (capacity : Int) (es : List (ChunkKey × Text)) : List (ChunkKey × Text) :=
  es.drop (es.length - capacity.toNat)

def put (m : Memory) (k : ChunkKey) (v : Text) : Memory :=
  { m with entries := fit m.capacity (m.without k ++ [(k, v)]) }

def clear (m : Memory) : Memory := { m with entries := [] }

def keys (m : Memory) : List ChunkKey := m.entries.map Prod.fst

/-- The memory never holds more than its capacity after something was put in. -/
theorem length_put_le (m : Memory) (k : ChunkKey) (v : Text) :
    (m.put k v).entries.length ≤ m.capacity.toNat := by
  simp only [put, fit, List.length_drop]
  omega

end Memory
end PageAssembly
