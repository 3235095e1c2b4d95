/-
  PageAssembly/Cache/Basic.lean
  =============================
  **A cache whose entries live for a fixed time.**

  An entry is fresh while the time since it was set is below the time to live.  Stale
  entries stay until they are set again or purged; looking up passes over them.  Time
  is whatever has differences and an order, and the clock reading is an argument of
  each operation.

  Main statements: `get?_set` (what a look-up finds after a setting) and `get?_clear`.
-/
import PageAssembly.OrderedMap
import PageAssembly.Text.Basic

namespace PageAssembly

/-- A content and the time when it was set. -/
structure Cache.Entry (τ : Type) where
  content : Text
  stamp : τ
deriving DecidableEq, Repr

/-- Contents by key, and how long they live. -/
structure Cache (τ : Type) where
  ttl : τ
  entries : OrderedMap Text (Cache.Entry τ)

namespace Cache

variable {τ : Type}

def empty (ttl : τ) : Cache τ := ⟨ttl, OrderedMap.empty⟩

def entry? (c : Cache τ) (key : Text) : Option (Entry τ) := c.entries.get? key

/-- The cache with a content under the key from now on. -/
def set (c : Cache τ) (now : τ) (key content : Text) : Cache τ :=
  { c with entries := c.entries.insert key ⟨content, now⟩ }

def clear (c : Cache τ) : Cache τ := { c with entries := OrderedMap.empty }

section Fresh

variable [Sub τ] [LT τ] [DecidableLT τ]

/-- The content of a key if its entry is younger than `ttl`. -/
def getWithin? (c : Cache τ) (ttl now : τ) (key : Text) : Option Text :=
  (c.entry? key).bind fun e => if now - e.stamp < ttl then some e.content else none

/-- The content of a key if its entry is fresh. -/
def get? (c : Cache τ) (now : τ) (key : Text) : Option Text := c.getWithin? c.ttl now key

def contains (c : Cache τ) (now : τ) (key : Text) : Bool := (c.get? now key).isSome

theorem get?_set (c : Cache τ) (now later : τ) (key other content : Text) :
    (c.set now key content).get? later other =
      if key = other then (if later - now < c.ttl then some content else none)
      else c.get? later other := by
  simp only [get?, getWithin?, entry?, set, OrderedMap.get?_insert]
  split <;> rfl

@[simp] theorem get?_clear (c : Cache τ) (now : τ) (key : Text) : c.clear.get? now key = none := rfl

end Fresh

section Purge

variable [Sub τ] [LE τ] [DecidableLE τ]

/-- Whether an entry has lived its time. -/
def isExpired (c : Cache τ) (now : τ) (e : Entry τ) : Bool := c.ttl ≤ now - e.stamp

def purge (c : Cache τ) (now : τ) : Cache τ :=
  { c with entries := c.entries.filter fun e => !c.isExpired now e.2 }

/-- How many entries purging removes. -/
def purged (c : Cache τ) (now : τ) : Nat := c.entries.size - (c.purge now).entries.size

end Purge

end Cache
end PageAssembly
