/-
  PageAssembly/Cache/Reading.lean
  ===============================
  **Readings of a clock.**

  A clock shows whole numbers or decimal ones.  Whole numbers are exact; a difference
  that takes in a decimal number is rounded as decimal numbers are.  Comparisons are
  exact between all readings.
-/
import PageAssembly.Number.Binary64

namespace PageAssembly

/-- What a clock shows, or a length of time. -/
inductive Reading where
  | whole (n : Int)
  | decimal (x : Binary64)
deriving DecidableEq, Repr

namespace Reading

/-- The reading, rounded if it has to be. -/
def rounded : Reading → Binary64
  | .whole n => .ofInt n
  | .decimal x => x

def exact : Reading → Binary64
  | .whole n => .exactly n
  | .decimal x => x

def minus : Reading → Reading → Reading
  | .whole a, .whole b => .whole (a - b)
  | a, b => .decimal (a.rounded.minus b.rounded)

instance : Sub Reading := ⟨minus⟩
instance : LT Reading := ⟨fun a b => a.exact.below b.exact = true⟩
instance : LE Reading := ⟨fun a b => a.exact.atMost b.exact = true⟩
instance : DecidableLT Reading := fun a b => inferInstanceAs (Decidable (a.exact.below b.exact = true))
instance : DecidableLE Reading := fun a b => inferInstanceAs (Decidable (a.exact.atMost b.exact = true))

end Reading
end PageAssembly
