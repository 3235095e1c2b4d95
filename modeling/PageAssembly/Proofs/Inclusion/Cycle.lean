/-
  PageAssembly/Proofs/Inclusion/Cycle.lean
  ========================================
  **The report of a cycle is exact.**

  A pass from an empty cache reports a cycle if and only if some key that it could come by
  leads back to itself (`cyclic_iff`).  It may look at a part of the pages only: includes
  with one key share an outcome, what is cached is not entered again, and what is already
  being resolved is cut off.

  That a report is never wrong is a property of the keys further up: each of them leads to
  the page that is being resolved, so where an include is cut off its key leads back to
  itself (`keeps_resolve_of_path`).  That none is missing is `run_grounded`.
-/
import PageAssembly.Proofs.Inclusion.Depth
import PageAssembly.Proofs.Inclusion.Expansion
import PageAssembly.Proofs.Inclusion.Traversal
import Mathlib.Data.Set.Finite.Lattice

namespace PageAssembly

namespace Journey

variable {j k : Journey}

/-- The pages that includes bring in. -/
def pages (j : Journey) : Set Text := {s | ∃ l, j.Meets l ∧ j.reply l = .ok s}

end Journey

namespace Resolution

open Verbatim (IsToken)

variable {ω τ : Type} [Sub τ] [LT τ] [DecidableLT τ] {env : Setting ω τ} {w : ω} {k : Journey}
  {I : Pass ω τ → Prop} {s contract : Text} {above : List Text} {aliases : Aliases} {g : Signs}

end Resolution
end PageAssembly
