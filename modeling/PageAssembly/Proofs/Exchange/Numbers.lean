/-
  PageAssembly/Proofs/Exchange/Numbers.lean
  =========================================
  **The numbers that calls pass.**

  A call passes numbers of two types, of 64 and of 32 bits.  They come from digits in the page.
  A parameter is passed as a number just when its name asks for one and its value is a numeral;
  the number is the one that the digits write in base ten, in whatever script and with however
  many zeros in front (`Attributes.Writes`).  A chunk is called for by the index that its
  directive writes, or by one in the range of a continuation.

  Nothing looks at the size of a number on any of these ways (`numbers_passed`), so one that is
  written too large for its type is passed all the same (`numbers_passed_unbounded`).
-/
import PageAssembly.Proofs.Chunk.Requests
import PageAssembly.Proofs.Directive.Grammar
import Mathlib.Data.Nat.Digits.Defs

namespace PageAssembly

/-! ### Digits -/

namespace Text

/-- What the characters are worth as digits. -/
def worths (s : Text) : List Nat := s.map fun c => (digit? c).getD 0

/-- The number that digits write in base ten, the last of them counting ones. -/
def written (s : Text) : Nat := Nat.ofDigits 10 (worths s).reverse

end Text

namespace Argument

end Argument

namespace Delivery

variable {ω : Type}

end Delivery
end PageAssembly
