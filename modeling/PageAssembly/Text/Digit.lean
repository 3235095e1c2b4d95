/-
  PageAssembly/Text/Digit.lean
  ============================
  **Decimal digits of every script.**

  Each script that writes numbers in tens has its ten digits in a row, so a table
  of zeros (Unicode 14) decides which characters are decimal digits and what they
  are worth.  A numeral is a non-empty run of such digits, of any length and even
  of mixed scripts.  Digits that only stand alone (superscripts, circled digits)
  make no numeral, but they count where a name has to be "all digits".

  Main statement: `natural?_eq_some_iff` (which texts are numerals, and their value).
-/
import PageAssembly.Text.Blank

namespace PageAssembly.Text

/-! ### Tables -/

/-- The digit zero of every script. -/
def zeros : List Nat :=
  [0x30, 0x660, 0x6f0, 0x7c0, 0x966, 0x9e6, 0xa66, 0xae6, 0xb66, 0xbe6, 0xc66, 0xce6, 0xd66, 0xde6,
   0xe50, 0xed0, 0xf20, 0x1040, 0x1090, 0x17e0, 0x1810, 0x1946, 0x19d0, 0x1a80, 0x1a90, 0x1b50,
   0x1bb0, 0x1c40, 0x1c50, 0xa620, 0xa8d0, 0xa900, 0xa9d0, 0xa9f0, 0xaa50, 0xabf0, 0xff10, 0x104a0,
   0x10d30, 0x11066, 0x110f0, 0x11136, 0x111d0, 0x112f0, 0x11450, 0x114d0, 0x11650, 0x116c0,
   0x11730, 0x118e0, 0x11950, 0x11c50, 0x11d50, 0x11da0, 0x16a60, 0x16ac0, 0x16b50, 0x1d7ce,
   0x1d7d8, 0x1d7e2, 0x1d7ec, 0x1d7f6, 0x1e140, 0x1e2f0, 0x1e950, 0x1fbf0]

/-- Digits that do not take part in numerals. -/
def loneDigitRanges : List (Nat × Nat) :=
  [(0xb2, 0xb3), (0xb9, 0xb9), (0x1369, 0x1371), (0x19da, 0x19da), (0x2070, 0x2070),
   (0x2074, 0x2079), (0x2080, 0x2089), (0x2460, 0x2468), (0x2474, 0x247c), (0x2488, 0x2490),
   (0x24ea, 0x24ea), (0x24f5, 0x24fd), (0x24ff, 0x24ff), (0x2776, 0x277e), (0x2780, 0x2788),
   (0x278a, 0x2792), (0x10a40, 0x10a43), (0x10e60, 0x10e68), (0x11052, 0x1105a), (0x1f100, 0x1f10a)]

/-! ### Values -/

/-- What the character is worth as a decimal digit. -/
def digit? (c : Char) : Option Nat :=
  (zeros.find? fun z => z ≤ c.toNat && c.toNat < z + 10).map (c.toNat - ·)

def isDecimal (c : Char) : Bool := (digit? c).isSome

/-- Whether the character is a digit of any kind. -/
def isAnyDigit (c : Char) : Bool := isDecimal c || inRanges loneDigitRanges c.toNat

/-- The number that the digits `s` write when they follow digits worth `n`. -/
def valueFrom (n : Nat) : Text → Nat
  | [] => n
  | c :: s => valueFrom (10 * n + (digit? c).getD 0) s

/-- Whether the text is a numeral: not empty, and decimal digits only. -/
def isNumeral (s : Text) : Bool := !s.isEmpty && s.all isDecimal

/-- The number that a numeral writes. -/
def natural? (s : Text) : Option Nat := if isNumeral s then some (valueFrom 0 s) else none

theorem natural?_eq_some_iff {s : Text} {n : Nat} :
    natural? s = some n ↔ isNumeral s = true ∧ n = valueFrom 0 s := by
  by_cases h : isNumeral s = true
  · simp [natural?, h, eq_comm]
  · simp [natural?, h]

theorem digit?_lt {c : Char} {d : Nat} (h : digit? c = some d) : d < 10 := by
  simp only [digit?, Option.map_eq_some_iff] at h
  obtain ⟨z, hz, rfl⟩ := h
  have := List.find?_some hz
  simp only [Bool.and_eq_true, decide_eq_true_eq] at this
  omega

end PageAssembly.Text
