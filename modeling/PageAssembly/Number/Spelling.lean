/-
  PageAssembly/Number/Spelling.lean
  =================================
  **Whole numbers in their many spellings.**

  Two readers, both of which pass over white space at the ends and take one sign.

  `numeral?` reads a numeral of any script, in which single low lines may stand
  between digits.

  `lenient?` reads what may stand for a number in data.  Zeros and low lines in front
  are passed over, up to the first other digit or to a minus sign; a point with zeros
  behind it is dropped; then single low lines are taken out of what is left, which has
  to be a plain number of at most 4300 characters.

  Main statement: `unsigned?_of_natural?` (a numeral without low lines is read as it is).
-/
import PageAssembly.Text.Digit

namespace PageAssembly.Spelling

/-- The text without white space at either end. -/
def trimmed (s : Text) : Text :=
  Text.dropEndWhile Text.isWhiteSpace (s.dropWhile Text.isWhiteSpace)

/-- A number with its sign put to it. -/
def signed (negative : Bool) (n : Nat) : Int := if negative then -(Int.ofNat n) else Int.ofNat n

/-! ### Numerals of any script -/

/-- The digits of a numeral in which single low lines may stand between digits. -/
def digits? : Text → Option Text
  | [] => none
  | [c] => if Text.isDecimal c then some [c] else none
  | c :: '_' :: s => if Text.isDecimal c then (digits? s).map (c :: ·) else none
  | c :: s => if Text.isDecimal c then (digits? s).map (c :: ·) else none

/-- The number that a numeral writes. -/
def unsigned? (s : Text) : Option Nat := (digits? s).map (Text.valueFrom 0)

theorem digits?_of_all {s : Text} (hs : s ≠ []) (h : ∀ c ∈ s, Text.isDecimal c = true) :
    digits? s = some s := by
  fun_induction digits? s with
  | case1 => exact absurd rfl hs
  | case2 c hc => rfl
  | case3 c hc => exact absurd (h c (by simp)) hc
  | case4 c s hc ih => exact absurd (h '_' (by simp)) (by decide)
  | case5 c s hc => exact absurd (h c (by simp)) hc
  | case6 c s h₁ h₂ hc ih => simp [ih (fun hn => h₁ (by simp [hn])) fun d hd => h d (by simp [hd])]
  | case7 c s h₁ h₂ hc => exact absurd (h c (by simp)) hc

theorem unsigned?_of_natural? {s : Text} {n : Nat} (h : Text.natural? s = some n) :
    unsigned? s = some n := by
  obtain ⟨hs, rfl⟩ := Text.natural?_eq_some_iff.1 h
  simp only [Text.isNumeral, Bool.and_eq_true, Bool.not_eq_true', List.isEmpty_eq_false_iff,
    List.all_eq_true] at hs
  simp [unsigned?, digits?_of_all hs.1 hs.2]

/-- The whole number that a text writes in the digits of any script. -/
def numeral? (s : Text) : Option Int :=
  match trimmed s with
  | '-' :: r => (unsigned? r).map (signed true)
  | '+' :: r => (unsigned? r).map (signed false)
  | r => (unsigned? r).map (signed false)

/-! ### Numbers in data -/

/-- What stands behind zeros and low lines, the last of which was `last`; before a point,
    or where nothing follows, the last one is kept. -/
def behindZeros (last : Char) : Text → Option Text
  | [] => some [last]
  | c :: s =>
    if c = '0' ∨ c = '_' then behindZeros c s
    else if c = '.' then some (last :: c :: s)
    else if c = '-' ∨ ('1' ≤ c ∧ c ≤ '9') then some (c :: s)
    else none

/-- The text without zeros in front; it has to start with a digit. -/
def withoutZeros : Text → Option Text
  | [] => none
  | c :: s =>
    if c = '0' then behindZeros '0' s
    else if '1' ≤ c ∧ c ≤ '9' then some (c :: s)
    else none

/-- The text in front of a point behind which there are zeros and nothing else. -/
def withoutFraction (s : Text) : Text :=
  match s.dropWhile (· != '.') with
  | _ :: c :: ds => if (c :: ds).all (· == '0') then s.takeWhile (· != '.') else s
  | _ => s

/-- The text without its low lines, none of which may stand at an end or beside another. -/
def withoutLowLines (s : Text) : Option Text :=
  if s.head? = some '_' ∨ s.getLast? = some '_' ∨ Text.occursIn ['_', '_'] s then none
  else some (s.filter (· != '_'))

/-- The text as a plain number is written. -/
def cleaned? (s : Text) : Option Text :=
  (withoutZeros s).bind fun r => withoutLowLines (withoutFraction r)

/-- The number that zero alone, or digits of ASCII with another one in front, write. -/
def plainNatural? : Text → Option Nat
  | [] => none
  | c :: s =>
    if c = '0' then (if s.isEmpty then some 0 else none)
    else if ('1' ≤ c ∧ c ≤ '9') ∧ s.all Char.isDigit = true then some (Text.valueFrom 0 (c :: s))
    else none

/-- The number that a plain text writes. -/
def plain? : Text → Option Int
  | '-' :: s => (plainNatural? s).map (signed true)
  | s => (plainNatural? s).map (signed false)

/-- How many characters a plain number may have. -/
def longest : Nat := 4300

/-- A plain number that is not too long. -/
def bounded? (s : Text) : Option Int := if longest < s.length then none else plain? s

/-- The whole number that a text stands for in data. -/
def lenient? (s : Text) : Option Int :=
  match trimmed s with
  | '-' :: r => (cleaned? r).bind fun t => bounded? ('-' :: t)
  | '+' :: r => (cleaned? r).bind bounded?
  | r => (cleaned? r).bind bounded?

end PageAssembly.Spelling
