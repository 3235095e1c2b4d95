/-
  PageAssembly/Number/Binary64.lean
  =================================
  **Numbers of 53 bits with a binary exponent.**

  Decimal numbers in data and on clocks are kept as the nearest number of the form
  m · 2^e with m below 2^53 and e at least -1074 (the even m of two equally near
  ones); what is too large is infinite.  Everything is computed exactly on integers
  and rounded once.
-/
import PageAssembly.Text.Basic

namespace PageAssembly

/-- A number ± m · 2^e, an infinity, or the result of an undefined operation. -/
inductive Binary64 where
  | finite (negative : Bool) (m : Nat) (e : Int)
  | infinite (negative : Bool)
  | undefined
deriving DecidableEq, Repr

namespace Binary64

/-! ### Rounding -/

/-- A power of two; of a negative exponent, one. -/
def twoTo (e : Int) : Nat := Nat.pow 2 e.toNat

/-- A power of ten; of a negative exponent, one. -/
def tenTo (e : Int) : Nat := Nat.pow 10 e.toNat

/-- The integer nearest to `n / d`; of two equally near ones the even one. -/
def nearest (n d : Nat) : Nat :=
  let q := n / d
  let r := n % d
  if 2 * r < d then q else if d < 2 * r then q + 1 else if q % 2 = 0 then q else q + 1

/-- The largest `l` with `2^l ≤ n / d`, for positive `n` and `d`. -/
def binaryOrder (n d : Nat) : Int :=
  let l := Int.ofNat (Nat.log2 n) - Int.ofNat (Nat.log2 d)
  if d * twoTo l ≤ n * twoTo (-l) then l else l - 1

/-- The number nearest to `± n / d`. -/
def ofRatio (negative : Bool) (n d : Nat) : Binary64 :=
  if n = 0 then .finite negative 0 0
  else
    let e := max (binaryOrder n d - 52) (-1074)
    let m := nearest (n * twoTo (-e)) (d * twoTo e)
    if 971 < e ∨ (e = 971 ∧ twoTo 53 ≤ m) then .infinite negative else .finite negative m e

/-- The number nearest to `± digits · 10^exponent`. -/
def ofDecimal (negative : Bool) (digits : Nat) (exponent : Int) : Binary64 :=
  let places := Int.ofNat (Text.decimal digits).length + exponent
  if digits = 0 ∨ places < -400 then .finite negative 0 0
  else if 400 < places then .infinite negative
  else ofRatio negative (digits * tenTo exponent) (tenTo (-exponent))

/-- The integer as a number of this kind, not rounded. -/
def exactly (n : Int) : Binary64 := .finite (n < 0) n.natAbs 0

/-- The number nearest to an integer. -/
def ofInt (n : Int) : Binary64 := ofRatio (n < 0) n.natAbs 1

/-! ### Comparison and difference -/

/-- `± m` with its sign. -/
def signed (negative : Bool) (m : Nat) : Int := if negative then -(Int.ofNat m) else Int.ofNat m

/-- Two finite numbers as integers over one power of two. -/
def align (n : Bool) (a : Nat) (e : Int) (m : Bool) (b : Nat) (f : Int) : Int × Int :=
  (signed n (a * twoTo (e - min e f)), signed m (b * twoTo (f - min e f)))

/-- Whether the first number is below the second; no undefined number is. -/
def below : Binary64 → Binary64 → Bool
  | .finite n a e, .finite m b f => (align n a e m b f).1 < (align n a e m b f).2
  | .infinite n, .finite .. => n
  | .finite .., .infinite m => !m
  | .infinite n, .infinite m => n && !m
  | .undefined, _ => false
  | _, .undefined => false

/-- Whether the first number is not above the second; no undefined number is. -/
def atMost : Binary64 → Binary64 → Bool
  | .finite n a e, .finite m b f => (align n a e m b f).1 ≤ (align n a e m b f).2
  | .infinite n, .finite .. => n
  | .finite .., .infinite m => !m
  | .infinite n, .infinite m => n || !m
  | .undefined, _ => false
  | _, .undefined => false

/-- The difference, rounded. -/
def minus : Binary64 → Binary64 → Binary64
  | .finite n a e, .finite m b f =>
    let d := (align n a e m b f).1 - (align n a e m b f).2
    ofRatio (d < 0) (d.natAbs * twoTo (min e f)) (twoTo (-(min e f)))
  | .infinite n, .finite .. => .infinite n
  | .finite .., .infinite m => .infinite !m
  | .infinite n, .infinite m => if n = m then .undefined else .infinite n
  | .undefined, _ => .undefined
  | _, .undefined => .undefined

/-- The number as an integer, where it is one. -/
def toInt? : Binary64 → Option Int
  | .finite n m e =>
    if m % twoTo (-e) = 0 then some (signed n (m * twoTo e / twoTo (-e))) else none
  | _ => none

end Binary64
end PageAssembly
