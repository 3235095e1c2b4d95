/-
  PageAssembly/Text/Quoted.lean
  =============================
  **The quoted form of a text.**

  A text is shown between single quotes, or between double quotes when it holds
  single quotes and no double one.  Inside, the quote in use and the backslash take a
  backslash, tabs and line ends have their letters, and every other character that is
  not printable is written by its code point.
-/
import PageAssembly.Text.Printable

namespace PageAssembly.Text

/-- The number in lower-case hexadecimal digits, at least `width` of them. -/
def hex (width n : Nat) : Text :=
  let digits := Nat.toDigits 16 n
  List.replicate (width - digits.length) '0' ++ digits

/-- A character inside quotes `mark`. -/
def quotedChar (mark c : Char) : Text :=
  if c = mark ∨ c = '\\' then ['\\', c]
  else if c = '\n' then ['\\', 'n']
  else if c = '\r' then ['\\', 'r']
  else if c = '\t' then ['\\', 't']
  else if isPrintable c then [c]
  else if c.toNat < 0x100 then '\\' :: 'x' :: hex 2 c.toNat
  else if c.toNat < 0x10000 then '\\' :: 'u' :: hex 4 c.toNat
  else '\\' :: 'U' :: hex 8 c.toNat

/-- The quotes that a text is shown between. -/
def quoteMark (s : Text) : Char := if s.contains '\'' && !s.contains '"' then '"' else '\''

def quoted (s : Text) : Text :=
  quoteMark s :: (s.flatMap (quotedChar (quoteMark s)) ++ [quoteMark s])

end PageAssembly.Text
