/-
  PageAssembly/Json/Reader.lean
  =============================
  **Reading data values from text.**

  The grammar of JSON with three more words, `NaN`, `Infinity` and `-Infinity`.
  Control characters inside quotes are refused, a number has no leading zeros, and
  nothing may follow the value but blanks.  Two escaped halves of a surrogate pair
  make one character; a half alone is replaced by U+FFFD.

  Reading recurses on a bound that the length of the text gives, because every nested
  value starts at least one character further on.
-/
import PageAssembly.Json.Basic

namespace PageAssembly.Json

/-! ### Blanks and words -/

/-- Whether the character may stand between the parts of a value. -/
def isSpace (c : Char) : Bool := c == ' ' || c == '\t' || c == '\n' || c == '\r'

/-- The text without blanks at its front. -/
def skip (s : Text) : Text := s.dropWhile isSpace

/-- The words that are values. -/
def words : List (Text × Json) :=
  [("null".toList, .null), ("true".toList, .bool true), ("false".toList, .bool false),
   ("NaN".toList, .decimal .undefined), ("Infinity".toList, .decimal (.infinite false)),
   ("-Infinity".toList, .decimal (.infinite true))]

def readWord (s : Text) : Option (Json × Text) :=
  words.findSome? fun w => (Text.expect w.1 s).map fun r => (w.2, r)

/-! ### Quoted texts -/

/-- The value of a hexadecimal digit. -/
def hexValue? (c : Char) : Option Nat :=
  if '0' ≤ c ∧ c ≤ '9' then some (c.toNat - 48)
  else if 'a' ≤ c ∧ c ≤ 'f' then some (c.toNat - 87)
  else if 'A' ≤ c ∧ c ≤ 'F' then some (c.toNat - 55)
  else none

/-- What a letter behind a backslash stands for. -/
def escaped? (c : Char) : Option Nat :=
  match c with
  | '"' => some 0x22
  | '\\' => some 0x5c
  | '/' => some 0x2f
  | 'b' => some 0x08
  | 'f' => some 0x0c
  | 'n' => some 0x0a
  | 'r' => some 0x0d
  | 't' => some 0x09
  | _ => none

/-- The codes up to the closing quote, and the text behind it. -/
def readCodes : Text → Option (List Nat × Text)
  | [] => none
  | '"' :: r => some ([], r)
  | '\\' :: 'u' :: a :: b :: c :: d :: r => do
    let n := ((← hexValue? a) * 16 + (← hexValue? b)) * 16 + (← hexValue? c)
    let code := n * 16 + (← hexValue? d)
    let (codes, rest) ← readCodes r
    pure (code :: codes, rest)
  | '\\' :: c :: r => do
    let code ← escaped? c
    let (codes, rest) ← readCodes r
    pure (code :: codes, rest)
  | c :: r =>
    if c.toNat < 0x20 ∨ c = '\\' then none
    else (readCodes r).map fun p => (c.toNat :: p.1, p.2)

/-- The characters that codes write, where halves of a pair stand side by side. -/
def joinHalves : List Nat → Text
  | [] => []
  | [a] => [if 0xd800 ≤ a ∧ a < 0xe000 then '\uFFFD' else Char.ofNat a]
  | a :: b :: r =>
    if 0xd800 ≤ a ∧ a < 0xdc00 ∧ 0xdc00 ≤ b ∧ b < 0xe000 then
      Char.ofNat (0x10000 + (a - 0xd800) * 0x400 + (b - 0xdc00)) :: joinHalves r
    else
      (if 0xd800 ≤ a ∧ a < 0xe000 then '\uFFFD' else Char.ofNat a) :: joinHalves (b :: r)

/-- Reading a text behind its opening quote. -/
def readText (s : Text) : Option (Text × Text) :=
  (readCodes s).map fun p => (joinHalves p.1, p.2)

/-! ### Numbers -/

/-- The number that digits of ASCII write. -/
def digitsValue (ds : Text) : Nat := ds.foldl (fun n c => 10 * n + (c.toNat - 48)) 0

/-- The digits at the front, and the rest. -/
def readDigits (s : Text) : Text × Text := (s.takeWhile Char.isDigit, s.dropWhile Char.isDigit)

/-- The whole part of a number: zero alone, or digits that start with another one. -/
def readWhole : Text → Option (Text × Text)
  | '0' :: r => some (['0'], r)
  | s => if (readDigits s).1.isEmpty then none else some (readDigits s)

/-- A point with digits behind it, if there is one. -/
def readFraction : Text → Option (Text × Text)
  | '.' :: r => if (readDigits r).1.isEmpty then none else some (readDigits r)
  | _ => none

/-- The sign in front of an exponent's digits. -/
def readSign : Text → Bool × Text
  | '-' :: r => (true, r)
  | '+' :: r => (false, r)
  | r => (false, r)

/-- An exponent, if there is one. -/
def readExponent : Text → Option (Int × Text)
  | c :: r =>
    if c = 'e' ∨ c = 'E' then
      let (negative, r) := readSign r
      let (ds, rest) := readDigits r
      if ds.isEmpty then none else some (Binary64.signed negative (digitsValue ds), rest)
    else none
  | [] => none

/-- Reading a number behind its sign. -/
def readUnsigned (negative : Bool) (s : Text) : Option (Json × Text) := do
  let (whole, r) ← readWhole s
  let fraction := readFraction r
  let r := (fraction.map Prod.snd).getD r
  let exponent := readExponent r
  let r := (exponent.map Prod.snd).getD r
  if fraction.isNone && exponent.isNone then
    pure (.integer (Binary64.signed negative (digitsValue whole)), r)
  else
    let places := (fraction.map Prod.fst).getD []
    let power := (exponent.map Prod.fst).getD 0 - places.length
    pure (.decimal (Binary64.ofDecimal negative (digitsValue (whole ++ places)) power), r)

def readNumber : Text → Option (Json × Text)
  | '-' :: r => readUnsigned true r
  | s => readUnsigned false s

/-! ### Values -/

mutual

/-- Reading a value, nested no deeper than the bound. -/
def readValue : Nat → Text → Option (Json × Text)
  | 0, _ => none
  | n + 1, s =>
    match s with
    | '"' :: r => (readText r).map fun p => (.text p.1, p.2)
    | '[' :: r =>
      match skip r with
      | ']' :: rest => some (.list [], rest)
      | r => (readItems n r).map fun p => (.list p.1, p.2)
    | '{' :: r =>
      match skip r with
      | '}' :: rest => some (.object [], rest)
      | r => (readFields n r).map fun p => (.object p.1, p.2)
    | s => readWord s <|> readNumber s

/-- Reading the items of a list up to its end. -/
def readItems : Nat → Text → Option (List Json × Text)
  | 0, _ => none
  | n + 1, s => do
    let (item, r) ← readValue n s
    match skip r with
    | ']' :: rest => pure ([item], rest)
    | ',' :: r =>
      let (items, rest) ← readItems n (skip r)
      pure (item :: items, rest)
    | _ => none

/-- Reading the members of an object up to its end. -/
def readFields : Nat → Text → Option (List (Text × Json) × Text)
  | 0, _ => none
  | n + 1, s =>
    match s with
    | '"' :: r => do
      let (name, r) ← readText r
      match skip r with
      | ':' :: r =>
        let (value, r) ← readValue n (skip r)
        match skip r with
        | '}' :: rest => pure ([(name, value)], rest)
        | ',' :: r =>
          let (fields, rest) ← readFields n (skip r)
          pure ((name, value) :: fields, rest)
        | _ => none
      | _ => none
    | _ => none

end

/-- The value that a text writes, if it is one and nothing else. -/
def read? (s : Text) : Option Json :=
  match readValue (2 * s.length + 2) (skip s) with
  | some (v, r) => if (skip r).isEmpty then some v else none
  | none => none

end PageAssembly.Json
