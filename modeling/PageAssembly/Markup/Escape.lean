/-
  PageAssembly/Markup/Escape.lean
  ===============================
  **Writing text into markup, and reading it back.**

  Escaping writes the characters of markup as character references: ampersand and
  angle brackets everywhere, quotes too inside attribute values.  Unescaping reads
  every reference, named or numbered, with or without its semicolon, and takes the
  longest known name where a reference runs on into other text.
-/
import PageAssembly.Markup.Entities
import PageAssembly.Json.Reader
import PageAssembly.Text.Pattern

namespace PageAssembly.Markup

/-! ### Escaping -/

/-- A character of running text. -/
def escapeChar (c : Char) : Text :=
  match c with
  | '&' => "&amp;".toList
  | '<' => "&lt;".toList
  | '>' => "&gt;".toList
  | c => [c]

/-- A character of an attribute value. -/
def escapeValueChar (c : Char) : Text :=
  match c with
  | '"' => "&quot;".toList
  | '\'' => "&#x27;".toList
  | c => escapeChar c

/-- A text as running text of markup. -/
def escape (s : Text) : Text := s.flatMap escapeChar

/-- A text as a quoted attribute value of markup. -/
def escapeValue (s : Text) : Text := s.flatMap escapeValueChar

/-! ### Numbered references -/

/-- What the numbers 128 to 159 stand for: the characters that one old eight-bit page
    has there. -/
def highControls : List Nat :=
  [0x20ac, 0x81, 0x201a, 0x0192, 0x201e, 0x2026, 0x2020, 0x2021, 0x02c6, 0x2030, 0x0160, 0x2039,
   0x0152, 0x8d, 0x017d, 0x8f, 0x90, 0x2018, 0x2019, 0x201c, 0x201d, 0x2022, 0x2013, 0x2014,
   0x02dc, 0x2122, 0x0161, 0x203a, 0x0153, 0x9d, 0x017e, 0x0178]

/-- Whether no character may be written by this number. -/
def isForbidden (n : Nat) : Bool :=
  (0x1 ≤ n && n ≤ 0x8) || n == 0xb || (0xe ≤ n && n ≤ 0x1f) || (0x7f ≤ n && n ≤ 0x9f) ||
    (0xfdd0 ≤ n && n ≤ 0xfdef) || n % 0x10000 == 0xfffe || n % 0x10000 == 0xffff

/-- The text that a numbered reference stands for. -/
def numbered (n : Nat) : Text :=
  if n = 0 then ['\uFFFD']
  else if 0x80 ≤ n ∧ n ≤ 0x9f then [Char.ofNat (highControls.getD (n - 0x80) 0xfffd)]
  else if (0xd800 ≤ n ∧ n ≤ 0xdfff) ∨ 0x10ffff < n then ['\uFFFD']
  else if isForbidden n then []
  else [Char.ofNat n]

/-! ### Named references -/

/-- Whether the character may stand in a name. -/
def isNameChar (c : Char) : Bool :=
  !(c == '\t' || c == '\n' || c == '\x0c' || c == ' ' || c == '<' || c == '&' || c == '#' || c == ';')

/-- What the longest known name among the first `k` to two characters stands for, with
    the characters behind it. -/
def longestName (name : Text) : Nat → Option Text
  | 0 => none
  | k + 1 =>
    if k = 0 then none
    else
      match entity? (name.take (k + 1)) with
      | some v => some (v ++ name.drop (k + 1))
      | none => longestName name k

/-- The text that a named reference stands for; an unknown one stands for itself. -/
def named (name : Text) : Text :=
  match entity? name with
  | some v => v
  | none => (longestName name (name.length - 1)).getD ('&' :: name)

/-! ### Reading references -/

def dropSemicolon : Text → Text
  | ';' :: r => r
  | r => r

def isHexDigit (c : Char) : Bool := (Json.hexValue? c).isSome

/-- The number that hexadecimal digits write. -/
def hexDigitsValue (ds : Text) : Nat := ds.foldl (fun n c => 16 * n + (Json.hexValue? c).getD 0) 0

/-- A decimal reference behind its number sign. -/
def readDecimal (s : Text) : Option (Text × Text) :=
  let ds := s.takeWhile Char.isDigit
  if ds.isEmpty then none
  else some (numbered (Json.digitsValue ds), dropSemicolon (s.drop ds.length))

/-- A hexadecimal reference behind its letter. -/
def readHexadecimal (s : Text) : Option (Text × Text) :=
  let ds := s.takeWhile isHexDigit
  if ds.isEmpty then none
  else some (numbered (hexDigitsValue ds), dropSemicolon (s.drop ds.length))

/-- A named reference behind its ampersand; at most 32 characters of a name are read. -/
def readNamed (s : Text) : Option (Text × Text) :=
  let name := (s.takeWhile isNameChar).take 32
  if name.isEmpty then none
  else
    match s.drop name.length with
    | ';' :: r => some (named (name ++ [';']), r)
    | r => some (named name, r)

/-- A reference: the text that it stands for, and the text behind it. -/
def readReference : Text → Option (Text × Text)
  | '&' :: '#' :: 'x' :: r => readHexadecimal r
  | '&' :: '#' :: 'X' :: r => readHexadecimal r
  | '&' :: '#' :: r => readDecimal r
  | '&' :: r => readNamed r
  | _ => none

theorem dropSemicolon_suffix (s : Text) : dropSemicolon s <:+ s := by
  unfold dropSemicolon
  split
  · exact List.suffix_cons _ _
  · exact List.suffix_refl _

theorem suffix_of_readDecimal {s a r : Text} (h : readDecimal s = some (a, r)) : r <:+ s := by
  simp only [readDecimal] at h
  split at h
  · cases h
  · cases h
    exact (dropSemicolon_suffix _).trans (List.drop_suffix _ _)

theorem suffix_of_readHexadecimal {s a r : Text} (h : readHexadecimal s = some (a, r)) :
    r <:+ s := by
  simp only [readHexadecimal] at h
  split at h
  · cases h
  · cases h
    exact (dropSemicolon_suffix _).trans (List.drop_suffix _ _)

theorem suffix_of_readNamed {s a r : Text} (h : readNamed s = some (a, r)) : r <:+ s := by
  simp only [readNamed] at h
  split at h
  · cases h
  · split at h
    · next rest hr =>
      cases h
      exact (List.suffix_cons _ _).trans (hr ▸ List.drop_suffix _ _)
    · cases h
      exact List.drop_suffix _ _

def reference : Pattern Text where
  read := readReference
  nonempty := by
    intro s a r h
    unfold readReference at h
    split at h
    · exact nonempty_of_suffix
        ((suffix_of_readHexadecimal h).trans ⟨['#', 'x'], rfl⟩)
    · exact nonempty_of_suffix
        ((suffix_of_readHexadecimal h).trans ⟨['#', 'X'], rfl⟩)
    · exact nonempty_of_suffix ((suffix_of_readDecimal h).trans (List.suffix_cons _ _))
    · exact nonempty_of_suffix (suffix_of_readNamed h)
    · cases h

/-- The text that markup stands for. -/
def unescape (s : Text) : Text := reference.substitute (fun _ v => v) s

end PageAssembly.Markup
