/-
  PageAssembly/Text/Basic.lean
  ============================
  **Texts and the first things done with them.**

  A text is a list of characters, so offsets and lengths count code points and
  every function on texts recurses on the list.  This file holds reading a fixed
  word off the front of a text (`expect`, exactly or up to letter case), finding
  a word further on (`cut`), splitting at a character, and the order of code points.

  Main statements: `expect_eq_some_iff` (a word is read exactly where it stands)
  and `cut_eq_some` (what is cut out and what is left join to the whole text).
-/

namespace PageAssembly

/-- A text, character by character. -/
abbrev Text := List Char

namespace Text

/-! ### A fixed word at the front -/

/-- The rest of the text after the word `w`, whose characters may differ from the
    text's as `same` allows (the word's character comes first). -/
def expectBy (same : Char → Char → Bool) : Text → Text → Option Text
  | [], s => some s
  | _ :: _, [] => none
  | a :: w, c :: s => if same a c then expectBy same w s else none

def expect (w s : Text) : Option Text := expectBy (· == ·) w s

/-- A lower-case letter of a caseless word and a character that may stand for it:
    either case, the long s for `s`, the dotted capital and the dotless small i for `i`. -/
def sameLetter (a c : Char) : Bool :=
  a == c || a == c.toLower || (a == 's' && c == '\u017f') ||
    (a == 'i' && (c == '\u0130' || c == '\u0131'))

/-- The rest of the text after the lower-case word `w`, in any letter case. -/
def expectCaseless (w s : Text) : Option Text := expectBy sameLetter w s

theorem expectBy_eq_some {same : Char → Char → Bool} {w s r : Text}
    (h : expectBy same w s = some r) : ∃ v : Text, v.length = w.length ∧ s = v ++ r := by
  induction w generalizing s with
  | nil => exact ⟨[], rfl, by simpa [expectBy] using h⟩
  | cons a w ih =>
    cases s with
    | nil => simp [expectBy] at h
    | cons c s =>
      by_cases hc : same a c
      · obtain ⟨v, hv, hs⟩ := ih (by simpa [expectBy, hc] using h)
        exact ⟨c :: v, by simp [hv], by simp [hs]⟩
      · simp [expectBy, hc] at h

theorem expect_eq_some_iff {w s r : Text} : expect w s = some r ↔ s = w ++ r := by
  induction w generalizing s with
  | nil => simp [expect, expectBy]
  | cons a w ih =>
    cases s with
    | nil => simp [expect, expectBy]
    | cons c s =>
      by_cases hc : a = c
      · subst hc
        simpa [expect, expectBy] using ih (s := s)
      · have : c ≠ a := fun h => hc h.symm
        simp [expect, expectBy, hc, this]

@[simp] theorem expect_append (w r : Text) : expect w (w ++ r) = some r :=
  expect_eq_some_iff.2 rfl

/-! ### The first occurrence of a word -/

/-- The text before the first occurrence of `w`, and the text after it. -/
def cut (w : Text) : Text → Option (Text × Text)
  | [] => (expect w []).map fun r => ([], r)
  | c :: s =>
    match expect w (c :: s) with
    | some r => some ([], r)
    | none => (cut w s).map fun p => (c :: p.1, p.2)

theorem cut_eq_some {w s a b : Text} (h : cut w s = some (a, b)) : s = a ++ w ++ b := by
  induction s generalizing a b with
  | nil =>
    simp only [cut, Option.map_eq_some_iff, Prod.mk.injEq] at h
    obtain ⟨r, hr, rfl, rfl⟩ := h
    simpa using expect_eq_some_iff.1 hr
  | cons c s ih =>
    unfold cut at h
    split at h
    · next r hr =>
      cases h
      simpa using expect_eq_some_iff.1 hr
    · simp only [Option.map_eq_some_iff, Prod.mk.injEq] at h
      obtain ⟨p, hp, rfl, rfl⟩ := h
      simp [ih hp]

/-- The text with the first occurrence of `w` replaced by `v`; unchanged where `w`
    does not occur. -/
def replaceFirst (w v s : Text) : Text :=
  match cut w s with
  | some (a, b) => a ++ v ++ b
  | none => s

def occursIn (w s : Text) : Bool := (cut w s).isSome

/-! ### Parts -/

/-- The part of the text from offset `start` up to offset `stop`. -/
def slice (s : Text) (start stop : Nat) : Text := (s.take stop).drop start

theorem slice_append (a b c : Text) : slice (a ++ (b ++ c)) a.length (a.length + b.length) = b := by
  rw [slice, List.take_length_add_append, List.take_left, List.drop_left]

theorem slice_later (a s : Text) (i j : Nat) :
    slice (a ++ s) (a.length + i) (a.length + j) = slice s i j := by
  simp [slice, List.take_append, List.drop_append]

/-- A text behind an offset, up to another offset and from there on. -/
theorem drop_eq_slice_append (s : Text) {i j : Nat} (h : i ≤ j) : s.drop i = s.slice i j ++ s.drop j := by
  have hrest : s.drop j = (s.drop i).drop (j - i) := by
    rw [List.drop_drop, Nat.add_sub_cancel' h]
  rw [slice, List.drop_take, hrest, List.take_append_drop]

/-- The parts of the text between occurrences of the character `d`; one more than
    there are occurrences. -/
def parts (d : Char) : Text → List Text
  | [] => [[]]
  | c :: s =>
    match parts d s with
    | [] => [[c]]
    | p :: ps => if c = d then [] :: p :: ps else (c :: p) :: ps

/-- The text without the characters at its end that satisfy `p`. -/
def dropEndWhile (p : Char → Bool) (s : Text) : Text := (s.reverse.dropWhile p).reverse

def endsWith (w s : Text) : Bool := w.isSuffixOf s

/-! ### The order of code points -/

/-- Whether the first text does not come after the second, by code points. -/
def le : Text → Text → Bool
  | [], _ => true
  | _ :: _, [] => false
  | a :: s, b :: t => a < b || (a == b && le s t)

def decimal (n : Nat) : Text := Nat.toDigits 10 n

/-- An integer in decimal digits, with a minus sign where it is negative. -/
def decimalInt : Int → Text
  | .ofNat n => decimal n
  | .negSucc n => '-' :: decimal (n + 1)

end Text
end PageAssembly
