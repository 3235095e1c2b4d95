/-
  PageAssembly/Text/Terminal.lean
  ===============================
  **Control sequences of terminals.**

  An escape character and an opening square bracket start a control sequence: then come
  parameters, then intermediate characters, and one final character.  What is printed
  to something that is no terminal goes without them, in one pass; whatever starts like
  a sequence and does not end like one stays.
-/
import PageAssembly.Text.Pattern

namespace PageAssembly.Terminal

/-- Whether the code point lies between two others. -/
def lies (first last : Nat) (c : Char) : Bool := first ≤ c.toNat && c.toNat ≤ last

/-- A parameter of a control sequence. -/
def isParameter : Char → Bool := lies 0x30 0x3f

/-- A character between the parameters and the final character. -/
def isIntermediate : Char → Bool := lies 0x20 0x2f

/-- The last character of a control sequence. -/
def isFinal : Char → Bool := lies 0x40 0x7e

/-- The text behind a control sequence's end, behind its opening. -/
def readEnd (s : Text) : Option Text :=
  match (s.dropWhile isParameter).dropWhile isIntermediate with
  | c :: r => if isFinal c then some r else none
  | [] => none

/-- A control sequence, and the text behind it. -/
def readSequence : Text → Option (Unit × Text)
  | '\x1b' :: '[' :: s => (readEnd s).map fun r => ((), r)
  | _ => none

theorem suffix_of_readEnd {s r : Text} (h : readEnd s = some r) : r <:+ s := by
  simp only [readEnd] at h
  split at h
  · next c t ht =>
    split at h
    · cases h
      have hs : c :: r <:+ s :=
        ht ▸ (List.dropWhile_suffix _).trans (List.dropWhile_suffix _)
      exact (List.suffix_cons c r).trans hs
    · cases h
  · cases h

def sequences : Pattern Unit where
  read := readSequence
  nonempty := by
    intro s a r h
    unfold readSequence at h
    split at h
    · simp only [Option.map_eq_some_iff, Prod.mk.injEq] at h
      obtain ⟨t, ht, _, rfl⟩ := h
      exact nonempty_of_suffix ((suffix_of_readEnd ht).trans (List.suffix_cons _ _))
    · cases h

/-- The text without control sequences. -/
def plain (s : Text) : Text := sequences.substitute (fun _ _ => []) s

end PageAssembly.Terminal
