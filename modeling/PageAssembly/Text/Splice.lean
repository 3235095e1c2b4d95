/-
  PageAssembly/Text/Splice.lean
  =============================
  **Replacing several parts of a text at once.**

  An edit puts a text in the place of a part given by its offsets.  `splice` applies
  edits that are listed from left to right and do not overlap, in one walk over the
  text; every offset counts in the text as it was before.  `Edit.apply` is the same
  for one edit alone, so a list of edits may also be applied from the last to the
  first.
-/
import PageAssembly.Text.Basic

namespace PageAssembly

/-- A replacement for the part of a text between two offsets. -/
structure Edit where
  start : Nat
  stop : Nat
  replacement : Text
deriving DecidableEq, Repr

/-- The text with one part replaced. -/
def Edit.apply (e : Edit) (s : Text) : Text := s.take e.start ++ e.replacement ++ s.drop e.stop

namespace Text

/-- The rest `s` of a text from offset `cursor` on, with all edits done. -/
def spliceFrom (cursor : Nat) (s : Text) : List Edit → Text
  | [] => s
  | e :: es =>
    s.take (e.start - cursor) ++ e.replacement ++ spliceFrom e.stop (s.drop (e.stop - cursor)) es

/-- The text with all edits done. -/
def splice (s : Text) (edits : List Edit) : Text := spliceFrom 0 s edits

@[simp] theorem splice_nil (s : Text) : splice s [] = s := rfl

theorem splice_singleton (s : Text) (e : Edit) : splice s [e] = e.apply s := by
  simp [splice, spliceFrom, Edit.apply]

end Text
end PageAssembly
