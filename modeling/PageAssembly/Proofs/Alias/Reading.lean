/-
  PageAssembly/Proofs/Alias/Reading.lean
  ======================================
  **What a page defines, and what it shows, whatever its tokens are.**

  Alias directives are looked for in the masked page, so the token that is drawn for the
  page could have a say in what it defines.  It has none as long as no protected block
  lies inside a directive.  `own` and `body` are what the page defines and what is left of
  it when its blocks are shown as low lines; a page is *alike* when all tokens lead to
  the same.
-/
import PageAssembly.Proofs.Alias.Stripping
import PageAssembly.Proofs.Inclusion.Page

namespace PageAssembly

theorem Verbatim.signs_eq_letters {s : Text} (h : spans s = []) : signs s = s.map .letter := by
  rw [signs, h]
  rfl

theorem Signs.outside_letters (v v' : Veil) (gone : Nat → Bool) (offset : Nat) (s : Text) :
    outside v gone offset (s.map .letter) = outside v' gone offset (s.map .letter) := by
  induction s generalizing offset with
  | nil => rfl
  | cons c s ih =>
    simp only [List.map_cons, outside, Sign.veiled, ih]

namespace Alias

/-- The aliases that a page defines, when its blocks are shown as low lines. -/
def own (s : Text) : Aliases := defined ((Verbatim.signs s).veiled Veil.bar)

/-- The signs of a page that lie in no alias directive, when its blocks are shown as low lines. -/
def body (s : Text) : Signs :=
  Signs.outside Veil.bar (gone (pattern.find ((Verbatim.signs s).veiled Veil.bar))) 0
    (Verbatim.signs s)

/-- With every token the page defines the same aliases and keeps the same signs, and none of
    its blocks lies inside an include. -/
structure Alike (token : Nat → Text) (s : Text) : Prop where
  defined_eq : ∀ n, defined (Verbatim.mask (token n) s) = own s
  left_eq : ∀ n, left (token n) s = body s
  apart : (body s).Apart

theorem Alike.of_no_block {token : Nat → Text} {s : Text} (h : Verbatim.spans s = [])
    (hapart : (body s).Apart) : Alike token s := by
  have hsigns := Verbatim.signs_eq_letters h
  have hmask : ∀ t, Verbatim.mask t s = (Verbatim.signs s).veiled Veil.bar := by
    intro t
    rw [Verbatim.mask_eq_veiled, hsigns, Signs.veiled_letters, Signs.veiled_letters]
  constructor
  · intro n
    rw [hmask]
    rfl
  · intro n
    rw [left, body, hmask, hsigns]
    exact Signs.outside_letters _ _ _ _ _
  · exact hapart

end Alias
end PageAssembly
