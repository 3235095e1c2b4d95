/-
  PageAssembly/Text/Pattern.lean
  ==============================
  **Searching a text for a pattern, from left to right.**

  A pattern says what it reads off the front of a text.  A search tries it at every
  position, goes on behind each match, and so cuts the text into pieces: single
  characters where nothing matched, and matches with their source text.  Everything
  else (positions, substitution) is read off the pieces.

  A match is never empty, which the pattern carries as a proof; so the search is a
  plain recursion on the text that skips what a match has taken.

  Main statements: `pieces_cons_none` and `pieces_append` (the search, one piece at a
  time), `search_induction` (induction along a search), `sources_pieces` (the pieces join to
  the text).
-/
import PageAssembly.Text.Basic

namespace PageAssembly

/-- What a pattern reads off the front of a text: a value, and the text behind the match. -/
structure Pattern (α : Type) where
  read : Text → Option (α × Text)
  nonempty : ∀ {s : Text} {a : α} {r : Text}, read s = some (a, r) → ∃ w : Text, w ≠ [] ∧ s = w ++ r

/-- What is left of a text's tail is left behind a match that holds the first character. -/
theorem nonempty_of_suffix {c : Char} {s r : Text} (h : r <:+ s) :
    ∃ w : Text, w ≠ [] ∧ c :: s = w ++ r := by
  obtain ⟨w, rfl⟩ := h
  exact ⟨c :: w, by simp, rfl⟩

/-- A piece of a searched text. -/
inductive Piece (α : Type) where
  | plain (c : Char)
  | hit (source : Text) (value : α)
deriving DecidableEq, Repr

/-- The part of the text that a piece covers. -/
def Piece.source : Piece α → Text
  | .plain c => [c]
  | .hit w _ => w

/-- A value with the place it was read from: its offsets and its source text. -/
structure Located (α : Type) where
  start : Nat
  stop : Nat
  source : Text
  value : α
deriving DecidableEq, Repr

/-- The same place with another value, where there is one. -/
def Located.filterMap (f : α → Option β) (m : Located α) : Option (Located β) :=
  (f m.value).map fun b => ⟨m.start, m.stop, m.source, b⟩

namespace Pattern

variable {α : Type}

/-! ### Searching -/

/-- The pieces of the text behind its first `skip` characters. -/
def piecesFrom (p : Pattern α) : Nat → Text → List (Piece α)
  | _, [] => []
  | k + 1, _ :: s => piecesFrom p k s
  | 0, c :: s =>
    match p.read (c :: s) with
    | none => .plain c :: piecesFrom p 0 s
    | some (a, r) =>
      .hit ((c :: s).take ((c :: s).length - r.length)) a :: piecesFrom p (s.length - r.length) s

/-- The pieces of a text: leftmost matches first, each search going on behind the last match. -/
def pieces (p : Pattern α) (s : Text) : List (Piece α) := p.piecesFrom 0 s

/-- The matches among pieces, the first of which stands at `offset`. -/
def locate (offset : Nat) : List (Piece α) → List (Located α)
  | [] => []
  | .plain _ :: ps => locate (offset + 1) ps
  | .hit w a :: ps => ⟨offset, offset + w.length, w, a⟩ :: locate (offset + w.length) ps

/-- All matches in the text, in order. -/
def find (p : Pattern α) (s : Text) : List (Located α) := locate 0 (p.pieces s)

/-- The text with each match replaced by what `f` makes of its source and value. -/
def substitute (p : Pattern α) (f : Text → α → Text) (s : Text) : Text :=
  (p.pieces s).flatMap fun
    | .plain c => [c]
    | .hit w a => f w a

/-! ### One piece at a time -/

theorem piecesFrom_eq_drop (p : Pattern α) (k : Nat) (s : Text) :
    p.piecesFrom k s = p.pieces (s.drop k) := by
  induction s generalizing k with
  | nil => cases k <;> simp [piecesFrom, pieces]
  | cons c s ih =>
    cases k with
    | zero => rfl
    | succ k => simpa [piecesFrom] using ih k

@[simp] theorem pieces_nil (p : Pattern α) : p.pieces [] = [] := rfl

theorem read_nil (p : Pattern α) : p.read [] = none := by
  refine Option.eq_none_iff_forall_not_mem.2 fun m hm => ?_
  obtain ⟨w, hw, hnil⟩ := p.nonempty (Option.mem_def.1 hm)
  exact hw (List.append_eq_nil_iff.1 hnil.symm).1

theorem pieces_cons_none (p : Pattern α) {c : Char} {s : Text} (h : p.read (c :: s) = none) :
    p.pieces (c :: s) = .plain c :: p.pieces s := by
  simp [pieces, piecesFrom, h]

theorem pieces_append (p : Pattern α) {w r : Text} {a : α} (h : p.read (w ++ r) = some (a, r)) :
    p.pieces (w ++ r) = .hit w a :: p.pieces r := by
  cases w with
  | nil =>
    obtain ⟨w, hw, hs⟩ := p.nonempty h
    exact absurd (by simpa using hs) hw
  | cons c w =>
    have h' : p.read (c :: (w ++ r)) = some (a, r) := h
    have hk : (c :: (w ++ r)).length - r.length = (c :: w).length := by simp; omega
    have hj : (w ++ r).length - r.length = w.length := by simp
    simp only [List.cons_append, pieces, piecesFrom, h', hk, hj]
    rw [piecesFrom_eq_drop]
    simp [pieces]

/-- A search, one piece at a time: the text is empty, or nothing is read in front of its first
    character, or a match stands at its front. -/
@[elab_as_elim]
theorem search_induction (p : Pattern α) {motive : Text → Prop} (nil : motive [])
    (plain : ∀ c s, p.read (c :: s) = none → motive s → motive (c :: s))
    (hit : ∀ w a r, w ≠ [] → p.read (w ++ r) = some (a, r) → motive r → motive (w ++ r)) (s : Text) :
    motive s := by
  -- Strong induction on the length, since a match may take many characters.
  induction hn : s.length using Nat.strongRecOn generalizing s with
  | ind n ih =>
    cases s with
    | nil => exact nil
    | cons c s =>
      have hcons : (c :: s).length = s.length + 1 := List.length_cons
      cases hread : p.read (c :: s) with
      | none => exact plain c s hread (ih s.length (by omega) s rfl)
      | some m =>
        obtain ⟨a, r⟩ := m
        obtain ⟨w, hw, hs⟩ := p.nonempty hread
        have hpos : 0 < w.length := List.length_pos_iff.2 hw
        rw [hs] at hread hn ⊢
        rw [List.length_append] at hn
        exact hit w a r hw hread (ih r.length (by omega) r rfl)

theorem sources_pieces (p : Pattern α) (s : Text) : (p.pieces s).flatMap Piece.source = s := by
  induction s using p.search_induction with
  | nil => rfl
  | plain c s hnone ih => rw [pieces_cons_none p hnone, List.flatMap_cons, ih, Piece.source, List.singleton_append]
  | hit w a r hw hread ih => rw [pieces_append p hread, List.flatMap_cons, ih, Piece.source]

end Pattern
end PageAssembly
