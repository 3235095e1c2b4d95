/-
  PageAssembly/Proofs/Verbatim/Stretches.lean
  ===========================================
  **Searching a page whose blocks are veiled.**

  A pattern is searched for in the masked page, but what it finds should depend on the
  page alone.  A stretch is a piece of the search in terms of signs: one sign in which
  nothing starts, or all signs of a match with its value under each veil.  A pattern is
  *steady* where it either fails under all veils, or reads the same signs under all
  veils.  If it is steady everywhere, one list of stretches describes the search under
  all veils at once (`exists_stretches`).

  Under the bar every sign is one character, so the stretches can be computed from the
  search under the bar (`align_pieces`).
-/
import PageAssembly.Proofs.Text.Weaving
import PageAssembly.Proofs.Verbatim.Signs

namespace PageAssembly

variable {α β : Type}

/-- A part of a searched page: a sign in which no match starts, or the signs of a match. -/
inductive Stretch (β : Type) where
  | plain (x : Sign)
  | hit (signs : Signs) (value : β)

namespace Stretch

def signs : Stretch β → Signs
  | .plain x => [x]
  | .hit g _ => g

def map (f : α → β) : Stretch α → Stretch β
  | .plain x => .plain x
  | .hit g a => .hit g (f a)

/-- The pieces of the search under a veil. -/
def pieces (v : Veil) : Stretch (Veil → α) → List (Piece α)
  | .plain x => (x.veiled v).map Piece.plain
  | .hit g a => [.hit (g.veiled v) (a v)]

/-- The pieces of a search in which every sign was one character, along the signs. -/
def align : List (Piece α) → Signs → List (Stretch α)
  | [], _ => []
  | .plain _ :: ps, g => g.head?.toList.map Stretch.plain ++ align ps g.tail
  | .hit w a :: ps, g => .hit (g.take w.length) a :: align ps (g.drop w.length)

end Stretch

/-- The pattern finds nothing where the page starts, under any of the veils. -/
def Pattern.Passes (p : Pattern α) (V : Veil → Prop) (x : Sign) (g : Signs) : Prop :=
  ∀ v, V v → ∀ z : Text, z ≠ [] → z <:+ x.veiled v → p.read (z ++ g.veiled v) = none

/-- The pattern reads some signs off the page, the same under all of the veils; of the
    signs and the value `Q` holds. -/
def Pattern.Takes (p : Pattern α) (V : Veil → Prop) (Q : Signs → (Veil → α) → Prop) (g : Signs) :
    Prop :=
  ∃ (h r : Signs) (a : Veil → α), h ≠ [] ∧ g = h ++ r ∧ Q h a ∧
    ∀ v, V v → p.read (g.veiled v) = some (a v, r.veiled v)

theorem Sign.eq_of_suffix_letter {v : Veil} {c : Char} {z : Text} (hz : z ≠ [])
    (h : z <:+ (Sign.letter c).veiled v) : z = [c] := by
  rcases List.suffix_cons_iff.1 h with h | h
  · exact h
  · exact absurd (List.suffix_nil.1 h) hz

/-- What starts inside a block does not start with a character that no veil has. -/
theorem Veil.Wordlike.append_ne_cons {v : Veil} (hv : v.Wordlike) {c : Char}
    (hc : c ∉ Veil.characters) {n : Nat} {z s t : Text} (hz : z ≠ []) (h : z <:+ v n) :
    z ++ s ≠ c :: t := by
  obtain ⟨e, z, rfl⟩ := List.exists_cons_of_ne_nil hz
  intro heq
  obtain rfl : e = c := (List.cons.inj heq).1
  exact hv.not_mem hc n (h.subset List.mem_cons_self)

/-- One list of stretches describes the search under all of the veils. -/
theorem Pattern.exists_stretches (p : Pattern α) {V : Veil → Prop} {Q : Signs → (Veil → α) → Prop}
    (steady : ∀ x g, p.Passes V x g ∨ p.Takes V Q (x :: g)) (g : Signs) :
    ∃ ss : List (Stretch (Veil → α)), ss.flatMap Stretch.signs = g ∧
      (∀ h a, Stretch.hit h a ∈ ss → Q h a) ∧
      ∀ v, V v → p.pieces (g.veiled v) = ss.flatMap (Stretch.pieces v) := by
  -- On the number of signs, since a match may take any number of them; the pattern takes the same
  -- signs under all the veils, so one list of stretches serves them all.
  induction hn : g.length using Nat.strongRecOn generalizing g with
  | ind n ih =>
    cases g with
    | nil => exact ⟨[], rfl, by simp, fun v _ => rfl⟩
    | cons x g =>
      rcases steady x g with hpass | ⟨h, r, a, hne, hg, hQ, hread⟩
      · obtain ⟨ss, hss, hhits, hpieces⟩ := ih g.length (by simp at hn; omega) g rfl
        refine ⟨.plain x :: ss, by simp [Stretch.signs, hss], ?_, ?_⟩
        · intro h a hmem
          rcases List.mem_cons.1 hmem with heq | hmem
          · cases heq
          · exact hhits h a hmem
        · intro v hv
          rw [Signs.veiled_cons, p.pieces_append_of_none (hpass v hv), hpieces v hv]
          rfl
      · have hpos : 0 < h.length := List.length_pos_iff.2 hne
        have hlen : r.length < n := by
          rw [← hn, hg, List.length_append]
          omega
        obtain ⟨ss, hss, hhits, hpieces⟩ := ih r.length hlen r rfl
        refine ⟨.hit h a :: ss, by simp [Stretch.signs, hss, hg], ?_, ?_⟩
        · intro h' a' hmem
          rcases List.mem_cons.1 hmem with heq | hmem
          · cases heq
            exact hQ
          · exact hhits h' a' hmem
        · intro v hv
          have hv' := hread v hv
          rw [hg, Signs.veiled_append] at hv' ⊢
          rw [p.pieces_append hv', hpieces v hv]
          rfl

theorem Signs.length_veiled_bar (g : Signs) : (g.veiled Veil.bar).length = g.length := by
  induction g with
  | nil => rfl
  | cons x g ih =>
    cases x with
    | letter c => simpa [Sign.veiled] using ih
    | block n inner => simpa [Sign.veiled, Veil.bar] using ih

/-- The stretches are found again from the search under the bar. -/
theorem Stretch.align_pieces (ss : List (Stretch (Veil → α))) :
    Stretch.align (ss.flatMap (Stretch.pieces Veil.bar)) (ss.flatMap Stretch.signs) =
      ss.map (Stretch.map fun a => a Veil.bar) := by
  induction ss with
  | nil => rfl
  | cons s ss ih =>
    cases s with
    | plain x =>
      have hone : ∃ c, x.veiled Veil.bar = [c] := by
        cases x with
        | letter c => exact ⟨c, rfl⟩
        | block n inner => exact ⟨'_', rfl⟩
      obtain ⟨c, hc⟩ := hone
      simp [Stretch.pieces, Stretch.signs, hc, Stretch.align, Stretch.map, ih]
    | hit g a =>
      simp [Stretch.pieces, Stretch.signs, Stretch.align, Stretch.map, Signs.length_veiled_bar, ih]

end PageAssembly
