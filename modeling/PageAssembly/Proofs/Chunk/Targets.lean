/-
  PageAssembly/Proofs/Chunk/Targets.lean
  ======================================
  **The search for an id finds the placeholders that ask for the same, and no others.**

  An id joins the kind of a directive, a collection and a number.  No kind has a hyphen in its
  word, and no number has one in its digits, so the three can be told apart again, whatever the
  collection is (`Progressive.id_eq_iff`).  The shown key of a chunk joins a collection and a
  number by a colon, and says as much (`ChunkKey.shown_injective`).

  So in the placeholder of a directive the search for another one's id matches exactly if both
  have the same target, and then it takes all of the placeholder (`find_placeholder_iff`).
-/
import PageAssembly.Chunk.Delivery
import PageAssembly.Proofs.Chunk.Placeholders

namespace PageAssembly

/-! ### Keys -/

theorem Text.not_mem_decimalInt {c : Char} (h : c ∉ "-0123456789".toList) (n : Int) :
    c ∉ decimalInt n := by
  have hdigits : ∀ m : Nat, c ∉ decimal m := fun m hm => h (List.mem_cons_of_mem '-' (Verbatim.mem_decimal hm))
  cases n with
  | ofNat m => exact hdigits m
  | negSucc m =>
    rw [decimalInt, List.mem_cons, not_or]
    exact ⟨fun hc => h (hc ▸ List.mem_cons_self), hdigits (m + 1)⟩

theorem Text.decimalInt_injective {m n : Int} (h : decimalInt m = decimalInt n) : m = n := by
  have hsign : ∀ (k : Nat) (s : Text), decimal k ≠ '-' :: s := by
    intro k s hk
    exact absurd (Verbatim.mem_decimal (hk ▸ List.mem_cons_self)) (by decide)
  cases m with
  | ofNat m =>
    cases n with
    | ofNat n => rw [decimal_injective h]
    | negSucc n => exact absurd h (hsign m _)
  | negSucc m =>
    cases n with
    | ofNat n => exact absurd h.symm (hsign n _)
    | negSucc n => rw [Nat.succ.inj (decimal_injective (List.cons.inj h).2)]

/-- Chunks with the same shown key are the same chunk. -/
theorem ChunkKey.shown_injective {k l : ChunkKey} (h : k.shown = l.shown) : k = l := by
  obtain ⟨hcollection, hindex⟩ := Text.append_cons_inj_last (Text.not_mem_decimalInt (by decide) _)
    (Text.not_mem_decimalInt (by decide) _) h
  cases k
  cases l
  rw [ChunkKey.mk.injEq]
  exact ⟨hcollection, Text.decimalInt_injective hindex⟩

/-! ### Ids -/

/-- What a directive asks for: its kind, the collection, and the number of the first chunk. -/
def Progressive.target : Progressive → Directive.Kind × Text × Nat
  | .chunk c => (.chunk, c.collection, c.index)
  | .continuation c => (.continuation, c.collection, c.first)

namespace Progressive

theorem id_eq (p : Progressive) :
    p.id = p.target.1.word ++ '-' :: (p.target.2.1 ++ '-' :: Text.decimal p.target.2.2) := by
  cases p with
  | chunk c => exact List.append_assoc "chunk-".toList c.collection _
  | continuation c => exact List.append_assoc "continue-".toList c.collection _

/-- Directives have one id exactly if they ask for the same. -/
theorem id_eq_iff {a b : Progressive} : a.id = b.id ↔ a.target = b.target := by
  have hword : ∀ k : Directive.Kind, '-' ∉ k.word := by
    intro k
    cases k <;> decide
  have hkind : ∀ k l : Directive.Kind, k.word = l.word → k = l := by
    intro k l
    cases k <;> cases l <;> decide
  constructor
  · intro h
    rw [id_eq, id_eq] at h
    obtain ⟨hwords, hrest⟩ := Text.append_cons_inj (hword _) (hword _) h
    obtain ⟨hcollection, hnumber⟩ := Text.numbered_inj hrest
    exact Prod.ext (hkind _ _ hwords) (Prod.ext hcollection hnumber)
  · intro h
    rw [id_eq, id_eq, h]

/-- Chunks are asked for alike exactly if their shown keys are one. -/
theorem chunk_target_iff {c d : Chunk} :
    (chunk c).target = (chunk d).target ↔ c.key.shown = d.key.shown := by
  constructor
  · intro h
    obtain ⟨hcollection, hindex⟩ := Prod.mk.inj (Prod.mk.inj h).2
    rw [Chunk.key, Chunk.key, hcollection, hindex]
  · intro h
    obtain ⟨hcollection, hindex⟩ := ChunkKey.mk.inj (ChunkKey.shown_injective h)
    rw [target, target, hcollection, Int.ofNat.inj hindex]

end Progressive

namespace Placeholder

open Pattern

/-- The search for an id in a placeholder takes all of it or finds nothing. -/
theorem find_withId (d e : Deferred) :
    (withId e.id).find d.placeholder =
      if d.id = e.id then [⟨0, d.placeholder.length, d.placeholder, ()⟩] else [] := by
  have hpieces := pieces_withId_placeholder d e []
  rw [List.append_nil, pieces_nil, List.append_nil] at hpieces
  rw [find, hpieces]
  by_cases h : d.id = e.id
  · rw [if_pos h, if_pos h, locate, Nat.zero_add, locate]
  · rw [if_neg h, if_neg h, locate_letters]

/-- The search for the id of a directive matches in a placeholder exactly if both ask for the same:
    the same kind, collection and number.  Then the match is the whole placeholder.  For chunks this
    is so exactly if they have the same key. -/
theorem find_placeholder_iff (a b : Progressive) :
    ((withId a.id).find b.placeholder ≠ [] ↔ a.target = b.target) ∧
      (a.target = b.target →
        (withId a.id).find b.placeholder = [⟨0, b.placeholder.length, b.placeholder, ()⟩]) ∧
      ∀ c d : Chunk, a = .chunk c → b = .chunk d →
        (a.target = b.target ↔ c.key.shown = d.key.shown) := by
  have hfind : (withId a.id).find b.placeholder =
      if a.target = b.target then [⟨0, b.placeholder.length, b.placeholder, ()⟩] else [] := by
    have hsame : b.id = a.id ↔ a.target = b.target := eq_comm.trans Progressive.id_eq_iff
    rw [← if_congr hsame rfl rfl]
    exact find_withId (.progressive b) (.progressive a)
  refine ⟨?_, fun h => ?_, fun c d ha hb => ?_⟩
  · rw [hfind]
    by_cases h : a.target = b.target
    · simp [h]
    · simp [h]
  · rw [hfind, if_pos h]
  · rw [ha, hb]
    exact Progressive.chunk_target_iff

end Placeholder
end PageAssembly
