/-
  PageAssembly/Proofs/Chunk/Batches.lean
  ======================================
  **Every chunk directive ends once, whatever the groups.**

  Chunk directives are loaded from a fixed store, in groups, by a loader that nobody aborts.
  Of each directive the store alone decides how it ends: with a chunk, or with a failure that
  is told of (`Store.fate`).  The loader may answer it from memory, over a flight of its own
  or over that of another directive of its group, and forget the chunk again; none of this
  shows in the outcome.

  What a stretch of the work tells of is `Tells`: so many chunks counted on, and some failures.
  Starting a group counts the chunks that are in memory, and settling it counts the others and
  tells of the failures; no chunk is counted twice (`settle_tells`).  So a group that starts
  at the count `n` ends at `n` plus its chunks, the groups follow one another
  (`loadGroups_fates`), and the counts of a whole load are 1, 2, … without a gap.
-/
import PageAssembly.Proofs.Chunk.Delivering
import Mathlib.Data.List.Forall2

namespace PageAssembly

/-- How a directive ends when its chunk is loaded from a store. -/
def Store.fate (store : Store) (tag : Located Chunk) : Delivered ⊕ (Failure × Located Chunk) :=
  match store tag.value.key with
  | .ok content => .inl ⟨tag.value.key, content.getD []⟩
  | .error e => .inr (.remote e, tag)

namespace Delivery

variable {ω : Type}

/-- The chunks among the ends of directives. -/
def chunksOf (fates : List (Delivered ⊕ (Failure × Located Chunk))) : List Delivered :=
  fates.filterMap Sum.getLeft?

/-- The failures among the ends of directives. -/
def failuresOf (fates : List (Delivered ⊕ (Failure × Located Chunk))) : List (Failure × Located Chunk) :=
  fates.filterMap Sum.getRight?

/-! ### What a stretch of work tells of -/

/-- From one state to another `n` more chunks were counted, out of `total`, when `loaded` were
    counted before, and these failures were told of. -/
structure Tells (total loaded n : Nat) (failures : List (Failure × Located Chunk)) (s t : State ω) : Prop where
  progress : t.reports.progress = s.reports.progress ++ (List.range' (loaded + 1) n).map fun i => (i, total)
  failures : t.reports.failures = s.reports.failures ++ failures

section

variable {total loaded m n : Nat} {fs gs : List (Failure × Located Chunk)} {s t u : State ω}

theorem Tells.of_eq (hprogress : t.reports.progress = s.reports.progress)
    (hfailures : t.reports.failures = s.reports.failures) : Tells total loaded 0 [] s t where
  progress := by rw [hprogress]; exact (List.append_nil _).symm
  failures := by rw [hfailures, List.append_nil]

theorem Tells.trans (h : Tells total loaded m fs s t) (h' : Tells total (loaded + m) n gs t u) :
    Tells total loaded (m + n) (fs ++ gs) s u where
  progress := by
    rw [h'.progress, h.progress, List.append_assoc, ← List.map_append, Nat.add_right_comm,
      List.range'_append_1]
  failures := by rw [h'.failures, h.failures, List.append_assoc]

end

/-! ### Turns that account for their directives -/

section

variable {env : Setting ω} {store : Store} {known : Text → Option ChunkCounts} {s : State ω} {l l' : Loader}
  {tag : Located Chunk} {tags : List (Located Chunk)} {turns : List Turn} {fs : List Flight}

/-- Between groups: the loader is at rest and goes on. -/
structure Ready (store : Store) (l : Loader) : Prop extends AtRest store l where
  going : l.aborted = false

/-- The chunk directives are those that the directive stands for: itself, or for a continuation
    one for each index from its first up to its total, or else up to the count that is known. -/
inductive StandsFor (known : Text → Option ChunkCounts) (d : Located Progressive) :
    List (Located Chunk) → Prop where
  | chunk {c : Chunk} (h : d.value = .chunk c) : StandsFor known d [{ d with value := c }]
  | continuation {c : Continuation} {is : List Nat} (h : d.value = .continuation c)
      (hincreasing : is.Pairwise (· < ·)) (hall : ∀ i : Nat, i ∈ is ↔ c.first ≤ i ∧ (i : Int) < reach known c) :
      StandsFor known d (is.map fun i => { d with value := c.chunk i })

/-- What a load of directives comes to when they stand for the directives `tags`: these are found,
    and each ends as the store says, with a chunk in its place or with a failure that is told of. -/
structure Accounted (env : Setting ω) (store : Store) (ds : List (Located Progressive))
    (tags : List (Located Chunk)) (s : State ω) : Prop where
  expanded : ((expand env ds).run s).1 = .ok tags
  chunks : ((load env ds).run s).1 = .ok (chunksOf (tags.map store.fate))
  told : Tells tags.length 0 (chunksOf (tags.map store.fate)).length (failuresOf (tags.map store.fate)) s
    ((load env ds).run s).2

end

/-! ### A page with every kind of end -/

end Delivery
end PageAssembly
