/-
  PageAssembly/Proofs/Inclusion/Depth.lean
  ========================================
  **The bound on the nesting shows only where it is reached.**

  Resolution is closed by a bound on how deep includes may be nested.  A pass that ends
  under one bound does the same under every higher bound (`run_eq_of_le`): the calls, the
  cache and the result.  So it says that the includes of a page come to an end, to say that
  some bound is enough.
-/
import PageAssembly.Proofs.Inclusion.Work

namespace PageAssembly.Resolution

variable {ω τ α β : Type}

/-- Where the first piece of work gives something, the second does the same. -/
def Within (m m' : Work ω τ α) : Prop := ∀ p a, (m.run p).1 = .ok a → m'.run p = m.run p

namespace Within

theorem refl (m : Work ω τ α) : Within m m := fun _ _ _ => rfl

theorem throw (e : Failure) (m : Work ω τ α) : Within (MonadExcept.throw e) m := by
  rintro p a ⟨⟩

theorem bind {m m' : Work ω τ α} {f f' : α → Work ω τ β} (hm : Within m m')
    (hf : ∀ a, Within (f a) (f' a)) : Within (m >>= f) (m' >>= f') := by
  intro p b hb
  rw [bind_run] at hb ⊢
  rw [bind_run]
  rcases hmp : m.run p with ⟨_ | a, q⟩
  · rw [hmp] at hb
    cases hb
  · rw [hmp] at hb
    rw [hm p a (by rw [hmp]), hmp]
    exact hf a q b hb

end Within

theorem outcomes_within {one one' : Planned → Work ω τ Outcome} (h : ∀ p, Within (one p) (one' p))
    (known : OrderedMap Text Outcome) (ps : List Planned) :
    Within (outcomes one known ps) (outcomes one' known ps) := by
  induction ps generalizing known with
  | nil => exact .refl _
  | cons p ps ih =>
    unfold outcomes
    cases known.get? p.key with
    | some o => exact (ih _).bind fun _ => .refl _
    | none => exact (h p).bind fun o => (ih _).bind fun _ => .refl _

section

variable [Sub τ] [LT τ] [DecidableLT τ] {document document' : Document ω τ}

theorem outcome_within
    (h : ∀ s contract above aliases,
      Within (document s contract above aliases) (document' s contract above aliases))
    (env : Setting ω τ) (above : List Text) (aliases : Aliases) (p : Planned) :
    Within (outcome document env above aliases p) (outcome document' env above aliases p) := by
  unfold outcome
  split
  · exact .refl _
  · refine (Within.refl _).bind fun o => ?_
    cases o with
    | some c => exact .refl _
    | none =>
      refine (Within.refl _).bind fun x => ?_
      cases x with
      | error e =>
        cases e with
        | remote e => exact .refl _
        | _ => exact .throw _ _
      | ok raw => exact (h raw p.target (p.key :: above) aliases).bind fun _ => .refl _

theorem resolveWith_within
    (h : ∀ s contract above aliases,
      Within (document s contract above aliases) (document' s contract above aliases))
    (env : Setting ω τ) (s contract : Text) (above : List Text) (aliases : Aliases) :
    Within (resolveWith document env s contract above aliases)
      (resolveWith document' env s contract above aliases) :=
  (Within.refl _).bind fun _ =>
    (outcomes_within (outcome_within h env above _) _ _).bind fun _ => .refl _

theorem resolve_within (env : Setting ω τ) {n m : Nat} (hm : n ≤ m) (s contract : Text)
    (above : List Text) (aliases : Aliases) :
    Within (resolve env n s contract above aliases) (resolve env m s contract above aliases) := by
  induction n generalizing m s contract above aliases with
  | zero => exact .throw _ _
  | succ n ih =>
    obtain ⟨m, rfl⟩ : ∃ k, m = k + 1 := ⟨m - 1, by omega⟩
    exact resolveWith_within (ih (by omega)) env s contract above aliases

/-- A pass that ends under one bound does the same under every higher bound. -/
theorem run_eq_of_le {env : Setting ω τ} {n m : Nat} {s contract : Text} {aliases : Aliases}
    {d : Desk ω τ} {r : Resolution} (h : (run env n s contract aliases d).1 = .ok r) (hm : n ≤ m) :
    run env m s contract aliases d = run env n s contract aliases d := by
  have hsame := resolve_within env hm s contract [] aliases { d with fetched := OrderedMap.empty } r h
  simp only [run, hsame]

end

end PageAssembly.Resolution
