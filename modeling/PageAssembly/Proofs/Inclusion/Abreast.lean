/-
  PageAssembly/Proofs/Inclusion/Abreast.lean
  ==========================================
  **Two passes over one page, side by side.**

  Two passes over the same page make the same calls, one after another, if the cache is
  fresh for the same keys (`run_abreast`).  What the entries say does not matter: a cached
  content is not read for further includes.  Nor does it matter how often the clock was
  read, as long as it stands still, and what happened at the host before, if its answers
  are fixed.

  The tokens matter only where a block lies inside a directive.  So either both passes draw
  the same ones, or all pages read alike under all tokens.
-/
import PageAssembly.Proofs.Alias.Reading
import PageAssembly.Proofs.Inclusion.Calls
import PageAssembly.Proofs.Inclusion.Stock

namespace PageAssembly

/-- Whatever was called before, the host gives every call the same answer. -/
def Host.AnswersAs {ω : Type} (h : Host ω) (answers : Call → Except RemoteFailure Text) : Prop :=
  ∀ c w, Host.content c (h.answer c w).1 = (answers c).mapError Failure.remote

namespace Resolution

open Verbatim (IsToken)

variable {ω τ α β γ δ : Type}

/-! ### Work side by side -/

/-- Both gave something, which `T` relates, or both broke off in the same way. -/
inductive Both (T : α → β → Prop) : Except Failure α → Except Failure β → Prop
  | ok {a : α} {b : β} : T a b → Both T (.ok a) (.ok b)
  | error (e : Failure) : Both T (.error e) (.error e)

/-- Started in states that `S` relates, both pieces of work leave such states, and what they give
    is related by `T`. -/
def Abreast (S : Pass ω τ → Pass ω τ → Prop) (T : α → β → Prop) (m : Work ω τ α) (m' : Work ω τ β) : Prop :=
  ∀ q q', S q q' → S (m.run q).2 (m'.run q').2 ∧ Both T (m.run q).1 (m'.run q').1

namespace Abreast

variable {S : Pass ω τ → Pass ω τ → Prop} {T : α → β → Prop} {U : γ → δ → Prop} {m : Work ω τ α}
  {m' : Work ω τ β}

theorem pure {a : α} {b : β} (h : T a b) :
    Abreast S T (Pure.pure a : Work ω τ α) (Pure.pure b : Work ω τ β) :=
  fun _ _ hq => ⟨hq, .ok h⟩

theorem throw (e : Failure) :
    Abreast S T (MonadExcept.throw e : Work ω τ α) (MonadExcept.throw e : Work ω τ β) :=
  fun _ _ hq => ⟨hq, .error e⟩

theorem bind {f : α → Work ω τ γ} {f' : β → Work ω τ δ} (hm : Abreast S T m m')
    (hf : ∀ a b, T a b → Abreast S U (f a) (f' b)) : Abreast S U (m >>= f) (m' >>= f') := by
  intro q q' hq
  obtain ⟨hstates, hgives⟩ := hm q q' hq
  rw [bind_run, bind_run]
  rcases hrun : m.run q with ⟨x, r⟩
  rcases hrun' : m'.run q' with ⟨x', r'⟩
  rw [hrun, hrun'] at hstates hgives
  cases hgives with
  | ok hab => exact hf _ _ hab r r' hstates
  | error e => exact ⟨hstates, .error e⟩

theorem lift {m : StateM (Pass ω τ) α} {m' : StateM (Pass ω τ) β}
    (h : ∀ q q', S q q' → S (m q).2 (m' q').2 ∧ T (m q).1 (m' q').1) :
    Abreast S T (ExceptT.lift m : Work ω τ α) (ExceptT.lift m' : Work ω τ β) := by
  intro q q' hq
  obtain ⟨hstates, hgives⟩ := h q q' hq
  exact ⟨hstates, .ok hgives⟩

end Abreast

/-- What an include asks for, wherever it stands. -/
def Planned.demand (p : Planned) : Inclusion × Text × Text := (p.place.value, p.target, p.key)

theorem Planned.target_eq {p p' : Planned} (h : p.demand = p'.demand) : p.target = p'.target :=
  (Prod.mk.inj (Prod.mk.inj h).2).1

/-- The text and all pages that the host answers with read alike under all tokens. -/
def AllAlike (env : Setting ω τ) (answers : Call → Except RemoteFailure Text) (text : Text) : Prop :=
  ∀ s, (s = text ∨ ∃ c, answers c = .ok s) → Alias.Alike env.token s

variable {env : Setting ω τ} {answers : Call → Except RemoteFailure Text} {text : Text} {now : τ}
  {base base' : List Call}

/-- A page that reads alike asks for the same under all tokens. -/
theorem demands_eq_of_alike (htokens : ∀ n, IsToken (env.token n)) {s : Text}
    (hs : Alias.Alike env.token s) (m n : Nat) (contract : Text) (aliases : Aliases) :
    (plans (env.token m) s contract aliases).map Planned.demand =
      (plans (env.token n) s contract aliases).map Planned.demand := by
  have hvalues : ∀ k, (Directive.inclusions (Alias.strip (Verbatim.mask (env.token k) s))).map Located.value =
      (Alias.body s).includes := by
    intro k
    rw [← Alias.veiled_left (htokens k), hs.left_eq k]
    exact hs.apart.values_inclusions (Verbatim.wordlike_placeholder (htokens k))
  have hdemands : ∀ k, (plans (env.token k) s contract aliases).map Planned.demand =
      (Alias.body s).includes.map fun i =>
        (i, Aliases.target (Aliases.extend aliases (Alias.own s)) i.contract contract,
          i.key (Aliases.target (Aliases.extend aliases (Alias.own s)) i.contract contract)) := by
    intro k
    rw [plans, hs.defined_eq k, ← hvalues k, List.map_map, List.map_map]
    rfl
  rw [hdemands m, hdemands n]

section

variable [Sub τ] [LT τ] [DecidableLT τ]

/-- Both passes made the same calls since they had made those of `base` and `base'`, fetched the
    same, and find the same keys fresh at the time `now`. -/
structure Level (env : Setting ω τ) (answers : Call → Except RemoteFailure Text) (text : Text) (now : τ)
    (base base' : List Call) (q q' : Pass ω τ) : Prop where
  calls : ∃ calls, q.exchange.calls = base ++ calls ∧ q'.exchange.calls = base' ++ calls
  fetched : q.fetched = q'.fetched
  answered : ∀ key raw, q.fetched.get? key = some (.ok raw) → ∃ c, answers c = .ok raw
  fresh : ∀ key, (q.cache.getWithin? env.ttl now key).isSome = (q'.cache.getWithin? env.ttl now key).isSome
  drawn : q.drawn = q'.drawn ∨ AllAlike env answers text

theorem Level.ticks {q q' : Pass ω τ} (h : Level env answers text now base base' q q') (m n : Nat) :
    Level env answers text now base base' { q with ticks := m } { q' with ticks := n } :=
  ⟨h.calls, h.fetched, h.answered, h.fresh, h.drawn⟩

end

end Resolution
end PageAssembly
