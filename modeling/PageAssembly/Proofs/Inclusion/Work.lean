/-
  PageAssembly/Proofs/Inclusion/Work.lean
  =======================================
  **What the work of a pass keeps, and what it gives.**

  `Keeps I sure Q m` says of a piece of work `m`: it leaves the pass in a state with `I`
  when it found it in one, even when it breaks off; what it gives satisfies `Q`; and it
  does not break off if `sure` holds.  There is one rule for each way to compose work,
  and one for each function of resolution: `keeps_outcome` lists what has to be known
  about one include, `keeps_outcomes` goes from one include to all of a page,
  `resolveWith_run` separates the drawing of a token from the rest, and `keeps_run` and
  `yields_run` go from the page to a whole pass.
-/
import PageAssembly.Inclusion.Resolution
import Mathlib.Data.Set.Insert

namespace PageAssembly.Resolution

variable {ω τ α β : Type} {I : Pass ω τ → Prop} {sure : Prop}

/-- Work goes on from what it gave, or takes what is behind it along when it broke off. -/
theorem bind_run (m : Work ω τ α) (f : α → Work ω τ β) (q : Pass ω τ) :
    (m >>= f).run q =
      match m.run q with
      | (.ok a, q') => (f a).run q'
      | (.error e, q') => (.error e, q') := by
  have hrun : (m >>= f).run q = ExceptT.bindCont f (m.run q).1 (m.run q).2 := rfl
  rw [hrun]
  rcases m.run q with ⟨e | a, q'⟩
  · rfl
  · rfl

/-- The work keeps `I`, gives what satisfies `Q`, and does not break off if `sure` holds. -/
def Keeps (I : Pass ω τ → Prop) (sure : Prop) (Q : α → Prop) (m : Work ω τ α) : Prop :=
  ∀ p, I p → I (m.run p).2 ∧ (∀ a, (m.run p).1 = .ok a → Q a) ∧ (sure → ∃ a, (m.run p).1 = .ok a)

namespace Keeps

variable {Q R : α → Prop} {m : Work ω τ α}

theorem pure {a : α} (h : Q a) : Keeps I sure Q (Pure.pure a : Work ω τ α) := by
  intro p hp
  refine ⟨hp, ?_, fun _ => ⟨a, rfl⟩⟩
  rintro _ ⟨⟩
  exact h

theorem throw (e : Failure) (h : ¬ sure) : Keeps I sure Q (MonadExcept.throw e : Work ω τ α) := by
  intro p hp
  refine ⟨hp, ?_, fun hs => absurd hs h⟩
  rintro _ ⟨⟩

theorem mono (h : Keeps I sure Q m) {sure' : Prop} (hsure : sure' → sure) (hQ : ∀ a, Q a → R a) :
    Keeps I sure' R m := by
  intro p hp
  obtain ⟨hkeep, hgive, hend⟩ := h p hp
  exact ⟨hkeep, fun a ha => hQ a (hgive a ha), fun hs => hend (hsure hs)⟩

theorem bind {f : α → Work ω τ β} {R : β → Prop} (hm : Keeps I sure Q m)
    (hf : ∀ a, Q a → Keeps I sure R (f a)) : Keeps I sure R (m >>= f) := by
  intro p hp
  obtain ⟨hkeep, hgive, hend⟩ := hm p hp
  rw [bind_run]
  rcases hmp : m.run p with ⟨_ | a, p'⟩
  · rw [hmp] at hkeep hend
    refine ⟨hkeep, ?_, fun hs => ?_⟩
    · rintro _ ⟨⟩
    · obtain ⟨a, ha⟩ := hend hs
      cases ha
  · rw [hmp] at hkeep hgive
    exact hf a (hgive a rfl) p' hkeep

/-- Work that cannot break off. -/
theorem lift {m : StateM (Pass ω τ) α} (h : ∀ p, I p → I (m p).2 ∧ Q (m p).1) :
    Keeps I sure Q (ExceptT.lift m : Work ω τ α) := by
  intro p hp
  obtain ⟨hkeep, hgive⟩ := h p hp
  refine ⟨hkeep, ?_, fun _ => ⟨(m p).1, rfl⟩⟩
  rintro _ ⟨⟩
  exact hgive

end Keeps

/-- Work that is lifted goes on from what it gives. -/
theorem lift_bind_run (m : StateM (Pass ω τ) α) (f : α → Work ω τ β) (p : Pass ω τ) :
    (ExceptT.lift m >>= f).run p = (f (m p).1).run (m p).2 := rfl

theorem bind_run_error {m : Work ω τ α} {p : Pass ω τ} {e : Failure} (h : (m.run p).1 = .error e)
    (f : α → Work ω τ β) : ((m >>= f).run p).1 = .error e := by
  rw [bind_run]
  rcases hmp : m.run p with ⟨_ | a, p'⟩
  · rw [hmp] at h
    cases h
    rfl
  · rw [hmp] at h
    cases h

/-- Started in a state with `I`, the work gives only what `R` relates to the state it leaves. -/
def Yields (I : Pass ω τ → Prop) (R : α → Pass ω τ → Prop) (m : Work ω τ α) : Prop :=
  ∀ p, I p → ∀ a, (m.run p).1 = .ok a → R a (m.run p).2

namespace Yields

variable {R : α → Pass ω τ → Prop} {m : Work ω τ α}

theorem pure {a : α} (h : ∀ p, I p → R a p) : Yields I R (Pure.pure a : Work ω τ α) := by
  rintro p hp _ ⟨⟩
  exact h p hp

theorem throw (e : Failure) : Yields I R (MonadExcept.throw e : Work ω τ α) := by
  rintro p _ _ ⟨⟩

theorem bind {f : α → Work ω τ β} {T : β → Pass ω τ → Prop} (hm : Yields I R m)
    (hf : ∀ a, Yields (R a) T (f a)) : Yields I T (m >>= f) := by
  intro p hp b hb
  rw [bind_run] at hb ⊢
  rcases hmp : m.run p with ⟨_ | a, p'⟩
  · rw [hmp] at hb
    cases hb
  · rw [hmp] at hb
    have ha := hm p hp a (by rw [hmp])
    rw [hmp] at ha
    exact hf a p' ha b hb

theorem lift {m : StateM (Pass ω τ) α} (h : ∀ p, I p → R (m p).1 (m p).2) :
    Yields I R (ExceptT.lift m : Work ω τ α) := by
  rintro p hp _ ⟨⟩
  exact h p hp

theorem mono {I' : Pass ω τ → Prop} {R' : α → Pass ω τ → Prop} (h : Yields I R m)
    (hI : ∀ p, I' p → I p) (hR : ∀ a p, R a p → R' a p) : Yields I' R' m :=
  fun p hp a ha => hR a _ (h p (hI p hp) a ha)

end Yields

/-- All includes of a page: each has the outcome that it would have alone, or that of an
    include with the same key. -/
theorem keeps_outcomes {one : Planned → Work ω τ Outcome} {Q : Planned → Outcome → Prop}
    {ps : List Planned} (hone : ∀ p ∈ ps, Keeps I sure (Q p) (one p))
    (hshare : ∀ p ∈ ps, ∀ q ∈ ps, ∀ o, p.key = q.key → Q p o → Q q o)
    {known : OrderedMap Text Outcome} (hknown : ∀ p ∈ ps, ∀ o, known.get? p.key = some o → Q p o) :
    Keeps I sure (fun os => os.map Prod.fst = ps ∧ ∀ x ∈ os, Q x.1 x.2) (outcomes one known ps) := by
  induction ps generalizing known with
  | nil => exact Keeps.pure ⟨rfl, by simp⟩
  | cons p ps ih =>
    have hrest : ∀ o, Q p o →
        Keeps I sure (fun os => os.map Prod.fst = p :: ps ∧ ∀ x ∈ os, Q x.1 x.2)
          (do let os ← outcomes one (known.insert p.key o) ps; Pure.pure ((p, o) :: os)) := by
      intro o ho
      have hinsert : ∀ q ∈ ps, ∀ o', (known.insert p.key o).get? q.key = some o' → Q q o' := by
        intro q hq o' ho'
        rw [OrderedMap.get?_insert] at ho'
        split at ho'
        · next hkey =>
          cases ho'
          exact hshare p List.mem_cons_self q (List.mem_cons_of_mem _ hq) o hkey ho
        · exact hknown q (List.mem_cons_of_mem _ hq) o' ho'
      refine Keeps.bind (ih (fun q hq => hone q (List.mem_cons_of_mem _ hq))
        (fun q hq q' hq' => hshare q (List.mem_cons_of_mem _ hq) q' (List.mem_cons_of_mem _ hq'))
        hinsert) fun os hos => Keeps.pure ⟨by simp [hos.1], ?_⟩
      intro x hx
      rcases List.mem_cons.1 hx with rfl | hx
      · exact ho
      · exact hos.2 x hx
    unfold outcomes
    cases h : known.get? p.key with
    | some o => exact hrest o (hknown p List.mem_cons_self o h)
    | none => exact Keeps.bind (hone p List.mem_cons_self) hrest

/-- All includes of a page, when `J done` holds once the keys in `done` were dealt with, as
    long as their outcomes are clean. -/
theorem yields_outcomes {one : Planned → Work ω τ Outcome} (J : Set Text → Pass ω τ → Prop)
    (clean : Outcome → Prop) {ps : List Planned}
    (hone : ∀ p ∈ ps, ∀ done, Yields (J done) (fun o q => clean o → J (insert p.key done) q) (one p))
    {known : OrderedMap Text Outcome} {done : Set Text}
    (hknown : ∀ key o, known.get? key = some o → key ∈ done) :
    Yields (J done)
      (fun os q => (∀ o ∈ os, clean o.2) → ∃ done', (∀ p ∈ ps, p.key ∈ done') ∧ done ⊆ done' ∧ J done' q)
      (outcomes one known ps) := by
  induction ps generalizing known done with
  | nil => exact Yields.pure fun q hq _ => ⟨done, by simp, subset_rfl, hq⟩
  | cons p ps ih =>
    -- the rest of the page, from a state in which the outcome of `p` counts if it is clean
    have hrest : ∀ o, Yields (fun q => clean o → J (insert p.key done) q)
        (fun os q => (∀ o ∈ os, clean o.2) →
          ∃ done', (∀ q ∈ p :: ps, q.key ∈ done') ∧ done ⊆ done' ∧ J done' q)
        (do let os ← outcomes one (known.insert p.key o) ps; Pure.pure ((p, o) :: os)) := by
      intro o
      by_cases ho : clean o
      · have hinsert : ∀ key o', (known.insert p.key o).get? key = some o' →
            key ∈ insert p.key done := by
          intro key o' ho'
          rw [OrderedMap.get?_insert] at ho'
          split at ho'
          · next hkey => exact Set.mem_insert_iff.2 (Or.inl hkey.symm)
          · exact Set.mem_insert_of_mem _ (hknown key o' ho')
        have hps := ih (fun q hq => hone q (List.mem_cons_of_mem _ hq)) hinsert
        refine Yields.bind (hps.mono (fun q hq => hq ho) fun _ _ => id) fun os =>
          Yields.pure fun q hq hclean => ?_
        obtain ⟨done', hps, hsub, hJ⟩ := hq fun x hx => hclean x (List.mem_cons_of_mem _ hx)
        refine ⟨done', ?_, (Set.subset_insert _ _).trans hsub, hJ⟩
        exact List.forall_mem_cons.2 ⟨hsub (Set.mem_insert _ _), hps⟩
      · refine Yields.bind (R := fun _ _ => True) (fun _ _ _ _ => trivial) fun os =>
          Yields.pure fun q _ hclean => ?_
        exact absurd (hclean (p, o) List.mem_cons_self) ho
    unfold outcomes
    cases h : known.get? p.key with
    | some o =>
      intro q hq
      refine hrest o q fun _ => ?_
      rwa [Set.insert_eq_of_mem (hknown p.key o h)]
    | none => exact Yields.bind (hone p List.mem_cons_self done) hrest

theorem fetch_of_none (env : Setting ω τ) {key : Text} (call : Call) {p : Pass ω τ}
    (h : p.fetched.get? key = none) :
    fetch env key call p =
      (Host.content call (env.host.answer call p.exchange.world).1,
        { p with
          exchange := ⟨(env.host.answer call p.exchange.world).2, p.exchange.calls ++ [call]⟩
          fetched := p.fetched.insert key
            (Host.content call (env.host.answer call p.exchange.world).1) }) := by
  unfold fetch
  rw [h]
  rfl

theorem fetch_of_some (env : Setting ω τ) {key : Text} {call : Call} {p : Pass ω τ}
    {x : Except Failure Text} (h : p.fetched.get? key = some x) : fetch env key call p = (x, p) := by
  unfold fetch
  rw [h]

/-- How many tokens are used up once the page has its own. -/
def drawnAfter (s : Text) (n : Nat) : Nat := if Verbatim.hasBlocks s then n + 1 else n

/-- The pass over a page, when it has its token. -/
def start (s : Text) (d : Desk ω τ) : Pass ω τ :=
  { d with drawn := drawnAfter s d.drawn, fetched := OrderedMap.empty }

theorem draw_run (env : Setting ω τ) (s : Text) (p : Pass ω τ) :
    (draw env s).run p = (.ok (env.token p.drawn), { p with drawn := drawnAfter s p.drawn }) := by
  unfold draw drawnAfter
  cases Verbatim.hasBlocks s with
  | true => rfl
  | false => rfl

section Functions

variable [Sub τ] [LT τ] [DecidableLT τ] {env : Setting ω τ}

/-- Neither drawing a token nor reading the clock matters to `I`. -/
structure Indifferent (I : Pass ω τ → Prop) : Prop where
  drawn : ∀ p n, I p → I { p with drawn := n }
  ticks : ∀ p n, I p → I { p with ticks := n }

/-! ### Includes -/

/-- The pass after the content of a key was kept. -/
def kept (env : Setting ω τ) (key content : Text) (p : Pass ω τ) : Pass ω τ :=
  { p with cache := p.cache.set (env.clock p.ticks) key content, ticks := p.ticks + 1 }

theorem recalled_cases (env : Setting ω τ) (key : Text) (p : Pass ω τ) :
    ((recalled env key p).1 = none ∨
        ∃ e, p.cache.entry? key = some e ∧ env.clock p.ticks - e.stamp < env.ttl ∧
          (recalled env key p).1 = some e.content) ∧
      ∃ n, (recalled env key p).2 = { p with ticks := n } := by
  unfold recalled
  cases h : p.cache.entry? key with
  | none => exact ⟨Or.inl rfl, p.ticks, rfl⟩
  | some e =>
    refine ⟨?_, p.ticks + 1, rfl⟩
    simp only [Cache.getWithin?, h, Option.bind_some]
    split
    · next hfresh => exact Or.inr ⟨e, rfl, hfresh, rfl⟩
    · exact Or.inl rfl

theorem recalled_of_fresh {key : Text} {p : Pass ω τ} {e : Cache.Entry τ}
    (he : p.cache.entry? key = some e) (hfresh : env.clock p.ticks - e.stamp < env.ttl) :
    recalled env key p = (some e.content, { p with ticks := p.ticks + 1 }) := by
  unfold recalled
  simp only [he, Cache.getWithin?, Option.bind_some, if_pos hfresh]

/-- An include with a fresh entry. -/
theorem outcome_of_fresh (document : Document ω τ) {above : List Text} (aliases : Aliases)
    {p : Planned} (habove : p.key ∉ above) {q : Pass ω τ} {e : Cache.Entry τ}
    (he : q.cache.entry? p.key = some e) (hfresh : env.clock q.ticks - e.stamp < env.ttl) :
    (outcome document env above aliases p).run q =
      (.ok ⟨e.content, false, false⟩, { q with ticks := q.ticks + 1 }) := by
  unfold outcome
  rw [if_neg fun h => habove (List.contains_iff_mem.1 h)]
  rw [lift_bind_run, recalled_of_fresh he hfresh]
  rfl

/-- An include that is met for the first time, and brings in a page. -/
theorem outcome_of_new (document : Document ω τ) (env : Setting ω τ) {above : List Text}
    (aliases : Aliases) {p : Planned} (habove : p.key ∉ above) {q : Pass ω τ} (hentry : q.cache.entry? p.key = none)
    (hfetched : q.fetched.get? p.key = none) {raw : Text}
    (hraw : Host.content (p.call env.viewer aliases)
      (env.host.answer (p.call env.viewer aliases) q.exchange.world).1 = .ok raw) :
    ∃ exchange, (outcome document env above aliases p).run q =
      (do
        let child ← document raw p.target (p.key :: above) aliases
        keep env p.key child.content
        pure (⟨child.content, child.cyclic, false⟩ : Outcome) : Work ω τ Outcome).run
        { q with exchange, fetched := q.fetched.insert p.key (.ok raw) } := by
  have hfetch := fetch_of_none env (p.call env.viewer aliases) hfetched
  rw [hraw] at hfetch
  have hrecall : recalled env p.key q = (none, q) := by
    unfold recalled
    rw [hentry]
  refine ⟨⟨(env.host.answer (p.call env.viewer aliases) q.exchange.world).2,
    q.exchange.calls ++ [p.call env.viewer aliases]⟩, ?_⟩
  unfold outcome
  rw [if_neg fun h => habove (List.contains_iff_mem.1 h)]
  rw [lift_bind_run, hrecall, lift_bind_run, hfetch]

/-- One include: the cases in which `Q` has to hold of its outcome; a cached content counts
    only where it is fresh. -/
theorem keeps_outcome_of_fresh (hI : Indifferent I) {document : Document ω τ} {above : List Text}
    {aliases : Aliases} {p : Planned} {Q : Outcome → Prop} (given : Except Failure Text → Prop)
    (resolved : Resolution → Prop)
    (hcycle : p.key ∈ above → Q ⟨Marker.cycle, true, true⟩)
    (hcached : ∀ q, I q → ∀ e, q.cache.entry? p.key = some e →
      (∃ n, env.clock n - e.stamp < env.ttl) → Q ⟨e.content, false, false⟩)
    (hfetch : ∀ q, I q → I (fetch env p.key (p.call env.viewer aliases) q).2 ∧
      given (fetch env p.key (p.call env.viewer aliases) q).1)
    (hfailed : ∀ e, given (.error e) →
      ∃ f, e = .remote f ∧ Q ⟨Marker.includeFailed f.reason, false, false⟩)
    (hdocument : p.key ∉ above → ∀ raw, given (.ok raw) →
      Keeps I sure resolved (document raw p.target (p.key :: above) aliases))
    (hkeep : ∀ r, resolved r →
      Q ⟨r.content, r.cyclic, false⟩ ∧ ∀ q, I q → I (kept env p.key r.content q)) :
    Keeps I sure Q (outcome document env above aliases p) := by
  unfold outcome
  split
  · next h => exact Keeps.pure (hcycle (List.contains_iff_mem.1 h))
  · next h =>
    have habove : p.key ∉ above := fun hmem => h (List.contains_iff_mem.2 hmem)
    refine Keeps.bind (Q := fun o => ∀ c, o = some c → Q ⟨c, false, false⟩) (Keeps.lift ?_) ?_
    · intro q hq
      obtain ⟨hgives, n, hstate⟩ := recalled_cases env p.key q
      refine ⟨hstate ▸ hI.ticks q n hq, fun c hc => ?_⟩
      rcases hgives with hnone | ⟨e, he, hfresh, hsome⟩
      · rw [hnone] at hc
        cases hc
      · rw [hsome] at hc
        cases hc
        exact hcached q hq e he ⟨_, hfresh⟩
    · intro o ho
      cases o with
      | some c => exact Keeps.pure (ho c rfl)
      | none =>
        refine Keeps.bind (Keeps.lift hfetch) fun x hx => ?_
        cases x with
        | error e =>
          obtain ⟨f, rfl, hf⟩ := hfailed e hx
          exact Keeps.pure hf
        | ok raw =>
          refine Keeps.bind (hdocument habove raw hx) fun r hr => ?_
          obtain ⟨hQ, hstate⟩ := hkeep r hr
          have hkept : Keeps I sure (fun _ => True) (keep env p.key r.content) := by
            intro q hq
            exact ⟨hstate q hq, fun _ _ => trivial, fun _ => ⟨(), rfl⟩⟩
          exact Keeps.bind hkept fun _ _ => Keeps.pure hQ

/-- One include: the cases in which `Q` has to hold of its outcome. -/
theorem keeps_outcome (hI : Indifferent I) {document : Document ω τ} {above : List Text}
    {aliases : Aliases} {p : Planned} {Q : Outcome → Prop} (given : Except Failure Text → Prop)
    (resolved : Resolution → Prop)
    (hcycle : p.key ∈ above → Q ⟨Marker.cycle, true, true⟩)
    (hcached : ∀ q, I q → ∀ e, q.cache.entry? p.key = some e → Q ⟨e.content, false, false⟩)
    (hfetch : ∀ q, I q → I (fetch env p.key (p.call env.viewer aliases) q).2 ∧
      given (fetch env p.key (p.call env.viewer aliases) q).1)
    (hfailed : ∀ e, given (.error e) →
      ∃ f, e = .remote f ∧ Q ⟨Marker.includeFailed f.reason, false, false⟩)
    (hdocument : p.key ∉ above → ∀ raw, given (.ok raw) →
      Keeps I sure resolved (document raw p.target (p.key :: above) aliases))
    (hkeep : ∀ r, resolved r →
      Q ⟨r.content, r.cyclic, false⟩ ∧ ∀ q, I q → I (kept env p.key r.content q)) :
    Keeps I sure Q (outcome document env above aliases p) :=
  keeps_outcome_of_fresh hI given resolved hcycle (fun q hq e he _ => hcached q hq e he) hfetch hfailed
    hdocument hkeep

/-- One include: the cases in which `R` has to relate its outcome to the state; `found` relates
    what was fetched to the state. -/
theorem yields_outcome_of_found (hI : Indifferent I) {document : Document ω τ} {above : List Text}
    {aliases : Aliases} {p : Planned} {R : Outcome → Pass ω τ → Prop}
    (found : Except Failure Text → Pass ω τ → Prop) (resolved : Resolution → Pass ω τ → Prop)
    (hcycle : p.key ∈ above → ∀ q, I q → R ⟨Marker.cycle, true, true⟩ q)
    (hcached : ∀ q, I q → ∀ e, q.cache.entry? p.key = some e → R ⟨e.content, false, false⟩ q)
    (hfetch : ∀ q, I q → found (fetch env p.key (p.call env.viewer aliases) q).1
      (fetch env p.key (p.call env.viewer aliases) q).2)
    (hfailed : ∀ f q, found (.error (.remote f)) q → R ⟨Marker.includeFailed f.reason, false, false⟩ q)
    (hdocument : p.key ∉ above → ∀ raw,
      Yields (found (.ok raw)) resolved (document raw p.target (p.key :: above) aliases))
    (hkeep : ∀ r q, resolved r q → R ⟨r.content, r.cyclic, false⟩ (kept env p.key r.content q)) :
    Yields I R (outcome document env above aliases p) := by
  unfold outcome
  split
  · next h => exact Yields.pure (hcycle (List.contains_iff_mem.1 h))
  · next h =>
    have habove : p.key ∉ above := fun hmem => h (List.contains_iff_mem.2 hmem)
    refine Yields.bind (R := fun o q => I q ∧ ∀ c, o = some c → R ⟨c, false, false⟩ q)
      (Yields.lift ?_) ?_
    · intro q hq
      obtain ⟨hgives, n, hstate⟩ := recalled_cases env p.key q
      rw [hstate]
      refine ⟨hI.ticks q n hq, fun c hc => ?_⟩
      rcases hgives with hnone | ⟨e, he, -, hsome⟩
      · rw [hnone] at hc
        cases hc
      · rw [hsome] at hc
        cases hc
        exact hcached _ (hI.ticks q n hq) e he
    · intro o
      cases o with
      | some c => exact Yields.pure fun q hq => hq.2 c rfl
      | none =>
        refine Yields.bind (R := found) (Yields.lift fun q hq => hfetch q hq.1) fun x => ?_
        cases x with
        | error e =>
          cases e with
          | remote f => exact Yields.pure (hfailed f)
          | _ => exact Yields.throw _
        | ok raw =>
          refine Yields.bind (R := resolved) (hdocument habove raw) fun r => ?_
          refine Yields.bind (R := fun _ q => R ⟨r.content, r.cyclic, false⟩ q) ?_ fun _ =>
            Yields.pure fun _ hq => hq
          intro q hq _ _
          exact hkeep r q hq

/-- The includes of a page whose blocks are masked with the token `t`, as they are planned. -/
def plans (t s contract : Text) (aliases : Aliases) : List Planned :=
  (Directive.inclusions (Alias.strip (Verbatim.mask t s))).map
    (plan contract (Aliases.extend aliases (Alias.defined (Verbatim.mask t s))))

/-- Resolving a page when its token is drawn. -/
def resolveMasked (document : Document ω τ) (env : Setting ω τ) (t s contract : Text)
    (above : List Text) (aliases : Aliases) : Work ω τ Resolution := do
  let inForce := Aliases.extend aliases (Alias.defined (Verbatim.mask t s))
  let os ← outcomes (outcome document env above inForce) OrderedMap.empty (plans t s contract aliases)
  pure (assemble (Alias.strip (Verbatim.mask t s)) (Verbatim.blocks t s) os)

/-- One page: it ends if the fetches for its includes bring in pages that end, or else have failed
    as remote calls. -/
theorem keeps_resolveMasked (hI : Indifferent I) {document : Document ω τ} {t s contract : Text} {above : List Text}
    {aliases : Aliases} (given : Planned → Except Failure Text → Prop)
    (hfetch : ∀ p ∈ plans t s contract aliases, ∀ q, I q →
      I (fetch env p.key (p.call env.viewer (Aliases.extend aliases (Alias.defined (Verbatim.mask t s)))) q).2 ∧
        given p (fetch env p.key
          (p.call env.viewer (Aliases.extend aliases (Alias.defined (Verbatim.mask t s)))) q).1)
    (hfailed : ∀ p ∈ plans t s contract aliases, ∀ e, given p (.error e) → ∃ f, e = .remote f)
    (hdocument : ∀ p ∈ plans t s contract aliases, p.key ∉ above → ∀ raw, given p (.ok raw) →
      Keeps I sure (fun _ => True) (document raw p.target (p.key :: above)
        (Aliases.extend aliases (Alias.defined (Verbatim.mask t s)))))
    (hkept : ∀ p ∈ plans t s contract aliases, ∀ raw, given p (.ok raw) →
      ∀ content q, I q → I (kept env p.key content q)) :
    Keeps I sure (fun _ => True) (resolveMasked document env t s contract above aliases) := by
  refine Keeps.bind (keeps_outcomes (Q := fun _ _ => True) ?_ (fun _ _ _ _ _ _ _ => trivial)
    fun _ _ _ _ => trivial) fun os _ => Keeps.pure trivial
  intro p hp
  refine keeps_outcome hI (given p) (fun _ => ∃ raw, given p (.ok raw)) (fun _ => trivial)
    (fun _ _ _ _ => trivial) (hfetch p hp) ?failed ?document ?kept
  case failed =>
    intro e he
    obtain ⟨f, rfl⟩ := hfailed p hp e he
    exact ⟨f, rfl, trivial⟩
  case document =>
    intro habove raw hraw
    exact (hdocument p hp habove raw hraw).mono id fun _ _ => ⟨raw, hraw⟩
  case kept =>
    rintro r ⟨raw, hraw⟩
    exact ⟨trivial, hkept p hp raw hraw r.content⟩

/-- A page is resolved with the next token. -/
theorem resolveWith_run (document : Document ω τ) (env : Setting ω τ) (s contract : Text) (above : List Text)
    (aliases : Aliases) (p : Pass ω τ) :
    (resolveWith document env s contract above aliases).run p =
      (resolveMasked document env (env.token p.drawn) s contract above aliases).run
        { p with drawn := drawnAfter s p.drawn } := by
  rw [resolveWith, bind_run, draw_run]
  rfl

/-- A pass resolves its page with the next token, and nothing is above the page. -/
theorem run_eq_resolveMasked (env : Setting ω τ) (depth : Nat) (s contract : Text) (aliases : Aliases)
    (d : Desk ω τ) :
    run env (depth + 1) s contract aliases d =
      (((resolveMasked (resolve env depth) env (env.token d.drawn) s contract [] aliases).run
          (start s d)).1,
        ((resolveMasked (resolve env depth) env (env.token d.drawn) s contract [] aliases).run
          (start s d)).2.toDesk) := by
  have hdraw := resolveWith_run (resolve env depth) env s contract [] aliases
    { d with fetched := OrderedMap.empty }
  dsimp only at hdraw
  rw [start, ← hdraw]
  rfl

/-- A pass keeps what the resolving of its page keeps, and gives what that gives. -/
theorem keeps_run {Q : Resolution → Prop} {depth : Nat} {s contract : Text} {aliases : Aliases} {d : Desk ω τ}
    (hpage : Keeps I sure Q
      (resolveMasked (resolve env depth) env (env.token d.drawn) s contract [] aliases))
    (hstart : ∀ n, I { d with drawn := n, fetched := OrderedMap.empty }) :
    (∃ q, I q ∧ (run env (depth + 1) s contract aliases d).2 = q.toDesk) ∧
      (∀ r, (run env (depth + 1) s contract aliases d).1 = .ok r → Q r) ∧
      (sure → ∃ r, (run env (depth + 1) s contract aliases d).1 = .ok r) := by
  obtain ⟨hkeep, hgive, hend⟩ := hpage (start s d) (hstart (drawnAfter s d.drawn))
  simp only [run_eq_resolveMasked]
  exact ⟨⟨_, hkeep, rfl⟩, hgive, hend⟩

theorem yields_run {R : Resolution → Pass ω τ → Prop} {depth : Nat} {s contract : Text} {aliases : Aliases}
    {d : Desk ω τ}
    (hpage : Yields I R (resolveMasked (resolve env depth) env (env.token d.drawn) s contract [] aliases))
    (hstart : ∀ n, I { d with drawn := n, fetched := OrderedMap.empty }) {r : Resolution}
    (hr : (run env (depth + 1) s contract aliases d).1 = .ok r) :
    ∃ q, R r q ∧ (run env (depth + 1) s contract aliases d).2 = q.toDesk := by
  simp only [run_eq_resolveMasked] at hr ⊢
  exact ⟨_, hpage (start s d) (hstart (drawnAfter s d.drawn)) r hr, rfl⟩

/-- After a pass all includes of its page were dealt with, when `J done` holds once the keys in
    `done` were. -/
theorem run_dealt (J : Set Text → Pass ω τ → Prop) {depth : Nat} {s contract : Text} {aliases : Aliases}
    {d : Desk ω τ}
    (hone : ∀ p ∈ plans (env.token d.drawn) s contract aliases, ∀ done,
      Yields (J done) (fun _ => J (insert p.key done))
        (outcome (resolve env depth) env []
          (Aliases.extend aliases (Alias.defined (Verbatim.mask (env.token d.drawn) s))) p))
    (hstart : ∀ n, J ∅ { d with drawn := n, fetched := OrderedMap.empty }) {r : Resolution}
    (hr : (run env (depth + 1) s contract aliases d).1 = .ok r) :
    ∃ done q, (∀ p ∈ plans (env.token d.drawn) s contract aliases, p.key ∈ done) ∧ J done q ∧
      (run env (depth + 1) s contract aliases d).2 = q.toDesk := by
  have hknown : ∀ key (o : Outcome), OrderedMap.empty.get? key = some o → key ∈ (∅ : Set Text) := by
    rintro key o ⟨⟩
  have houtcomes := yields_outcomes J (fun _ => True)
    (fun p hp done => (hone p hp done).mono (fun _ => id) fun _ _ hq _ => hq) hknown
  have hpage : Yields (J ∅)
      (fun (_ : Resolution) q =>
        ∃ done, (∀ p ∈ plans (env.token d.drawn) s contract aliases, p.key ∈ done) ∧ J done q)
      (resolveMasked (resolve env depth) env (env.token d.drawn) s contract [] aliases) := by
    refine Yields.bind houtcomes fun os => Yields.pure fun q hq => ?_
    obtain ⟨done, hplans, -, hJ⟩ := hq fun _ _ => trivial
    exact ⟨done, hplans, hJ⟩
  obtain ⟨q, ⟨done, hplans, hJ⟩, hdesk⟩ := yields_run hpage hstart hr
  exact ⟨done, q, hplans, hJ, hdesk⟩

theorem keeps_resolveWith (hI : Indifferent I) {document : Document ω τ} {s contract : Text}
    {above : List Text} {aliases : Aliases} {Q : Resolution → Prop}
    (h : ∀ n, Keeps I sure Q
      (resolveMasked document env (env.token n) s contract above aliases)) :
    Keeps I sure Q (resolveWith document env s contract above aliases) := by
  intro p hp
  rw [resolveWith_run]
  exact h p.drawn _ (hI.drawn p _ hp)

end Functions

end PageAssembly.Resolution
