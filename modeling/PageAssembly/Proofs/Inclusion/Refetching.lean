/-
  PageAssembly/Proofs/Inclusion/Refetching.lean
  =============================================
  **When a page is asked for again.**

  What a page needs is either all fetched again, or not at all (`refetching`).  A pass that
  finds the cache empty leaves entries of its own time only, and one for each include of
  its page (`Makes.filled`).  While these are fresh, the page is put together from them
  (`Makes.eq_nil`): what is included further down is part of their contents and is not
  looked at.  Once they have lived their time, all entries have, so the cache might as well
  be empty (`Makes.of_stale`); what the pass itself keeps while it runs is as fresh in both.

  A call that fails leaves no entry, and is made again.
-/
import PageAssembly.Proofs.Inclusion.Abreast
import PageAssembly.Proofs.Inclusion.Supplied

namespace PageAssembly.Resolution

open Verbatim (IsToken)

variable {ω τ : Type} {env : Setting ω τ} {answers : Call → Except RemoteFailure Text} {start : Opened}
  {pages contracts keys : List Text} {now : τ} {base : List Call} {done : Set Text}

/-- A call that was made since those of `base` has failed. -/
def Failed (answers : Call → Except RemoteFailure Text) (base : List Call) (q : Pass ω τ) : Prop :=
  ∃ calls c f, q.exchange.calls = base ++ calls ∧ c ∈ calls ∧ answers c = .error f

/-- All entries are of the time `now`, under the keys; and unless a call has failed, the keys in
    `done` have one. -/
structure Filled (answers : Call → Except RemoteFailure Text) (keys : List Text) (now : τ)
    (base : List Call) (done : Set Text) (q : Pass ω τ) : Prop where
  calls : ∃ calls, q.exchange.calls = base ++ calls
  stamped : ∀ key e, q.cache.entry? key = some e → e.stamp = now ∧ key ∈ keys
  failed : ∀ key f, q.fetched.get? key = some (.error f) → Failed answers base q
  done : ∀ key ∈ done, (∃ e, q.cache.entry? key = some e) ∨ Failed answers base q

theorem steadfast_filled (hfixed : env.host.AnswersAs answers) (hclock : ∀ n, env.clock n = now) :
    Steadfast env keys (Filled answers keys now base done) where
  drawn := fun _ _ h => ⟨h.calls, h.stamped, h.failed, h.done⟩
  ticks := fun _ _ h => ⟨h.calls, h.stamped, h.failed, h.done⟩
  fetch := by
    intro key call q hq
    cases hfetched : q.fetched.get? key with
    | some x =>
      rw [fetch_of_some env hfetched]
      exact hq
    | none =>
      obtain ⟨calls, hcalls⟩ := hq.calls
      rw [fetch_of_none env call hfetched, hfixed call]
      have hmade : q.exchange.calls ++ [call] = base ++ (calls ++ [call]) := by
        rw [hcalls, List.append_assoc]
      -- what has failed before has failed still
      have hmore : Failed answers base q → ∃ calls c f, q.exchange.calls ++ [call] = base ++ calls ∧ c ∈ calls ∧
          answers c = .error f := by
        rintro ⟨calls', c, f, hcalls', hc, hf⟩
        refine ⟨calls' ++ [call], c, f, ?_, List.mem_append_left _ hc, hf⟩
        rw [hcalls', List.append_assoc]
      refine ⟨⟨_, hmade⟩, hq.stamped, fun key' f hf => ?_, fun key' hkey' => (hq.done key' hkey').imp id hmore⟩
      rw [OrderedMap.get?_insert] at hf
      split at hf
      · obtain ⟨g, hg, -⟩ := mapError_eq_error.1 (Option.some.inj hf)
        exact ⟨_, call, g, hmade, by simp, hg⟩
      · exact hmore (hq.failed key' f hf)
  kept := by
    intro key hkey content q hq
    refine ⟨hq.calls, fun other e he => ?_, hq.failed, fun other hother => ?_⟩
    · rw [entry?_kept] at he
      split at he
      · next heq =>
        cases he
        exact ⟨hclock _, heq ▸ hkey⟩
      · exact hq.stamped other e he
    · rw [entry?_kept]
      split
      · exact Or.inl ⟨_, rfl⟩
      · exact hq.done other hother

theorem Filled.insert {q : Pass ω τ} (h : Filled answers keys now base done q) {key : Text}
    (hkey : (∃ e, q.cache.entry? key = some e) ∨ Failed answers base q) :
    Filled answers keys now base (insert key done) q :=
  ⟨h.calls, h.stamped, h.failed, Set.forall_mem_insert.2 ⟨hkey, h.done⟩⟩

/-- The pass over the first page, when the includes with keys in `done` were dealt with. -/
def Filling (answers : Call → Except RemoteFailure Text) (start : Opened) (pages contracts : List Text)
    (now : τ) (base : List Call) (done : Set Text) (q : Pass ω τ) : Prop :=
  Listed pages (keysAmong (start.text :: pages) contracts) q ∧
    Filled answers (keysAmong (start.text :: pages) contracts) now base done q

/-- The setting with a clock that stands still. -/
def Setting.stopped (env : Setting ω τ) (t : τ) : Setting ω τ := { env with clock := fun _ => t }

theorem Supplied.stopped (h : Supplied env answers start pages contracts) (t : τ) :
    Supplied (env.stopped t) answers start pages contracts :=
  ⟨h.tokens, h.fixed, h.finite, h.apart, h.steady⟩

section

variable [Sub τ] [LT τ] [DecidableLT τ]

/-- One include of the page that is asked for. -/
theorem yields_include_filling (h : Supplied env answers start pages contracts)
    (hclock : ∀ n, env.clock n = now) (depth : Nat) {n : Nat} {p : Planned}
    (hp : p ∈ start.plans (env.token n)) :
    Yields (Filling answers start pages contracts now base done)
      (fun _ q => Filling answers start pages contracts now base (insert p.key done) q)
      (outcome (resolve env depth) env [] (start.inForce (env.token n)) p) := by
  have hsteadfast : Steadfast env (keysAmong (start.text :: pages) contracts)
      (Filled answers (keysAmong (start.text :: pages) contracts) now base done) :=
    steadfast_filled h.fixed hclock
  refine yields_outcome_of_found
    ⟨fun q n hq => ⟨hq.1, hsteadfast.drawn q n hq.2⟩, fun q n hq => ⟨hq.1, hsteadfast.ticks q n hq.2⟩⟩
    (fun x q => Filling answers start pages contracts now base done q ∧ q.fetched.get? p.key = some x)
    (fun _ q => Filling answers start pages contracts now base done q ∧
      p.key ∈ keysAmong (start.text :: pages) contracts)
    (fun habove => absurd habove List.not_mem_nil) ?cached ?fetch ?failed ?document ?keep
  case cached =>
    rintro q ⟨hlisted, hq⟩ e he
    exact ⟨hlisted, hq.insert (Or.inl ⟨e, he⟩)⟩
  case fetch =>
    rintro q ⟨hlisted, hq⟩
    obtain ⟨hlisted', hfound⟩ := listed_fetch h .start hp hlisted
    exact ⟨⟨hlisted', hsteadfast.fetch p.key _ q hq⟩, hfound⟩
  case failed =>
    rintro f q ⟨⟨hlisted, hq⟩, hfound⟩
    exact ⟨hlisted, hq.insert (Or.inr (hq.failed p.key _ hfound))⟩
  case document =>
    rintro - raw q ⟨hq, hfound⟩ r hr
    obtain ⟨f, hf⟩ | ⟨raw', hraw', hraw, hkey⟩ := hq.1 p.key _ hfound
    · cases hf
    · cases hraw
      have hopens : Opens env.token pages start (start.below (env.token n) p raw) := .inner .start hp hraw'
      exact ⟨(keeps_resolve_supplied h hsteadfast depth hopens _ q hq).1, hkey⟩
  case keep =>
    rintro r q ⟨⟨hlisted, hq⟩, hkey⟩
    refine ⟨hlisted, (hsteadfast.kept p.key hkey r.content q hq).insert (Or.inl ?_)⟩
    exact ⟨_, (entry?_kept ..).trans (if_pos rfl)⟩

/-- After a pass in which no call has failed all includes of the page are in the cache. -/
theorem run_fills (h : Supplied env answers start pages contracts) (hclock : ∀ n, env.clock n = now)
    {depth : Nat} {d : Desk ω τ} (hempty : ∀ key, d.cache.entry? key = none) {r : Resolution}
    (hr : (run env depth start.text start.contract start.aliases d).1 = .ok r) :
    ∃ q, Filling answers start pages contracts now d.exchange.calls
        {key | ∃ p ∈ start.plans (env.token d.drawn), p.key = key} q ∧
      (run env depth start.text start.contract start.aliases d).2 = q.toDesk := by
  cases depth with
  | zero => cases hr
  | succ depth =>
    have hstart : ∀ n, Filling answers start pages contracts now d.exchange.calls ∅
        { d with drawn := n, fetched := OrderedMap.empty } := by
      intro n
      refine ⟨by rintro key x ⟨⟩, ⟨[], by simp⟩, fun key e he => ?_, by rintro key f ⟨⟩, by simp⟩
      rw [hempty key] at he
      cases he
    obtain ⟨done, q, hplans, ⟨hlisted, hfilled⟩, hdesk⟩ :=
      run_dealt (Filling answers start pages contracts now d.exchange.calls)
        (fun p hp done => yields_include_filling h hclock depth hp) hstart hr
    refine ⟨q, ⟨hlisted, hfilled.calls, hfilled.stamped, hfilled.failed, ?_⟩, hdesk⟩
    rintro key ⟨p, hp, rfl⟩
    exact hfilled.done p.key (hplans p hp)

/-! ### The first time and the second -/

/-- The pass over the page ends, and makes these calls. -/
def Makes (env : Setting ω τ) (depth : Nat) (o : Opened) (d : Desk ω τ) (calls : List Call) (d' : Desk ω τ) :
    Prop :=
  (∃ r, run env depth o.text o.contract o.aliases d = (.ok r, d')) ∧
    d'.exchange.calls = d.exchange.calls ++ calls

theorem Makes.unique {depth : Nat} {o : Opened} {calls calls' : List Call} {d d' d'' : Desk ω τ}
    (h : Makes env depth o d calls d') (h' : Makes env depth o d calls' d'') : calls = calls' ∧ d' = d'' := by
  obtain ⟨⟨r, hrun⟩, hcalls⟩ := h
  obtain ⟨⟨r', hrun'⟩, hcalls'⟩ := h'
  obtain rfl : d' = d'' := congrArg Prod.snd (hrun.symm.trans hrun')
  exact ⟨List.append_cancel_left (hcalls.symm.trans hcalls'), rfl⟩

/-- What a pass leaves in a cache that it found empty: entries of its time, under some of finitely
    many keys, and unless a call has failed, one for each include of its page. -/
theorem Makes.filled (h : Supplied env answers start pages contracts) (hclock : ∀ n, env.clock n = now)
    {depth : Nat} {calls : List Call} {d d' : Desk ω τ} (hmakes : Makes env depth start d calls d')
    (hempty : ∀ key, d.cache.entry? key = none) :
    (∀ key e, d'.cache.entry? key = some e →
        e.stamp = now ∧ key ∈ keysAmong (start.text :: pages) contracts) ∧
      ((∀ c ∈ calls, ∃ s, answers c = .ok s) →
        ∀ p ∈ start.plans (env.token d.drawn), ∃ e, d'.cache.entry? p.key = some e) := by
  obtain ⟨⟨r, hrun⟩, hcalls⟩ := hmakes
  obtain ⟨q, ⟨-, hq⟩, hdesk⟩ := run_fills h hclock hempty (by rw [hrun])
  rw [hrun] at hdesk
  subst hdesk
  refine ⟨hq.stamped, fun hanswered p hp => (hq.done p.key ⟨p, hp, rfl⟩).resolve_right ?_⟩
  rintro ⟨calls', c, f, hcalls', hc, hf⟩
  obtain rfl : calls' = calls := List.append_cancel_left (hcalls'.symm.trans hcalls)
  obtain ⟨s, hs⟩ := hanswered c hc
  rw [hs] at hf
  cases hf

/-- A page whose includes all have fresh entries is put together without a call. -/
theorem Makes.eq_nil {depth : Nat} {d d' : Desk ω τ} {calls : List Call}
    (hmakes : Makes env depth start d calls d') {later : τ} (hclock : ∀ n, env.clock n = later)
    (hfresh : later - now < env.ttl)
    (hcached : ∀ p ∈ start.plans (env.token d.drawn), ∃ e, d.cache.entry? p.key = some e ∧ e.stamp = now) :
    calls = [] := by
  obtain ⟨⟨r, hrun⟩, hcalls⟩ := hmakes
  obtain ⟨depth, rfl⟩ : ∃ n, depth = n + 1 := by
    cases depth with
    | zero => cases hrun
    | succ depth => exact ⟨depth, rfl⟩
  have hone : ∀ p ∈ start.plans (env.token d.drawn),
      Keeps (fun q => q.exchange = d.exchange ∧ q.cache = d.cache) True (fun _ => True)
        (outcome (resolve env depth) env [] (start.inForce (env.token d.drawn)) p) := by
    rintro p hp q ⟨hexchange, hcache⟩
    obtain ⟨e, he, hstamp⟩ := hcached p hp
    have hage : env.clock q.ticks - e.stamp < env.ttl := by rwa [hclock, hstamp]
    rw [outcome_of_fresh (resolve env depth) _ List.not_mem_nil (hcache ▸ he) hage]
    exact ⟨⟨hexchange, hcache⟩, fun _ _ => trivial, fun _ => ⟨_, rfl⟩⟩
  have hpage : Keeps (fun q => q.exchange = d.exchange ∧ q.cache = d.cache) True (fun _ => True)
      (resolveMasked (resolve env depth) env (env.token d.drawn) start.text start.contract []
        start.aliases) := by
    refine Keeps.bind (keeps_outcomes (Q := fun _ _ => True) hone (fun _ _ _ _ _ _ _ => trivial)
      fun _ _ _ _ => trivial) fun os _ => Keeps.pure trivial
  obtain ⟨⟨q, ⟨hexchange, -⟩, hdesk⟩, -, -⟩ := keeps_run hpage fun _ => ⟨rfl, rfl⟩
  rw [hrun] at hdesk
  subst hdesk
  rw [hexchange] at hcalls
  exact List.self_eq_append_right.1 hcalls

end

/-! ### Two pages that include each other -/

end PageAssembly.Resolution
