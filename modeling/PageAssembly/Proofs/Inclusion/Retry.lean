/-
  PageAssembly/Proofs/Inclusion/Retry.lean
  ========================================
  **Calls that fail, and the pages that are served later.**

  A call that fails leaves nothing in the cache, so its include is tried again the next time.
  But the page around the include may have been brought in by an include itself.  That page
  is cached, and with it the marker that stands for the failure.

  The pages that this can happen to are tainted: a call that may fail is made for an
  include inside of them.  While calls fail, the cache stays right for all other pages
  (`after_keeps_except`).  So a request that is made again, when all calls are answered,
  gets the page that it gets from a fresh desk, whatever failed before and whatever the clock
  shows, provided that the entries of tainted pages have lived their time (`serve_retried`).
  If calls failed only for includes of the pages that were asked for themselves, nothing
  is tainted (`Journey.Chart.not_tainted`).
-/
import PageAssembly.Proofs.Inclusion.Session

namespace PageAssembly

/-- On a chart on which nothing frail is inside a page, nothing is tainted. -/
theorem Journey.Chart.not_tainted {j : Journey} {ms : List Link} (h : j.Chart ms) {frail : Set Text}
    (hms : ∀ m ∈ ms, ∀ l ∈ j.below m, l.key ∉ frail) (key : Text) : ¬ j.Tainted frail key := by
  rintro ⟨b, hfrail, hpath⟩
  obtain ⟨a, -, l, s, l', hl, hs, hin, -, rfl⟩ := Relation.TransGen.tail'_iff.1 hpath
  obtain ⟨m, hm, hsame⟩ := h.exists_same hl
  refine hms m hm l' ?_ hfrail
  rw [below_of_ok (hsame.reply_eq ▸ hs), inner, ← hsame.target_eq]
  exact hin

namespace Resolution

open Verbatim (IsToken)

variable {ω τ : Type}

/-- What `Served` asks of a request, except that the calls for frail keys may fail. -/
structure ServedExcept (frail : Set Text) (host : Host ω) (token : Nat → Text)
    (answers : Call → Except RemoteFailure Text) (w : ω) (r : Request) : Prop where
  tokens : ∀ n, IsToken (token n)
  answered : (r.journey answers).AnsweredExcept frail host w
  page : Verbatim.Simple token r.text
  simple : (r.journey answers).Simple token
  agrees : (r.journey answers).Agrees (r.journey answers)

variable {env : Setting ω τ} {answers : Call → Except RemoteFailure Text} {w w' : ω} {r : Request}
  {j : Journey} {c : j.Catalogue} {frail : Set Text}

theorem ServedExcept.along (hr : ServedExcept frail env.host env.token answers w r) :
    AlongExcept frail { env with viewer := r.viewer } w (r.journey answers) :=
  ⟨rfl, hr.tokens, hr.answered, hr.simple, hr.agrees⟩

theorem ServedExcept.shows (hr : ServedExcept frail env.host env.token answers w r) (n : Nat) :
    Shows (env.token n) r.text OrderedMap.empty (r.journey answers).aliases (Verbatim.signs r.text) :=
  .of_simple hr.tokens hr.page n OrderedMap.empty

variable [Sub τ] [LT τ] [DecidableLT τ]

/-! ### While calls fail -/

/-- Serving a request leaves nothing wrong in the cache, except under tainted keys. -/
theorem serve_keeps_except (hr : ServedExcept frail env.host env.token answers w r)
    (hf : Fits (r.journey answers) c env.token) {d : Desk ω τ}
    (hworld : env.host.Reaches w d.exchange.world)
    (hcached : ∀ l, j.Meets l → ¬ j.Tainted frail l.key → ∀ e, d.cache.entry? l.key = some e →
      e.content = c.text l)
    (depth : Nat) :
    env.host.Reaches w (serve env depth r d).2.exchange.world ∧
      ∀ l, j.Meets l → ¬ j.Tainted frail l.key → ∀ e,
        (serve env depth r d).2.cache.entry? l.key = some e → e.content = c.text l := by
  have hd : SoundExcept frail (fun _ => True) { env with viewer := r.viewer } w (r.journey answers) c
      { d with fetched := OrderedMap.empty } := by
    refine ⟨hworld, ?_, fun l hl hclean e he _ => hcached l hl hclean e he⟩
    rintro l _ x ⟨⟩
  obtain ⟨⟨p, hp, hstate⟩, -⟩ :=
    run_keeps_except hr.along (fun _ _ _ => trivial) hf (hr.shows d.drawn) rfl hd depth
  rw [serve, hstate]
  exact ⟨hp.world, fun l hl hclean e he => hp.cached l hl hclean e he trivial⟩

theorem after_keeps_except {rs : List Request}
    (hrs : ∀ r ∈ rs, ServedExcept frail env.host env.token answers w r ∧
      Fits (r.journey answers) c env.token)
    {d : Desk ω τ} (hworld : env.host.Reaches w d.exchange.world)
    (hcached : ∀ l, j.Meets l → ¬ j.Tainted frail l.key → ∀ e, d.cache.entry? l.key = some e →
      e.content = c.text l)
    (depth : Nat) :
    ∀ l, j.Meets l → ¬ j.Tainted frail l.key → ∀ e,
      (after env depth rs d).cache.entry? l.key = some e → e.content = c.text l := by
  induction rs generalizing d with
  | nil => exact hcached
  | cons r rs ih =>
    obtain ⟨hserved, hfits⟩ := hrs r List.mem_cons_self
    obtain ⟨hworld', hcached'⟩ := serve_keeps_except hserved hfits hworld hcached depth
    exact ih (fun q hq => hrs q (List.mem_cons_of_mem _ hq)) hworld' hcached'

/-! ### When the request is made again -/

/-- The desk `d'` is the desk `d` at a later time: its cache is the same, and in it the entries of
    tainted pages have lived their time, whichever reading of the clock is taken. -/
structure Later (ttl : τ) (clock : Nat → τ) (tainted : Text → Prop) (d d' : Desk ω τ) : Prop where
  cache : d'.cache = d.cache
  expired : ∀ key, tainted key → ∀ e, d'.cache.entry? key = some e → ∀ n, ¬ clock n - e.stamp < ttl

/-- Where every call is answered, the request gets its page filled in from the catalogue, if
    the entries of the cache that are still fresh are right. -/
theorem serve_of_fresh (env : Setting ω τ) (hr : Served env.host env.token answers w r)
    {c : (r.journey answers).Catalogue} (hf : Fits (r.journey answers) c env.token) {d : Desk ω τ}
    (hworld : env.host.Reaches w d.exchange.world)
    (hcached : ∀ l, (r.journey answers).Meets l → ∀ e, d.cache.entry? l.key = some e →
      (∃ n, env.clock n - e.stamp < env.ttl) → e.content = c.text l)
    {depth : Nat} (hdepth : c.bound < depth)
    (hfree : ∀ n, ¬ env.token n <:+: (Verbatim.signs r.text).weave fun i =>
      c.text (Link.of OrderedMap.empty r.contract i)) :
    (serve env depth r d).1 =
      .ok ⟨(Verbatim.signs r.text).weave fun i => c.text (Link.of OrderedMap.empty r.contract i),
        false, ((r.journey answers).top.map Link.key).reverse⟩ := by
  have hd : SoundExcept ∅ (fun e => ∃ n, env.clock n - e.stamp < env.ttl)
      { env with viewer := r.viewer } w (r.journey answers) c
      { d with fetched := OrderedMap.empty } := by
    refine ⟨hworld, ?_, fun l hl _ e he hfresh => hcached l hl e he hfresh⟩
    rintro l _ x ⟨⟩
  have hrun := (run_keeps_except hr.along.except (fun n _ h => ⟨n, h⟩) hf (hr.shows d.drawn) rfl hd
    depth).2
  refine hrun (fun l hl => ?_) hdepth (hfree d.drawn)
  exact ⟨.top hl, Set.notMem_empty _, not_tainted_empty _⟩

/-- Whatever requests were served before, and whichever of the calls for frail keys failed
    meanwhile: when all calls are answered, a request whose keys do not lead back to themselves
    gets the naive expansion of its page, as from a fresh desk, once the entries of tainted pages
    have lived their time. -/
theorem serve_retried (env : Setting ω τ) (hr : Served env.host env.token answers w' r)
    (horderly : (r.journey answers).Orderly)
    (hunspoilt : (r.journey answers).Unspoilt env.token r.contract (Verbatim.signs r.text)) :
    ∃ bound text, ∀ depth, bound ≤ depth →
      (r.journey answers).expandPage depth r.contract (Verbatim.signs r.text) = some text ∧
      ∀ (earlier : List Request) (frail : Set Text) (w : ω) (bound' : Nat), (∀ q ∈ earlier,
          ServedExcept frail env.host env.token answers w q ∧
          (q.journey answers).Agrees (r.journey answers)) →
        ∀ (clock : Nat → τ) (d d' d₀ : Desk ω τ), Fresh env.host w d →
          Later env.ttl clock ((r.journey answers).Tainted frail) (after env bound' earlier d) d' →
          env.host.Reaches w' d'.exchange.world → Fresh env.host w' d₀ →
          (serve { env with clock } depth r d').1 =
            .ok ⟨text, false, ((r.journey answers).top.map Link.key).reverse⟩ ∧
          (serve { env with clock } depth r d').1 = (serve { env with clock } depth r d₀).1 := by
  obtain ⟨c⟩ := horderly.exists_catalogue
  have hfree : ∀ l, (r.journey answers).Meets l → ∀ n, ¬ env.token n <:+: c.text l :=
    fun l hl n => hunspoilt.links l _ _ hl (c.expand_eq hl (Nat.lt_succ_self _)) n
  refine ⟨c.bound + 1, (Verbatim.signs r.text).weave fun i =>
    c.text (Link.of OrderedMap.empty r.contract i), fun depth hdepth => ?_⟩
  have hpage := c.expandPage_eq r.contract (Verbatim.signs r.text) rfl (Nat.le_of_succ_le hdepth)
  refine ⟨hpage, fun earlier frail w bound' hearlier clock d d' d₀ hd hlater hworld hd₀ => ?_⟩
  have hstart : ∀ l, (r.journey answers).Meets l → ¬ (r.journey answers).Tainted frail l.key →
      ∀ e, d.cache.entry? l.key = some e → e.content = c.text l := by
    intro l _ _ e he
    rw [hd.empty] at he
    cases he
  have hafter := after_keeps_except (c := c)
    (fun q hq => ⟨(hearlier q hq).1, rfl, (hearlier q hq).2, hfree⟩) hd.world hstart bound'
  -- an entry of a page that is tainted does not count, and all others are right
  have hcached : ∀ l, (r.journey answers).Meets l → ∀ e, d'.cache.entry? l.key = some e →
      (∃ n, clock n - e.stamp < env.ttl) → e.content = c.text l := by
    rintro l hl e he ⟨n, hfresh⟩
    by_cases htainted : (r.journey answers).Tainted frail l.key
    · exact absurd hfresh (hlater.expired l.key htainted e he n)
    · rw [hlater.cache] at he
      exact hafter l hl htainted e he
  have hempty : ∀ l, (r.journey answers).Meets l → ∀ e, d₀.cache.entry? l.key = some e →
      (∃ n, clock n - e.stamp < env.ttl) → e.content = c.text l := by
    intro l _ e he
    rw [hd₀.empty] at he
    cases he
  have hagain := serve_of_fresh { env with clock } hr ⟨rfl, horderly.agrees, hfree⟩ hworld
    hcached hdepth (hunspoilt.page _ _ hpage)
  have hfirst := serve_of_fresh { env with clock } hr ⟨rfl, horderly.agrees, hfree⟩
    hd₀.world hempty hdepth (hunspoilt.page _ _ hpage)
  exact ⟨hagain, hagain.trans hfirst.symm⟩

/-! ### A host that fails once -/

/-- The host that gives these answers, except that the first call of a contract fails. -/
def failingOnce (answers : Call → Except RemoteFailure Text) (target : Text) : Host Bool where
  answer := fun c called =>
    if c.target = target ∧ called = false then
      (.error (.remote ⟨c.target, c.function, "down".toList⟩), true)
    else
      (((Host.ofAnswers answers).answer c ()).1, called)
  counts := none

theorem content_failingOnce (answers : Call → Except RemoteFailure Text) (target : Text) (c : Call)
    (called : Bool) :
    Host.content c ((failingOnce answers target).answer c called).1 =
        (answers c).mapError Failure.remote ∨
      (c.target = target ∧ called = false) ∧
        ∃ f, Host.content c ((failingOnce answers target).answer c called).1 = .error (.remote f) := by
  unfold failingOnce
  by_cases h : c.target = target ∧ called = false
  · right
    refine ⟨h, ⟨c.target, c.function, "down".toList⟩, ?_⟩
    simp only [if_pos h]
    rfl
  · left
    simp only [if_neg h]
    exact Host.content_ofAnswers answers c ()

theorem reaches_failingOnce {answers : Call → Except RemoteFailure Text} {target : Text} {called : Bool}
    (h : (failingOnce answers target).Reaches true called) : called = true := by
  induction h with
  | refl => rfl
  | call c _ ih =>
    rw [ih]
    simp [failingOnce]

def fragilePages : Pages :=
  [(("A".toList, "render".toList), "a({{include contract=B}})".toList),
    (("B".toList, "render".toList), "b".toList)]

/-- A pass over these pages, of which that of `B` fails at first. -/
def fragileSetting : Setting Bool Nat where
  host := failingOnce fragilePages.answers "B".toList
  viewer := none
  clock := fun _ => 0
  ttl := 300
  token := Verbatim.token

/-- The desk with nothing in the cache. -/
def fragileDesk (called : Bool) : Desk Bool Nat := ⟨⟨called, []⟩, Cache.empty 300, 0, 0⟩

theorem small_fragile : askA.Bare ∧ (askA.journey fragilePages.answers).Small (askA.nearby fragilePages.answers)
    (fun key => if key = "A:||".toList then 1 else 0) 3 askA.contract (Verbatim.signs askA.text) := by
  decide +kernel

theorem fragile_start (called : Bool) :
    Fresh fragileSetting.host called (fragileDesk called) := ⟨.refl, fun _ => rfl⟩

theorem served_fragile : Served fragileSetting.host Verbatim.token fragilePages.answers true askA := by
  have hserved := Served.of_plain small_fragile.1 small_fragile.2.plain
  refine ⟨hserved.tokens, fun called hcalled l _ => ?_, hserved.page, hserved.simple, hserved.agrees⟩
  rcases content_failingOnce fragilePages.answers "B".toList
    (l.call (askA.journey fragilePages.answers).viewer OrderedMap.empty) called with h | ⟨⟨_, h⟩, _⟩
  · exact h
  · rw [reaches_failingOnce hcalled] at h
    cases h

theorem servedExcept_fragile :
    ServedExcept {"B:||".toList} fragileSetting.host Verbatim.token fragilePages.answers false askA := by
  refine ⟨served_fragile.tokens, fun called _ l hl => ?_, served_fragile.page, served_fragile.simple,
    served_fragile.agrees⟩
  rcases content_failingOnce fragilePages.answers "B".toList
    (l.call (askA.journey fragilePages.answers).viewer OrderedMap.empty) called with h | ⟨⟨h, _⟩, hfailed⟩
  · exact Or.inl h
  · refine Or.inr ⟨?_, hfailed⟩
    obtain ⟨m, hm, hsame⟩ := small_fragile.2.plain.chart.exists_same hl
    have hkeys : ∀ m ∈ askA.nearby fragilePages.answers, m.target = "B".toList → m.key = "B:||".toList := by
      decide +kernel
    rw [Set.mem_singleton_iff, hsame.1]
    exact hkeys m hm (hsame.target_eq ▸ h)

/-- The desk after a request during which the call for `B` failed inside the page of `A`. -/
def fragileAfter : Desk Bool Nat := after fragileSetting 8 [askA] (fragileDesk false)

theorem stamp_fragileAfter {key : Text} {e : Cache.Entry Nat}
    (h : fragileAfter.cache.entry? key = some e) : e.stamp = 0 := by
  have hstamps : ∀ x ∈ fragileAfter.cache.entries.entries, x.2.stamp = 0 := by decide +kernel
  exact hstamps (key, e) (OrderedMap.get?_eq_some_iff.1 h)

/-- When the time of the cached page is over, its include is tried again. -/
theorem serve_retried_fragile :
    (serve fragileSetting 8 askA (fragileDesk false)).1 =
      .ok ⟨"a(<!-- include error: down -->)".toList, false, ["A:||".toList]⟩ ∧
    ∃ bound, ∀ depth, bound ≤ depth →
      (serve { fragileSetting with clock := fun _ => 300 } depth askA fragileAfter).1 =
        .ok ⟨"a(b)".toList, false, ["A:||".toList]⟩ := by
  refine ⟨by decide +kernel, ?_⟩
  have hpage : (askA.journey fragilePages.answers).expandPage 3 askA.contract
      (Verbatim.signs askA.text) = some "a(b)".toList := by decide +kernel
  obtain ⟨bound, text, htext⟩ := serve_retried fragileSetting served_fragile
    small_fragile.2.orderly small_fragile.2.unspoilt
  refine ⟨bound, fun depth hdepth => ?_⟩
  obtain ⟨hexpand, hserve⟩ := htext depth hdepth
  have htext : text = "a(b)".toList := by
    have hdeep := Journey.expandPage_mono hexpand (Nat.le_max_left depth 3)
    rw [Journey.expandPage_mono hpage (Nat.le_max_right depth 3)] at hdeep
    exact (Option.some.inj hdeep).symm
  have hkeys : ((askA.journey fragilePages.answers).top.map Link.key).reverse = ["A:||".toList] := by
    decide +kernel
  rw [← htext, ← hkeys]
  refine (hserve [askA] {"B:||".toList} false 8 ?earlier (fun _ => 300) (fragileDesk false) fragileAfter
    (fragileDesk true) (fragile_start false) ⟨rfl, ?expired⟩ ?world (fragile_start true)).1
  case earlier =>
    exact List.forall_mem_singleton.2 ⟨servedExcept_fragile, served_fragile.agrees⟩
  case expired =>
    intro key _ e he _
    rw [stamp_fragileAfter he]
    decide
  case world =>
    rw [show fragileAfter.exchange.world = true by decide +kernel]
    exact .refl

/-- Until then the marker of the failure is served with it. -/
theorem serve_tainted_fragile :
    (serve fragileSetting 8 askA fragileAfter).1 =
      .ok ⟨"a(<!-- include error: down -->)".toList, false, ["A:||".toList]⟩ ∧
    (serve fragileSetting 8 askA (fragileDesk true)).1 = .ok ⟨"a(b)".toList, false, ["A:||".toList]⟩ := by
  decide +kernel

end Resolution
end PageAssembly
