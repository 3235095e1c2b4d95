/-
  PageAssembly/Proofs/Inclusion/Sound.lean
  ========================================
  **A pass never remembers anything wrong.**

  Two journeys matter at once: the one that a pass is on now (`k`), and one that has a
  catalogue (`j`), which may be the same, or a journey that a later pass will be on.
  A pass is sound when what it fetched is what the answers of `k` say, and when the cache
  holds, under the keys of `j`, only the texts that the catalogue has for them
  (`Sound`).  Under all other keys the cache may hold anything.

  Calls may also fail now and then.  When only the calls for certain keys do, the keys that
  are frail, a pass is sound except for the pages that have a frail include inside or
  further down (`SoundExcept`): these are tainted, and the cache may hold anything for them.

  Soundness is kept by every page that the pass resolves, whether or not the page
  itself is in the catalogue and whether or not its resolution breaks off
  (`keeps_resolve`).  The reason that an include of the catalogue is never cut off as a
  cycle is a condition on the keys further up: those of the catalogue lead to the include,
  so they have higher ranks (`Below`).
-/
import PageAssembly.Proofs.Alias.Stripping
import PageAssembly.Proofs.Inclusion.Journey
import PageAssembly.Proofs.Inclusion.Work

namespace PageAssembly

/-- The states that calls may bring a host to. -/
inductive Host.Reaches {ω : Type} (h : Host ω) (w : ω) : ω → Prop
  | refl : Reaches h w w
  | call {w' : ω} (c : Call) : Reaches h w w' → Reaches h w (h.answer c w').2

/-- Whatever was called before, the host answers the includes of the journey as it says. -/
def Journey.AnsweredBy {ω : Type} (j : Journey) (h : Host ω) (w : ω) : Prop :=
  ∀ w', h.Reaches w w' → ∀ l, j.Meets l →
    Host.content (l.call j.viewer j.aliases) (h.answer (l.call j.viewer j.aliases) w').1 =
      (j.reply l).mapError Failure.remote

/-- The page under the key has an include inside, or further down, that is frail. -/
def Journey.Tainted (j : Journey) (frail : Set Text) (key : Text) : Prop :=
  ∃ b ∈ frail, Relation.TransGen j.Leads key b

/-- What the call of the include may give: the answer, or a failure if it is frail. -/
def Journey.MayGive (j : Journey) (frail : Set Text) (l : Link) (x : Except Failure Text) : Prop :=
  x = (j.reply l).mapError Failure.remote ∨ l.key ∈ frail ∧ ∃ f, x = .error (.remote f)

/-- The host answers the includes of the journey as it says, but may fail those that are frail. -/
def Journey.AnsweredExcept {ω : Type} (j : Journey) (frail : Set Text) (h : Host ω) (w : ω) : Prop :=
  ∀ w', h.Reaches w w' → ∀ l, j.Meets l →
    j.MayGive frail l (Host.content (l.call j.viewer j.aliases)
      (h.answer (l.call j.viewer j.aliases) w').1)

/-- With any of the tokens, a page has no alias directive, and none of its blocks lies
    inside an include. -/
structure Verbatim.Simple (token : Nat → Text) (s : Text) : Prop where
  noAlias : ∀ n, Alias.find (mask (token n) s) = []
  apart : (signs s).Apart

/-- All pages that includes bring in are simple. -/
def Journey.Simple (j : Journey) (token : Nat → Text) : Prop :=
  ∀ l s, j.Meets l → j.reply l = .ok s → Verbatim.Simple token s

namespace Resolution

open Verbatim (IsToken placeholder)

variable {ω τ : Type}

/-- What holds of a pass on the journey `k` that starts in the state `w` of the host. -/
structure Along (env : Setting ω τ) (w : ω) (k : Journey) : Prop where
  viewer : env.viewer = k.viewer
  tokens : ∀ n, IsToken (env.token n)
  answered : k.AnsweredBy env.host w
  simple : k.Simple env.token
  agrees : k.Agrees k

/-- The same, where the calls for frail keys may fail. -/
structure AlongExcept (frail : Set Text) (env : Setting ω τ) (w : ω) (k : Journey) : Prop where
  viewer : env.viewer = k.viewer
  tokens : ∀ n, IsToken (env.token n)
  answered : k.AnsweredExcept frail env.host w
  simple : k.Simple env.token
  agrees : k.Agrees k

/-- With its blocks masked by the token `t`, the page `s` shows the signs `g`, and below it
    the aliases `inForce` hold. -/
structure Shows (t s : Text) (aliases inForce : Aliases) (g : Signs) : Prop where
  token : IsToken t
  apart : g.Apart
  sub : g.Sublist (Verbatim.signs s)
  view : g.veiled (placeholder t) = Alias.strip (Verbatim.mask t s)
  force : Aliases.extend aliases (Alias.defined (Verbatim.mask t s)) = inForce

/-- The journey `k` has nothing to say against the catalogue of the journey `j`. -/
structure Fits (k : Journey) {j : Journey} (c : j.Catalogue) (token : Nat → Text) : Prop where
  aliases : k.aliases = j.aliases
  agrees : k.Agrees j
  free : ∀ l, j.Meets l → ∀ n, ¬ token n <:+: c.text l

/-- What was fetched is what the answers of `k` say. -/
structure Faithful (env : Setting ω τ) (w : ω) (k : Journey) (p : Pass ω τ) : Prop where
  world : env.host.Reaches w p.exchange.world
  fetched : ∀ l, k.Meets l → ∀ x, p.fetched.get? l.key = some x →
    x = (k.reply l).mapError Failure.remote

/-- What is cached is what the catalogue says, too. -/
structure Sound (env : Setting ω τ) (w : ω) (k : Journey) {j : Journey} (c : j.Catalogue)
    (p : Pass ω τ) : Prop extends Faithful env w k p where
  cached : ∀ l, j.Meets l → ∀ e, p.cache.entry? l.key = some e → e.content = c.text l

/-- The same, where the calls for frail keys may fail: what is cached under a key that is not
    tainted is what the catalogue says, as far as the entry counts. -/
structure SoundExcept (frail : Set Text) (live : Cache.Entry τ → Prop) (env : Setting ω τ) (w : ω)
    (k : Journey) {j : Journey} (c : j.Catalogue) (p : Pass ω τ) : Prop where
  world : env.host.Reaches w p.exchange.world
  fetched : ∀ l, k.Meets l → ∀ x, p.fetched.get? l.key = some x → k.MayGive frail l x
  cached : ∀ l, j.Meets l → ¬ j.Tainted frail l.key → ∀ e, p.cache.entry? l.key = some e →
    live e → e.content = c.text l

/-- The include is known to the catalogue, and ranks lower than everything known above it. -/
def Below {j : Journey} (c : j.Catalogue) (above : List Text) (key : Text) : Prop :=
  ∀ m, j.Meets m → m.key ∈ above → ∃ m', j.Meets m' ∧ m'.key = key ∧ c.rank key < c.rank m.key

/-- The outcome is what the catalogue says of the key, if it knows the key. -/
def Told {j : Journey} (c : j.Catalogue) (key : Text) (o : Outcome) : Prop :=
  ∀ m, j.Meets m → m.key = key → o = ⟨c.text m, false, false⟩

/-- The same for the page that an include brought in. -/
def Resolved {j : Journey} (c : j.Catalogue) (key : Text) (r : Resolution) : Prop :=
  ∀ m, j.Meets m → m.key = key → r.content = c.text m ∧ r.cyclic = false

section

variable {env : Setting ω τ} {w : ω} {k j : Journey} {c : j.Catalogue} {frail : Set Text}
  {live : Cache.Entry τ → Prop}

/-! ### Frail includes -/

theorem tainted_of_leads {a b : Text} (hab : j.Leads a b)
    (hb : b ∈ frail ∨ j.Tainted frail b) : j.Tainted frail a := by
  rcases hb with hb | ⟨b', hb', hpath⟩
  · exact ⟨b, hb, .single hab⟩
  · exact ⟨b', hb', .head hab hpath⟩

theorem not_tainted_empty (key : Text) : ¬ j.Tainted ∅ key := by
  rintro ⟨_, h, _⟩
  exact h

theorem mayGive_empty {l : Link} {x : Except Failure Text} :
    k.MayGive ∅ l x ↔ x = (k.reply l).mapError Failure.remote :=
  ⟨fun h => h.elim id fun h => absurd h.1 (Set.notMem_empty _), Or.inl⟩

theorem Along.except (ha : Along env w k) : AlongExcept ∅ env w k :=
  ⟨ha.viewer, ha.tokens, fun w' hw' l hl => Or.inl (ha.answered w' hw' l hl), ha.simple, ha.agrees⟩

theorem soundExcept_empty {p : Pass ω τ} :
    SoundExcept ∅ (fun _ => True) env w k c p ↔ Sound env w k c p := by
  constructor
  · intro h
    exact ⟨⟨h.world, fun l hl x hx => mayGive_empty.1 (h.fetched l hl x hx)⟩,
      fun l hl e he => h.cached l hl (not_tainted_empty _) e he trivial⟩
  · intro h
    exact ⟨h.world, fun l hl x hx => Or.inl (h.fetched l hl x hx), fun l hl _ e he _ => h.cached l hl e he⟩

/-! ### What a page shows -/

/-- A simple page shows all its signs, with any of the tokens. -/
theorem Shows.of_simple {token : Nat → Text} {s : Text} (htokens : ∀ n, IsToken (token n))
    (hs : Verbatim.Simple token s) (n : Nat) (aliases : Aliases) :
    Shows (token n) s aliases aliases (Verbatim.signs s) where
  token := htokens n
  apart := hs.apart
  sub := List.Sublist.refl _
  view := by
    rw [Alias.strip, hs.noAlias n, ← Verbatim.mask_eq_veiled]
    rfl
  force := by
    rw [Alias.defined, hs.noAlias n]
    rfl

variable {t s contract : Text} {aliases inForce : Aliases} {g : Signs}

theorem Shows.plans_eq (h : Shows t s aliases inForce g) (contract : Text) :
    plans t s contract aliases =
      (Directive.inclusions (g.veiled (placeholder t))).map (plan contract inForce) := by
  rw [plans, h.force, h.view]

theorem Shows.value_mem (h : Shows t s aliases inForce g) {i : Located Inclusion}
    (hi : i ∈ Directive.inclusions (g.veiled (placeholder t))) : i.value ∈ g.includes := by
  rw [← h.apart.values_inclusions (Verbatim.wordlike_placeholder h.token)]
  exact List.mem_map_of_mem hi

theorem Shows.link_mem (h : Shows t s aliases inForce g) {i : Located Inclusion}
    (hi : i ∈ Directive.inclusions (g.veiled (placeholder t))) :
    Link.of inForce contract i.value ∈ g.links inForce contract :=
  List.mem_map_of_mem (h.value_mem hi)

theorem Shows.exists_link (h : Shows t s aliases inForce g) {p : Planned}
    (hp : p ∈ plans t s contract aliases) :
    ∃ l ∈ g.links inForce contract, ∃ i, l = Link.of inForce contract i.value ∧
      p = plan contract inForce i := by
  rw [h.plans_eq] at hp
  obtain ⟨i, hi, rfl⟩ := List.mem_map.1 hp
  exact ⟨_, h.link_mem hi, i, rfl, rfl⟩

theorem mapError_eq_ok {x : Except RemoteFailure Text} {s : Text} :
    x.mapError Failure.remote = .ok s ↔ x = .ok s := by
  cases x with
  | ok _ => simp [Except.mapError]
  | error _ => simp [Except.mapError]

theorem mapError_eq_error {x : Except RemoteFailure Text} {e : Failure} :
    x.mapError Failure.remote = .error e ↔ ∃ f, x = .error f ∧ e = .remote f := by
  cases x with
  | ok _ => simp [Except.mapError]
  | error f => simp [Except.mapError, eq_comm]

theorem indifferent_soundExcept : Indifferent (SoundExcept frail live env w k c) where
  drawn := fun _ _ h => ⟨h.world, h.fetched, h.cached⟩
  ticks := fun _ _ h => ⟨h.world, h.fetched, h.cached⟩

theorem soundExcept_fetch (ha : AlongExcept frail env w k) {l : Link} (hl : k.Meets l) {q : Pass ω τ}
    (hq : SoundExcept frail live env w k c q) :
    SoundExcept frail live env w k c (fetch env l.key (l.call env.viewer k.aliases) q).2 ∧
      k.MayGive frail l (fetch env l.key (l.call env.viewer k.aliases) q).1 := by
  cases h : q.fetched.get? l.key with
  | some x =>
    rw [fetch_of_some env h]
    exact ⟨hq, hq.fetched l hl x h⟩
  | none =>
    have hanswer := ha.answered _ hq.world l hl
    rw [fetch_of_none env _ h, ha.viewer]
    refine ⟨⟨hq.world.call _, ?_, hq.cached⟩, hanswer⟩
    intro l' hl' x hx
    rw [OrderedMap.get?_insert] at hx
    split at hx
    · next hkey =>
      cases hx
      rw [Journey.MayGive, ← (ha.agrees l l' hl hl' hkey).2, ← hkey]
      exact hanswer
    · exact hq.fetched l' hl' x hx

theorem soundExcept_kept {key content : Text}
    (h : ¬ j.Tainted frail key → ∀ m, j.Meets m → m.key = key → content = c.text m)
    {q : Pass ω τ} (hq : SoundExcept frail live env w k c q) :
    SoundExcept frail live env w k c (kept env key content q) := by
  refine ⟨hq.world, hq.fetched, fun m hm hclean e he hlive => ?_⟩
  simp only [kept, Cache.entry?, Cache.set, OrderedMap.get?_insert] at he
  split at he
  · next hkey =>
    cases he
    exact h (hkey ▸ hclean) m hm hkey.symm
  · exact hq.cached m hm hclean e he hlive

/-! ### Keys further up -/

/-- An include of the catalogue brings in the same page on both journeys. -/
theorem inner_of_known (hf : Fits k c env.token) {l m l' : Link} {s : Text} (hl : k.Meets l)
    (hm : j.Meets m) (hkey : m.key = l.key) (hs : k.reply l = .ok s) (hl' : l' ∈ k.inner l s) :
    j.reply m = .ok s ∧ l' ∈ j.inner m s := by
  obtain ⟨htarget, hreply⟩ := hf.agrees l m hl hm hkey.symm
  refine ⟨hreply ▸ hs, ?_⟩
  rw [Journey.inner, ← htarget, ← hf.aliases]
  exact hl'

theorem below_inner (hf : Fits k c env.token) {l l' : Link} {s : Text} {above : List Text}
    (hl : k.Meets l) (hs : k.reply l = .ok s) (hbelow : Below c above l.key)
    (hl' : l' ∈ k.inner l s) : Below c (l.key :: above) l'.key := by
  intro m hm habove
  rcases List.mem_cons.1 habove with hkey | habove
  · obtain ⟨hreply, hin⟩ := inner_of_known hf hl hm hkey hs hl'
    exact ⟨l', hm.inner hreply hin, rfl, c.rank_lt hm hreply hin⟩
  · obtain ⟨m', hm', hkey', hrank⟩ := hbelow m hm habove
    obtain ⟨hreply, hin⟩ := inner_of_known hf hl hm' hkey' hs hl'
    have hlt := c.rank_lt hm' hreply hin
    rw [hkey'] at hlt
    exact ⟨l', hm'.inner hreply hin, rfl, hlt.trans hrank⟩

theorem not_mem_of_below {above : List Text} {m : Link} (hm : j.Meets m)
    (hbelow : Below c above m.key) : m.key ∉ above := by
  intro habove
  obtain ⟨_, _, _, hlt⟩ := hbelow m hm habove
  exact Nat.lt_irrefl _ hlt

/-! ### One include -/

variable {sure : Prop} [Sub τ] [LT τ] [DecidableLT τ]

/-- An include that is not frail, and whose page is not tainted, has the outcome that the
    catalogue has for it. -/
theorem keeps_include (ha : AlongExcept frail env w k)
    (hlive : ∀ n e, env.clock n - e.stamp < env.ttl → live e) (hf : Fits k c env.token)
    {document : Document ω τ} {above : List Text} {contract : Text} {i : Located Inclusion} {l : Link}
    (hlink : l = Link.of k.aliases contract i.value) (hl : k.Meets l) (hbelow : Below c above l.key)
    (hdoc : ∀ raw, k.reply l = .ok raw → Keeps (SoundExcept frail live env w k c) sure
      (fun r => ¬ j.Tainted frail l.key → Resolved c l.key r)
      (document raw l.target (l.key :: above) k.aliases)) :
    Keeps (SoundExcept frail live env w k c) sure
      (fun o => l.key ∉ frail → ¬ j.Tainted frail l.key → Told c l.key o)
      (outcome document env above k.aliases (plan contract k.aliases i)) := by
  subst hlink
  refine keeps_outcome_of_fresh indifferent_soundExcept
    (k.MayGive frail (Link.of k.aliases contract i.value))
    (fun r => ¬ j.Tainted frail (Link.of k.aliases contract i.value).key →
      Resolved c (Link.of k.aliases contract i.value).key r)
    ?cycle ?cached (fun q hq => soundExcept_fetch ha hl hq) ?failed ?document ?keep
  case cycle =>
    intro habove _ _ m hm hkey
    rw [← hkey] at hbelow
    exact absurd (hkey ▸ habove) (not_mem_of_below hm hbelow)
  case cached =>
    intro q hq e he ⟨n, hfresh⟩ _ hclean m hm hkey
    rw [hq.cached m hm (hkey ▸ hclean) e (hkey ▸ he) (hlive n e hfresh)]
  case failed =>
    rintro e (he | ⟨hfrail, f, he⟩)
    · obtain ⟨f, hreply, rfl⟩ := mapError_eq_error.1 he.symm
      refine ⟨f, rfl, fun _ _ m hm hkey => ?_⟩
      rw [c.text_of_error hm ((hf.agrees _ m hl hm hkey.symm).2 ▸ hreply)]
    · cases he
      exact ⟨f, rfl, fun hsteady => absurd hfrail hsteady⟩
  case document =>
    rintro _ raw (hraw | ⟨_, f, hraw⟩)
    · exact hdoc _ (mapError_eq_ok.1 hraw.symm)
    · cases hraw
  case keep =>
    intro r hr
    refine ⟨fun _ hclean m hm hkey => ?_,
      fun q hq => soundExcept_kept (fun hclean m hm hkey => (hr hclean m hm hkey).1) hq⟩
    obtain ⟨hcontent, hcyclic⟩ := hr hclean m hm hkey
    rw [hcontent, hcyclic]

/-! ### One page -/

/-- Pairs whose first parts are planned, and whose second parts follow from the plan. -/
theorem eq_map_of_forall {α β γ : Type} {plan : α → β} {f : α → γ} {os : List (β × γ)} {is : List α}
    (hfst : os.map Prod.fst = is.map plan) (hsnd : ∀ x ∈ os, ∀ i ∈ is, x.1 = plan i → x.2 = f i) :
    os = is.map fun i => (plan i, f i) := by
  induction is generalizing os with
  | nil => simpa using hfst
  | cons i is ih =>
    cases os with
    | nil => simp at hfst
    | cons o os =>
      obtain ⟨hhead, htail⟩ : o.1 = plan i ∧ os.map Prod.fst = is.map plan := by simpa using hfst
      have hrest := ih htail fun x hx i' hi' =>
        hsnd x (List.mem_cons_of_mem _ hx) i' (List.mem_cons_of_mem _ hi')
      have ho : o = (plan i, f i) :=
        Prod.ext hhead (hsnd o List.mem_cons_self i List.mem_cons_self hhead)
      rw [List.map_cons, ← ho, ← hrest]

/-- A page whose includes all have the outcome that `f` says. -/
theorem assemble_eq (h : Shows t s aliases inForce g) (f : Inclusion → Text)
    {os : List (Planned × Outcome)}
    (hos : os = (Directive.inclusions (g.veiled (placeholder t))).map fun i =>
      (plan contract inForce i, ⟨f i.value, false, false⟩))
    (hfree : ¬ t <:+: g.weave f) :
    assemble (Alias.strip (Verbatim.mask t s)) (Verbatim.blocks t s) os =
      ⟨g.weave f, false, ((g.links inForce contract).map Link.key).reverse⟩ := by
  have hedits : os.map edit =
      (Directive.inclusions (g.veiled (placeholder t))).map (Signs.fill f) := by
    rw [hos, List.map_map]
    rfl
  have hkeys : (os.reverse.filter fun o => !o.2.closing).map (fun o => o.1.key) =
      ((g.links inForce contract).map Link.key).reverse := by
    rw [hos, Signs.links, ← h.apart.values_inclusions (Verbatim.wordlike_placeholder h.token),
      List.filter_eq_self.2 (by simp)]
    simp only [← List.map_reverse, List.map_map]
    rfl
  have hcyclic : (os.any fun o => o.2.cyclic) = false := by
    rw [hos]
    simp
  rw [assemble, hedits, ← h.view, h.apart.restore_splice h.token h.sub _ hfree, hcyclic, hkeys]

/-- The include is in the catalogue, and nothing that it brings in is frail. -/
def Certain (j : Journey) (frail : Set Text) (l : Link) : Prop :=
  j.Meets l ∧ l.key ∉ frail ∧ ¬ j.Tainted frail l.key

/-- A page is resolved to what the catalogue says of its includes, if they all are certain. -/
theorem keeps_page (sure : Prop) (document : Document ω τ) (above : List Text)
    (ha : AlongExcept frail env w k) (hlive : ∀ n e, env.clock n - e.stamp < env.ttl → live e)
    (hf : Fits k c env.token) (h : Shows t s aliases k.aliases g)
    (hmeets : ∀ l ∈ g.links k.aliases contract, k.Meets l)
    (hbelow : ∀ l ∈ g.links k.aliases contract, Below c above l.key)
    (hdoc : ∀ l ∈ g.links k.aliases contract, ∀ raw, k.reply l = .ok raw →
      Keeps (SoundExcept frail live env w k c) sure
        (fun r => ¬ j.Tainted frail l.key → Resolved c l.key r)
        (document raw l.target (l.key :: above) k.aliases)) :
    Keeps (SoundExcept frail live env w k c) sure
      (fun r => (∀ l ∈ g.links k.aliases contract, Certain j frail l) →
        (¬ t <:+: g.weave fun i => c.text (Link.of k.aliases contract i)) →
          r = ⟨g.weave fun i => c.text (Link.of k.aliases contract i), false,
            ((g.links k.aliases contract).map Link.key).reverse⟩)
      (resolveMasked document env t s contract above aliases) := by
  simp only [resolveMasked, h.force]
  refine Keeps.bind (keeps_outcomes
    (Q := fun p o => p.key ∉ frail → ¬ j.Tainted frail p.key → Told c p.key o) ?one ?share ?known)
    fun os hos => Keeps.pure ?done
  case one =>
    intro p hp
    obtain ⟨l, hl, i, hlink, rfl⟩ := h.exists_link hp
    have hkey : (plan contract k.aliases i).key = l.key := by
      rw [hlink]
      rfl
    rw [hkey]
    exact keeps_include ha hlive hf hlink (hmeets _ hl) (hbelow _ hl) (hdoc _ hl)
  case share =>
    intro p _ q _ o hkey ho
    rwa [← hkey]
  case known =>
    intro p _ o ho
    cases ho
  case done =>
    intro hcertain hfree
    rw [h.plans_eq] at hos
    rw [hf.aliases] at hcertain hfree h hos ⊢
    refine assemble_eq h _ (eq_map_of_forall hos.1 ?_) hfree
    rintro x hx i hi hplan
    obtain ⟨hmeets, hsteady, hclean⟩ := hcertain _ (h.link_mem hi)
    have hkey : x.1.key = (Link.of j.aliases contract i.value).key := by
      rw [hplan]
      rfl
    rw [← hkey] at hsteady hclean
    exact hos.2 x hx hsteady hclean (Link.of j.aliases contract i.value) hmeets hkey.symm

/-! ### Pages in pages -/

/-- However deep the pages are nested, a pass stays sound, and the page of an include that
    the catalogue knows is resolved to the text that it has there, unless it is tainted. -/
theorem keeps_resolve (ha : AlongExcept frail env w k)
    (hlive : ∀ n e, env.clock n - e.stamp < env.ttl → live e) (hf : Fits k c env.token) (depth : Nat)
    {l : Link} {s : Text} {above : List Text} (hl : k.Meets l) (hs : k.reply l = .ok s)
    (hbelow : ∀ l' ∈ k.inner l s, Below c above l'.key) :
    Keeps (SoundExcept frail live env w k c) (∃ m, j.Meets m ∧ m.key = l.key ∧ c.rank l.key < depth)
      (fun r => ¬ j.Tainted frail l.key → Resolved c l.key r)
      (resolve env depth s l.target above k.aliases) := by
  induction depth generalizing l s above with
  | zero =>
    refine Keeps.throw _ ?_
    rintro ⟨_, _, _, h⟩
    exact absurd h (Nat.not_lt_zero _)
  | succ depth ih =>
    have hsimple := ha.simple l s hl hs
    refine keeps_resolveWith indifferent_soundExcept fun n => ?_
    refine Keeps.mono (keeps_page _ _ _ ha hlive hf (.of_simple ha.tokens hsimple n k.aliases)
      (fun l' hl' => hl.inner hs hl') hbelow ?_) id ?_
    · -- the pages of its includes, where the bound is lower by one
      intro l' hl' raw hraw
      refine Keeps.mono (ih (hl.inner hs hl') hraw
        fun l'' hl'' => below_inner hf (hl.inner hs hl') hraw (hbelow l' hl') hl'') ?_ fun _ => id
      rintro ⟨m, hm, hkey, hrank⟩
      obtain ⟨hreply, hin⟩ := inner_of_known hf hl hm hkey hs hl'
      have hlt := c.rank_lt hm hreply hin
      rw [hkey] at hlt
      exact ⟨l', hm.inner hreply hin, rfl, by omega⟩
    · intro r hr hclean m hm hkey
      obtain ⟨htarget, hreply⟩ := hf.agrees l m hl hm hkey.symm
      have hm' : j.reply m = .ok s := hreply ▸ hs
      have hcertain : ∀ l' ∈ (Verbatim.signs s).links k.aliases l.target, Certain j frail l' := by
        intro l' hl'
        have hin := (inner_of_known hf hl hm hkey hs hl').2
        have hleads : j.Leads l.key l'.key := ⟨m, s, l', hm, hm', hin, hkey, rfl⟩
        exact ⟨hm.inner hm' hin, fun hfrail => hclean (tainted_of_leads hleads (Or.inl hfrail)),
          fun htainted => hclean (tainted_of_leads hleads (Or.inr htainted))⟩
      have htext := c.text_of_ok hm hm'
      rw [← htarget, ← hf.aliases] at htext
      have hfree := hf.free m hm n
      rw [htext] at hfree ⊢
      rw [hr hcertain hfree]
      exact ⟨rfl, rfl⟩

end

end Resolution
end PageAssembly
