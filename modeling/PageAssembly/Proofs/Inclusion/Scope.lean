/-
  PageAssembly/Proofs/Inclusion/Scope.lean
  ========================================
  **Aliases stay in their scope, as far as keys can tell includes apart.**

  Neither the cache nor the calls of a pass know about aliases: contents and answers are
  kept by key, and the key of an include says nothing about the table in whose scope the
  include stands.  So the documents below it may be filled in with the aliases of another
  document that was met earlier (`runErrand_shadowed`).

  This is the only way for aliases to get out of their scope.  As long as includes with one
  key expand to one text, each in its own scope, there is a sheet with the text of every key.
  A pass keeps to it (`keeps_document`), so that every errand of a session gives the page in
  which each include is expanded in its own scope, whatever was met before (`runErrand_scoped`).
-/
import PageAssembly.Proofs.Inclusion.Session
import PageAssembly.Proofs.Inclusion.Tour

namespace PageAssembly

/-- Whatever was called before, the host answers the includes of the tour as it says. -/
def Tour.AnsweredBy {ω : Type} (k : Tour) (h : Host ω) (w : ω) : Prop :=
  ∀ w', h.Reaches w w' → ∀ x, k.Meets x →
    Host.content (x.call k.viewer) (h.answer (x.call k.viewer) w').1 =
      (k.reply x).mapError Failure.remote

/-- What is asked of a tour by itself: fixed answers, pages that read alike under every token,
    keys that stand for one answer and do not lead back to themselves, and tokens that
    occur in no text. -/
structure Tour.Regular {ω : Type} (k : Tour) (host : Host ω) (w : ω) (token : Nat → Text) : Prop where
  tokens : ∀ n, Verbatim.IsToken (token n)
  answered : k.AnsweredBy host w
  alike : ∀ x s, k.Meets x → k.reply x = .ok s → Alias.Alike token s
  orderly : k.Orderly
  unspoilt : ∀ x n text, k.Meets x → k.expand n x = some text → ∀ m, ¬ token m <:+: text

/-- A page that is asked for with aliases to start with. -/
structure Errand extends Request where
  aliases : Aliases

namespace Errand

/-- The aliases in force in the page that is asked for. -/
def inForce (r : Errand) : Aliases := Aliases.extend r.aliases (Alias.own r.text)

/-- What there is to expand for the page. -/
def tour (answers : Call → Except RemoteFailure Text) (r : Errand) : Tour :=
  ⟨answers, r.viewer, (Alias.body r.text).scoped r.inForce r.contract⟩

/-- The page with everything expanded in its scope. -/
def expand (answers : Call → Except RemoteFailure Text) (n : Nat) (r : Errand) : Option Text :=
  (r.tour answers).expandPage n r.inForce r.contract (Alias.body r.text)

/-- The includes of the page that is asked for, and of the pages that these bring in. -/
def nearby (answers : Call → Except RemoteFailure Text) (r : Errand) : List Scoped :=
  (r.tour answers).top ++ (r.tour answers).top.flatMap (r.tour answers).below

/-- What is asked of an errand, where it can be computed: on the list of the includes nearby, which
    is a chart of the tour, with a rank of keys and a bound for the depth of the page. -/
structure Charted (pages : Pages) (rank : Text → Nat) (n : Nat) (r : Errand) : Prop where
  chart : (r.tour pages.answers).Chart (r.nearby pages.answers)
  page : Verbatim.spans r.text = [] ∧ (Alias.body r.text).Apart
  apart : ∀ x ∈ r.nearby pages.answers, ∀ s ∈ ((r.tour pages.answers).reply x).toOption,
    Verbatim.spans s = [] ∧ (Alias.body s).Apart
  ranks : ∀ x ∈ r.nearby pages.answers, ∀ x' ∈ (r.tour pages.answers).below x, rank x'.key < rank x.key
  short : ∀ x ∈ r.nearby pages.answers, ((r.tour pages.answers).expand n x).any (·.length < 12)

instance (pages : Pages) (rank : Text → Nat) (n : Nat) (r : Errand) : Decidable (r.Charted pages rank n) :=
  decidable_of_iff (_ ∧ _ ∧ _ ∧ _ ∧ _)
    ⟨fun ⟨h₁, h₂, h₃, h₄, h₅⟩ => ⟨h₁, h₂, h₃, h₄, h₅⟩, fun h => ⟨h.chart, h.page, h.apart, h.ranks, h.short⟩⟩

/-- Includes with one key, of one errand and of another, stand for one page with the same keys in it. -/
def Together (pages : Pages) (q r : Errand) : Prop :=
  ∀ x ∈ q.nearby pages.answers, ∀ y ∈ r.nearby pages.answers, x.key = y.key →
    (q.tour pages.answers).reply x = (r.tour pages.answers).reply y ∧
      ∀ s ∈ ((q.tour pages.answers).reply x).toOption, (x.inner s).map Scoped.key = (y.inner s).map Scoped.key

instance (pages : Pages) (q r : Errand) : Decidable (q.Together pages r) := List.decidableBAll _ _

variable {pages : Pages} {rank : Text → Nat} {n : Nat} {r : Errand}

theorem Charted.alike (h : r.Charted pages rank n) : Alias.Alike pages.setting.token r.text :=
  .of_no_block h.page.1 h.page.2

theorem Charted.regular (h : r.Charted pages rank n) (htogether : r.Together pages r) :
    (r.tour pages.answers).Regular pages.setting.host () pages.setting.token where
  tokens := Verbatim.isToken_token
  answered := by
    intro w' _ x _
    exact Host.content_ofAnswers pages.answers (x.call r.viewer) w'
  alike := by
    intro x s hx hs
    obtain ⟨hspans, hapart⟩ := h.apart x (h.chart.mem hx) s (by rw [hs]; rfl)
    exact .of_no_block hspans hapart
  orderly := h.chart.orderly (fun x hx y hy hkey => (htogether x hx y hy hkey).1) rank h.ranks
  unspoilt := by
    intro x m text hx htext
    obtain ⟨text', htext', hlength⟩ := (Option.any_eq_true _ _).1 (h.short x (h.chart.mem hx))
    rw [Tour.expand_unique htext htext']
    exact Verbatim.not_occurs_of_short (of_decide_eq_true hlength)

end Errand

namespace Resolution

open Verbatim (IsToken)

variable {ω τ : Type} {env : Setting ω τ} {answers : Call → Except RemoteFailure Text} {w : ω}
  {k : Tour} {sheet : Text → Text} {r : Errand} {rs : List Errand}

/-- What is cached is what the sheet says. -/
structure Filed (host : Host ω) (w : ω) (sheet : Text → Text) (d : Desk ω τ) : Prop where
  world : host.Reaches w d.exchange.world
  cached : ∀ key e, d.cache.entry? key = some e → e.content = sheet key

/-- What was fetched is what the answers say, too. -/
structure Recalls (env : Setting ω τ) (w : ω) (k : Tour) (sheet : Text → Text) (p : Pass ω τ) : Prop
    extends Filed env.host w sheet p.toDesk where
  fetched : ∀ x, k.Meets x → ∀ r, p.fetched.get? x.key = some r →
    r = (k.reply x).mapError Failure.remote

/-- A pass on the regular tour `k`, whose texts are on the sheet. -/
structure Guided (env : Setting ω τ) (w : ω) (k : Tour) (sheet : Text → Text) : Prop where
  viewer : env.viewer = k.viewer
  regular : k.Regular env.host w env.token
  fits : k.Fits sheet

theorem Fresh.filed {host : Host ω} {d : Desk ω τ} (h : Fresh host w d) : Filed host w sheet d := by
  refine ⟨h.world, ?_⟩
  intro key e he
  rw [h.empty] at he
  cases he

/-- What is asked of the errands of a session: each by itself is regular, and includes with one
    key, of one errand or of two, expand to one text. -/
structure Session (env : Setting ω τ) (answers : Call → Except RemoteFailure Text) (w : ω)
    (rs : List Errand) : Prop where
  alike : ∀ r ∈ rs, Alias.Alike env.token r.text
  regular : ∀ r ∈ rs, (r.tour answers).Regular env.host w env.token
  agrees : ∀ q ∈ rs, ∀ r ∈ rs, (q.tour answers).Agrees (r.tour answers)

theorem Session.sublist (h : Session env answers w rs) {qs : List Errand} (hqs : qs.Sublist rs) :
    Session env answers w qs := by
  constructor
  · intro r hr
    exact h.alike r (hqs.subset hr)
  · intro r hr
    exact h.regular r (hqs.subset hr)
  · intro q hq r hr
    exact h.agrees q (hqs.subset hq) r (hqs.subset hr)

theorem Session.exists_sheet (h : Session env answers w rs) :
    ∃ sheet, ∀ r ∈ rs, (r.tour answers).Fits sheet := by
  have hagrees : ∀ j ∈ rs.map (Errand.tour answers), ∀ k ∈ rs.map (Errand.tour answers),
      j.Agrees k := by
    intro j hj k hk
    obtain ⟨q, hq, rfl⟩ := List.mem_map.1 hj
    obtain ⟨r, hr, rfl⟩ := List.mem_map.1 hk
    exact h.agrees q hq r hr
  obtain ⟨sheet, hsheet⟩ := Tour.exists_sheet _ hagrees
  refine ⟨sheet, ?_⟩
  intro r hr
  exact hsheet _ (List.mem_map_of_mem hr)

/-! ### Single steps -/

/-- A page that reads alike shows its body, with its own aliases over those around it. -/
theorem Shows.of_alike {token : Nat → Text} {s : Text} (htokens : ∀ n, IsToken (token n))
    (hs : Alias.Alike token s) (n : Nat) (aliases : Aliases) :
    Shows (token n) s aliases (Aliases.extend aliases (Alias.own s)) (Alias.body s) where
  token := htokens n
  apart := hs.apart
  sub := by
    rw [← hs.left_eq n]
    exact Alias.left_sublist _ s
  view := by
    rw [← hs.left_eq n]
    exact Alias.veiled_left (htokens n) s
  force := by rw [hs.defined_eq n]

theorem indifferent_recalls : Indifferent (Recalls env w k sheet) := by
  constructor
  · intro p n h
    exact ⟨⟨h.world, h.cached⟩, h.fetched⟩
  · intro p n h
    exact ⟨⟨h.world, h.cached⟩, h.fetched⟩

theorem recalls_fetch (hk : Guided env w k sheet) {x : Scoped} (hx : k.Meets x)
    {q : Pass ω τ} (hq : Recalls env w k sheet q) :
    Recalls env w k sheet (fetch env x.key (x.call env.viewer) q).2 ∧
      (fetch env x.key (x.call env.viewer) q).1 = (k.reply x).mapError Failure.remote := by
  rw [hk.viewer]
  cases h : q.fetched.get? x.key with
  | some r =>
    rw [fetch_of_some env h]
    exact ⟨hq, hq.fetched x hx r h⟩
  | none =>
    have hanswer := hk.regular.answered _ hq.world x hx
    rw [fetch_of_none env _ h]
    refine ⟨⟨⟨hq.world.call _, hq.cached⟩, ?_⟩, hanswer⟩
    intro y hy r hr
    rw [OrderedMap.get?_insert] at hr
    split at hr
    · next hkey =>
      cases hr
      rw [← hk.regular.orderly.replies x y hx hy hkey]
      exact hanswer
    · exact hq.fetched y hy r hr

theorem recalls_kept {key : Text} {q : Pass ω τ} (hq : Recalls env w k sheet q) :
    Recalls env w k sheet (kept env key (sheet key) q) := by
  refine ⟨⟨hq.world, ?_⟩, hq.fetched⟩
  intro key' e he
  simp only [kept, Cache.entry?, Cache.set, OrderedMap.get?_insert] at he
  split at he
  · next hkey =>
    cases he
    rw [hkey]
  · exact hq.cached key' e he

variable [Sub τ] [LT τ] [DecidableLT τ]

/-! ### Includes and pages -/

/-- An include that is met comes out as the sheet says of its key. -/
theorem keeps_scoped (hk : Guided env w k sheet) (c : k.Ranking) {sure : Prop} {document : Document ω τ}
    {above : List Text} {inForce : Aliases} {contract : Text} {i : Located Inclusion} {x : Scoped}
    (hxi : x = .of inForce contract i.value) (hx : k.Meets x)
    (habove : ∀ a ∈ above, c.rank x.key < c.rank a)
    (hdoc : ∀ raw, k.reply x = .ok raw → Keeps (Recalls env w k sheet) sure
      (fun r => r.content = sheet x.key ∧ r.cyclic = false)
      (document raw x.target (x.key :: above) inForce)) :
    Keeps (Recalls env w k sheet) sure (fun o => o = ⟨sheet x.key, false, false⟩)
      (outcome document env above inForce (plan contract inForce i)) := by
  subst hxi
  refine keeps_outcome indifferent_recalls
    (fun r => r = (k.reply (.of inForce contract i.value)).mapError Failure.remote)
    (fun r => r.content = sheet (Scoped.of inForce contract i.value).key ∧ r.cyclic = false)
    ?cycle ?cached ?fetch ?failed ?document ?keep
  case cycle =>
    intro hmem
    exact absurd (habove _ hmem) (Nat.lt_irrefl _)
  case cached =>
    intro q hq e he
    rw [hq.cached _ e he]
    rfl
  case fetch =>
    intro q hq
    exact recalls_fetch hk hx hq
  case failed =>
    intro e he
    obtain ⟨f, hreply, rfl⟩ := mapError_eq_error.1 he.symm
    refine ⟨f, rfl, ?_⟩
    rw [Tour.sheet_of_error c hk.fits hx hreply]
  case document =>
    intro _ raw hraw
    exact hdoc raw (mapError_eq_ok.1 hraw.symm)
  case keep =>
    rintro r ⟨hcontent, hcyclic⟩
    rw [hcontent, hcyclic]
    exact ⟨rfl, fun q hq => recalls_kept hq⟩

/-- A page is filled in from the sheet. -/
theorem keeps_body (hk : Guided env w k sheet) (c : k.Ranking) (sure : Prop)
    (document : Document ω τ) (above : List Text)
    {t s contract : Text} {aliases inForce : Aliases} {g : Signs} (h : Shows t s aliases inForce g)
    (hmeets : ∀ x ∈ g.scoped inForce contract, k.Meets x)
    (habove : ∀ x ∈ g.scoped inForce contract, ∀ a ∈ above, c.rank x.key < c.rank a)
    (hdoc : ∀ x ∈ g.scoped inForce contract, ∀ raw, k.reply x = .ok raw →
      Keeps (Recalls env w k sheet) sure (fun r => r.content = sheet x.key ∧ r.cyclic = false)
        (document raw x.target (x.key :: above) inForce)) :
    Keeps (Recalls env w k sheet) sure
      (fun r => ¬ t <:+: g.filledFrom inForce contract sheet →
        r = ⟨g.filledFrom inForce contract sheet, false,
          ((g.scoped inForce contract).map Scoped.key).reverse⟩)
      (resolveMasked document env t s contract above aliases) := by
  simp only [resolveMasked, h.force]
  refine Keeps.bind (keeps_outcomes (Q := fun p o => o = ⟨sheet p.key, false, false⟩) ?one ?share
    ?known) fun os hos => Keeps.pure ?done
  case one =>
    intro p hp
    rw [h.plans_eq] at hp
    obtain ⟨i, hi, rfl⟩ := List.mem_map.1 hp
    have hin : Scoped.of inForce contract i.value ∈ g.scoped inForce contract :=
      List.mem_map_of_mem (h.value_mem hi)
    exact keeps_scoped hk c rfl (hmeets _ hin) (habove _ hin) (hdoc _ hin)
  case share =>
    intro p _ q _ o hkey ho
    rw [← hkey]
    exact ho
  case known =>
    intro p _ o ho
    cases ho
  case done =>
    intro hfree
    rw [h.plans_eq] at hos
    have hkeys : (g.scoped inForce contract).map Scoped.key =
        (g.links inForce contract).map Link.key := by
      rw [Signs.scoped, Signs.links, List.map_map, List.map_map]
      rfl
    rw [hkeys]
    refine assemble_eq h _ (eq_map_of_forall hos.1 ?_) hfree
    intro x hx i _ hplan
    rw [hos.2 x hx, hplan]
    rfl

/-- However deep the documents are nested, each of them is filled in from the sheet, with the
    aliases of its own scope. -/
theorem keeps_document (hk : Guided env w k sheet) (c : k.Ranking) (depth : Nat) {x : Scoped}
    {s : Text} {above : List Text}
    (hx : k.Meets x) (hs : k.reply x = .ok s) (habove : ∀ a ∈ above, c.rank x.key ≤ c.rank a) :
    Keeps (Recalls env w k sheet) (c.rank x.key < depth)
      (fun r => r.content = sheet x.key ∧ r.cyclic = false)
      (resolve env depth s x.target above x.aliases) := by
  induction depth generalizing x s above with
  | zero => exact Keeps.throw _ (Nat.not_lt_zero _)
  | succ depth ih =>
    refine keeps_resolveWith indifferent_recalls fun n => ?_
    refine Keeps.mono (keeps_body hk c _ _ _
      (.of_alike hk.regular.tokens (hk.regular.alike x s hx hs) n x.aliases)
      (fun x' hx' => hx.inner hs hx') ?above ?doc) id ?_
    case above =>
      intro x' hx' a ha
      exact Nat.lt_of_lt_of_le (c.rank_lt hx hs hx') (habove a ha)
    case doc =>
      -- the aliases of the page hold in the pages of its includes, too
      intro x' hx' raw hraw
      obtain ⟨i, _, rfl⟩ := List.mem_map.1 hx'
      have hlt := c.rank_lt hx hs hx'
      refine Keeps.mono (ih (hx.inner hs hx') hraw ?_) ?_ fun _ => id
      · refine List.forall_mem_cons.2 ⟨Nat.le_refl _, ?_⟩
        intro a ha
        exact Nat.le_of_lt (Nat.lt_of_lt_of_le hlt (habove a ha))
      · intro hrank
        exact Nat.lt_of_lt_of_le hlt (Nat.le_of_lt_succ hrank)
    intro r hr
    have htext := Tour.sheet_of_ok c hk.fits hx hs
    have hexpand := Tour.expand_eq c hk.fits hx (Nat.lt_succ_self _)
    have hfree := hk.regular.unspoilt x _ _ hx hexpand n
    rw [htext] at hfree ⊢
    rw [hr hfree]
    exact ⟨rfl, rfl⟩

/-! ### Sessions -/

def runErrand (env : Setting ω τ) (depth : Nat) (r : Errand) :
    StateM (Desk ω τ) (Except Failure Resolution) :=
  run { env with viewer := r.viewer } depth r.text r.contract r.aliases

/-- The desk after errands were run one after another. -/
def afterErrands (env : Setting ω τ) (depth : Nat) (rs : List Errand) (d : Desk ω τ) : Desk ω τ :=
  rs.foldl (fun d r => (runErrand env depth r d).2) d

/-- An errand leaves in the cache only what the sheet says, and gives its page filled in from
    the sheet. -/
theorem errand_keeps (halike : Alias.Alike env.token r.text)
    (hr : (r.tour answers).Regular env.host w env.token) (hfits : (r.tour answers).Fits sheet)
    (c : (r.tour answers).Ranking) {d : Desk ω τ} (hd : Filed env.host w sheet d) (depth : Nat) :
    Filed env.host w sheet (runErrand env depth r d).2 ∧
      (c.bound < depth →
        ¬ env.token d.drawn <:+: (Alias.body r.text).filledFrom r.inForce r.contract sheet →
        (runErrand env depth r d).1 =
          .ok ⟨(Alias.body r.text).filledFrom r.inForce r.contract sheet, false,
            ((r.tour answers).top.map Scoped.key).reverse⟩) := by
  cases depth with
  | zero => exact ⟨hd, fun h => absurd h (Nat.not_lt_zero _)⟩
  | succ depth =>
    have hguided : Guided { env with viewer := r.viewer } w (r.tour answers) sheet := ⟨rfl, hr, hfits⟩
    have hstart : ∀ n, Recalls { env with viewer := r.viewer } w (r.tour answers) sheet
        { d with drawn := n, fetched := OrderedMap.empty } := by
      refine fun n => ⟨⟨hd.world, hd.cached⟩, ?_⟩
      rintro x _ r ⟨⟩
    have hkeeps := keeps_body hguided c (c.bound < depth + 1)
      (resolve { env with viewer := r.viewer } depth) []
      (.of_alike hr.tokens halike d.drawn r.aliases) (fun x hx => .top hx)
      (fun x _ a ha => absurd ha List.not_mem_nil) ?nested
    case nested =>
      intro x hx raw hraw
      have hmeets : (r.tour answers).Meets x := .top hx
      obtain ⟨i, _, rfl⟩ := List.mem_map.1 hx
      refine Keeps.mono (keeps_document hguided c depth hmeets hraw ?_) ?_ fun _ => id
      · exact List.forall_mem_singleton.2 (Nat.le_refl _)
      · intro hbound
        exact Nat.lt_of_lt_of_le (c.rank_lt_bound hmeets) (Nat.le_of_lt_succ hbound)
    obtain ⟨⟨q, hrecalls, hdesk⟩, hgives, hends⟩ := keeps_run hkeeps hstart
    rw [runErrand]
    refine ⟨hdesk ▸ hrecalls.toFiled, ?_⟩
    intro hbound hfree
    obtain ⟨result, hresult⟩ := hends hbound
    rw [hresult, hgives result hresult hfree]
    rfl

/-- After errands that all fit on the sheet, only what it says is in the cache. -/
theorem afterErrands_keeps (h : Session env answers w rs)
    (hfits : ∀ r ∈ rs, (r.tour answers).Fits sheet) {d : Desk ω τ} (hd : Filed env.host w sheet d)
    (depth : Nat) : Filed env.host w sheet (afterErrands env depth rs d) := by
  induction rs generalizing d with
  | nil => exact hd
  | cons r rs ih =>
    have hregular := h.regular r List.mem_cons_self
    obtain ⟨c⟩ := hregular.orderly.exists_ranking
    have hfiled := (errand_keeps (h.alike r List.mem_cons_self) hregular (hfits r List.mem_cons_self)
      c hd depth).1
    exact ih (h.sublist (List.sublist_cons_self r rs)) (fun q hq => hfits q (List.mem_cons_of_mem _ hq))
      hfiled

/-- Whatever was run before, an errand gives its page with everything expanded in its own
    scope. -/
theorem runErrand_scoped (env : Setting ω τ) (answers : Call → Except RemoteFailure Text) (w : ω)
    (r : Errand) (hr : Session env answers w [r])
    (hunspoilt : ∀ n text, r.expand answers n = some text → ∀ m, ¬ env.token m <:+: text) :
    ∃ bound text, ∀ depth, bound ≤ depth →
      r.expand answers depth = some text ∧
      ∀ earlier : List Errand, Session env answers w (r :: earlier) →
        ∀ d, Fresh env.host w d → (runErrand env depth r (afterErrands env depth earlier d)).1 =
          .ok ⟨text, false, ((r.tour answers).top.map Scoped.key).reverse⟩ := by
  have hself := List.mem_singleton_self r
  have hregular := hr.regular r hself
  obtain ⟨c⟩ := hregular.orderly.exists_ranking
  obtain ⟨sheet, hfits⟩ := hr.exists_sheet
  have hpage : r.expand answers c.bound = some _ :=
    Tour.expandPage_eq c (hfits r hself) rfl (Nat.le_refl _)
  refine ⟨c.bound + 1, _, fun depth hdepth =>
    ⟨Tour.expandPage_mono hpage (Nat.le_of_succ_le hdepth), fun earlier hsession d hd => ?_⟩⟩
  -- the sheet of the whole session says the same about the includes of this page
  obtain ⟨sheet', hfits'⟩ := hsession.exists_sheet
  have hfit := hfits' r List.mem_cons_self
  have hpage' : r.expand answers c.bound = some _ := Tour.expandPage_eq c hfit rfl (Nat.le_refl _)
  have hfiled := afterErrands_keeps (hsession.sublist (List.sublist_cons_self r earlier))
    (fun q hq => hfits' q (List.mem_cons_of_mem _ hq)) hd.filed depth
  rw [Tour.expandPage_unique hpage hpage']
  exact (errand_keeps (hr.alike r hself) hregular hfit c hfiled depth).2 hdepth
    (hunspoilt _ _ hpage' _)

/-! ### Errands over the pages of a table -/

/-- What is asked of a session of errands over the pages of a table can be computed. -/
theorem Session.of_charted {pages : Pages} (rank : Text → Nat) (n : Nat)
    (h : (∀ r ∈ rs, r.Charted pages rank n) ∧ ∀ q ∈ rs, ∀ r ∈ rs, q.Together pages r) :
    Session pages.setting pages.answers () rs where
  alike r hr := (h.1 r hr).alike
  regular r hr := (h.1 r hr).regular (h.2 r hr r hr)
  agrees q hq r hr := (h.1 q hq).chart.agrees (h.1 r hr).chart (h.2 q hq r hr)

/-- Two documents that define `t` for themselves, and documents without aliases of their own. -/
def aliasedPages : Pages :=
  [(("A".toList, "render".toList), "a".toList),
    (("P".toList, "render".toList), "{{aliases t=U}}{{include contract=@t}}".toList),
    (("W".toList, "render".toList), "{{include contract=@t}}".toList),
    (("U".toList, "render".toList), "u".toList),
    (("V".toList, "render".toList), "v".toList)]

def askUnderU : Errand :=
  ⟨⟨"{{aliases t=U}}{{include contract=@t}}{{include contract=A}}".toList, "C".toList, none⟩,
    OrderedMap.empty⟩

def askUnderV : Errand :=
  ⟨⟨"{{aliases t=V}}{{include contract=P}}{{include contract=W}}{{include contract=A}}".toList,
    "C".toList, none⟩, OrderedMap.empty⟩

/-- The pages of the asked page have rank one, and those below them rank zero. -/
def rankOfKey (key : Text) : Nat := if key = "P:||".toList ∨ key = "W:||".toList then 1 else 0

theorem session_askUnderV :
    Session aliasedPages.setting aliasedPages.answers () [askUnderV, askUnderU] :=
  .of_charted rankOfKey 3 (by decide +kernel)

theorem expand_askUnderV : askUnderV.expand aliasedPages.answers 3 = some "uva".toList ∧
    ((askUnderV.tour aliasedPages.answers).top.map Scoped.key).reverse =
      ["A:||".toList, "W:||".toList, "P:||".toList] := by
  decide +kernel

theorem runErrand_scoped_askUnderV :
    ∃ bound, ∀ depth, bound ≤ depth →
      (runErrand aliasedPages.setting depth askUnderV
        (afterErrands aliasedPages.setting depth [askUnderU] .new)).1 =
        .ok ⟨"uva".toList, false, ["A:||".toList, "W:||".toList, "P:||".toList]⟩ := by
  have hunspoilt : ∀ n text, askUnderV.expand aliasedPages.answers n = some text →
      ∀ m, ¬ aliasedPages.setting.token m <:+: text := by
    intro n text htext
    rw [Tour.expandPage_unique htext expand_askUnderV.1]
    exact Verbatim.not_occurs_of_short (by decide)
  obtain ⟨bound, text, htext⟩ := runErrand_scoped aliasedPages.setting aliasedPages.answers ()
    askUnderV (session_askUnderV.sublist (List.singleton_sublist.2 List.mem_cons_self)) hunspoilt
  refine ⟨bound, fun depth hdepth => ?_⟩
  obtain ⟨hpage, hrun⟩ := htext depth hdepth
  rw [hrun [askUnderU] session_askUnderV .new ⟨.refl, fun _ => rfl⟩,
    Tour.expandPage_unique hpage expand_askUnderV.1, expand_askUnderV.2]

/-- A document whose include depends on an alias of the documents around it. -/
def openPages : Pages :=
  [(("A".toList, "render".toList), "{{include contract=@t}}".toList),
    (("U".toList, "render".toList), "u".toList),
    (("V".toList, "render".toList), "v".toList)]

def openUnderU : Errand :=
  ⟨⟨"{{aliases t=U}}{{include contract=A}}".toList, "C".toList, none⟩, OrderedMap.empty⟩

def openUnderV : Errand :=
  ⟨⟨"{{aliases t=V}}{{include contract=A}}".toList, "C".toList, none⟩, OrderedMap.empty⟩

/-- What `A` came to in one scope is cached, and put in for it in another. -/
theorem runErrand_shadowed :
    openUnderV.expand openPages.answers 3 = some "v".toList ∧
    (runErrand openPages.setting 8 openUnderV .new).1 = .ok ⟨"v".toList, false, ["A:||".toList]⟩ ∧
    (runErrand openPages.setting 8 openUnderV (afterErrands openPages.setting 8 [openUnderU] .new)).1 =
      .ok ⟨"u".toList, false, ["A:||".toList]⟩ := by
  decide +kernel

end Resolution
end PageAssembly
