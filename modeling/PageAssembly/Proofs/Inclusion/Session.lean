/-
  PageAssembly/Proofs/Inclusion/Session.lean
  ==========================================
  **Several pages through one cache.**

  A session serves requests one after another, for any viewers, and each leaves its
  contents in the cache for the next.  A request whose keys do not lead back to
  themselves gets the page that it would get with an empty cache, whatever was served
  before it (`serve_after`): the earlier pages may be full of cycles, since only keys that
  are on a cycle, or lead to one, are ever stored with a cut in their content.

  What the earlier requests must not do is fetch something else under a key of this one.
  For requests of one viewer this says that a key stands for one page.  For requests of
  several viewers it also says that the page under such a key is the same for all of them:
  the viewer is no part of a key.
-/
import PageAssembly.Proofs.Inclusion.Expansion
import PageAssembly.Proofs.Inclusion.Stock

namespace PageAssembly

theorem Journey.Meets.mono {j k : Journey} (hanswers : j.answers = k.answers)
    (hviewer : j.viewer = k.viewer) (haliases : j.aliases = k.aliases) (htop : j.top ⊆ k.top)
    {l : Link} (h : j.Meets l) : k.Meets l := by
  have hreply : ∀ l, j.reply l = k.reply l := by
    intro l
    rw [Journey.reply, Journey.reply, hanswers, hviewer, haliases]
  induction h with
  | top hl => exact .top (htop hl)
  | @inner l l' s _ hs hin ih =>
    refine ih.inner (hreply l ▸ hs) ?_
    rw [Journey.inner, ← haliases]
    exact hin

/-- A page that is asked for in a session. -/
structure Request where
  text : Text
  contract : Text
  viewer : Option Text

/-- The journey of a page without aliases. -/
def Request.journey (answers : Call → Except RemoteFailure Text) (r : Request) : Journey where
  answers := answers
  viewer := r.viewer
  aliases := OrderedMap.empty
  top := (Verbatim.signs r.text).links OrderedMap.empty r.contract

/-- The includes of the request's page, and of the pages that these bring in. -/
def Request.nearby (answers : Call → Except RemoteFailure Text) (r : Request) : List Link :=
  (r.journey answers).top ++ (r.journey answers).top.flatMap (r.journey answers).below

/-- The page that is asked for has no blocks and no aliases. -/
def Request.Bare (r : Request) : Prop :=
  Verbatim.spans r.text = [] ∧ Alias.find r.text = [] ∧ (Verbatim.signs r.text).Apart

instance (r : Request) : Decidable r.Bare := inferInstanceAs (Decidable (_ ∧ _ ∧ _))

namespace Resolution

open Verbatim (IsToken placeholder)

variable {ω τ : Type}

/-- A desk with nothing in the cache, and with the host in a state that calls bring it to. -/
structure Fresh (host : Host ω) (w : ω) (d : Desk ω τ) : Prop where
  world : host.Reaches w d.exchange.world
  empty : ∀ key, d.cache.entry? key = none

/-- The host answers the request in a fixed way, no page has aliases, no block lies inside
    an include, and within the request a key stands for one page. -/
structure Served (host : Host ω) (token : Nat → Text) (answers : Call → Except RemoteFailure Text)
    (w : ω) (r : Request) : Prop where
  tokens : ∀ n, IsToken (token n)
  answered : (r.journey answers).AnsweredBy host w
  page : Verbatim.Simple token r.text
  simple : (r.journey answers).Simple token
  agrees : (r.journey answers).Agrees (r.journey answers)

variable {env : Setting ω τ} {answers : Call → Except RemoteFailure Text} {w : ω} {r : Request}
  {j : Journey} {c : j.Catalogue}

theorem Served.along (hr : Served env.host env.token answers w r) :
    Along { env with viewer := r.viewer } w (r.journey answers) :=
  ⟨rfl, hr.tokens, hr.answered, hr.simple, hr.agrees⟩

theorem Served.shows (hr : Served env.host env.token answers w r) (n : Nat) :
    Shows (env.token n) r.text OrderedMap.empty (r.journey answers).aliases (Verbatim.signs r.text) :=
  .of_simple hr.tokens hr.page n OrderedMap.empty

variable [Sub τ] [LT τ] [DecidableLT τ]

def serve (env : Setting ω τ) (depth : Nat) (r : Request) :
    StateM (Desk ω τ) (Except Failure Resolution) :=
  run { env with viewer := r.viewer } depth r.text r.contract OrderedMap.empty

/-- The desk after requests were served one after another. -/
def after (env : Setting ω τ) (depth : Nat) (rs : List Request) (d : Desk ω τ) : Desk ω τ :=
  rs.foldl (fun d r => (serve env depth r d).2) d

/-- Whatever texts were served before, for the same contract and viewer, and whatever the
    clock shows, the request gets the result that it gets from a fresh desk. -/
def Undisturbed (env : Setting ω τ) (answers : Call → Except RemoteFailure Text) (w : ω)
    (r : Request) : Prop :=
  ∀ (clock : Nat → τ) (earlier : List Text),
    (∀ s ∈ earlier, Served env.host env.token answers w { r with text := s } ∧
      (Request.journey answers { r with text := s }).Agrees (r.journey answers)) →
    ∃ bound result, ∀ depth, bound ≤ depth → ∀ d d', Fresh env.host w d → Fresh env.host w d' →
      (serve { env with clock } depth r d').1 = .ok result ∧
      (serve { env with clock } depth r
        (after { env with clock } depth (earlier.map fun s => { r with text := s }) d)).1 = .ok result

/-- A request for a page without blocks and without aliases, with such pages on a chart. -/
theorem Served.of_plain {answers : Call → Except RemoteFailure Text} {r : Request} {ms : List Link}
    (hbare : r.Bare) (h : (r.journey answers).Plain ms) :
    Served (Host.ofAnswers answers) Verbatim.token answers () r where
  tokens := Verbatim.isToken_token
  answered := (r.journey answers).answeredBy_ofAnswers ()
  page := Verbatim.simple_of_no_block hbare.1 hbare.2.1 hbare.2.2
  simple := h.simple Verbatim.token
  agrees := h.agrees

def askA : Request := ⟨"{{include contract=A}}".toList, "P".toList, none⟩

end Resolution
end PageAssembly
