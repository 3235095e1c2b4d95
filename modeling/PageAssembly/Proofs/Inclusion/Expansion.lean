/-
  PageAssembly/Proofs/Inclusion/Expansion.lean
  ============================================
  **Sharing and caching cannot be seen.**

  A pass resolves an include once per key and page, fetches once per key, reads and
  writes the cache on the way, and works on masked pages.  The page that comes out is
  nevertheless the naive expansion, `run_eq_expandPage`: alias directives are gone,
  protected blocks are bare, and every include is replaced by the expansion of its own
  page, or by a marker when its call failed.

  The page that is asked for may define aliases; they hold in all pages below it.
-/
import PageAssembly.Proofs.Inclusion.Chart

namespace PageAssembly

namespace Journey

/-- The journey of a page that is asked for, when its blocks are masked with the token `t`. -/
def ofPage (answers : Call → Except RemoteFailure Text) (viewer : Option Text) (aliases : Aliases)
    (t s contract : Text) : Journey :=
  let inForce := Aliases.extend aliases (Alias.defined (Verbatim.mask t s))
  ⟨answers, viewer, inForce, (Alias.left t s).links inForce contract⟩

end Journey

namespace Resolution

open Verbatim (IsToken placeholder)

variable {ω τ : Type} [Sub τ] [LT τ] [DecidableLT τ] {env : Setting ω τ} {w : ω} {k j : Journey}
  {c : j.Catalogue}

/-- A pass over the page that is asked for leaves behind a state that is sound but for what
    failed, and gives the page filled in from the catalogue if its includes are certain. -/
theorem run_keeps_except {frail : Set Text} {live : Cache.Entry τ → Prop}
    (ha : AlongExcept frail env w k) (hlive : ∀ n e, env.clock n - e.stamp < env.ttl → live e)
    (hf : Fits k c env.token) {s contract : Text} {aliases : Aliases} {d : Desk ω τ} {g : Signs}
    (hshows : Shows (env.token d.drawn) s aliases k.aliases g)
    (htop : k.top = g.links k.aliases contract)
    (hd : SoundExcept frail live env w k c { d with fetched := OrderedMap.empty }) (depth : Nat) :
    (∃ p, SoundExcept frail live env w k c p ∧ (run env depth s contract aliases d).2 = p.toDesk) ∧
      ((∀ l ∈ k.top, Certain j frail l) → c.bound < depth →
        (¬ env.token d.drawn <:+: g.weave fun i => c.text (Link.of k.aliases contract i)) →
        (run env depth s contract aliases d).1 =
          .ok ⟨g.weave fun i => c.text (Link.of k.aliases contract i), false,
            (k.top.map Link.key).reverse⟩) := by
  cases depth with
  | zero => exact ⟨⟨_, hd, rfl⟩, fun _ h => absurd h (Nat.not_lt_zero _)⟩
  | succ depth =>
    have hkeeps := keeps_page ((∀ l ∈ k.top, Certain j frail l) ∧ c.bound ≤ depth) (resolve env depth)
      [] ha hlive hf hshows (fun l hl => .top (htop ▸ hl))
      (fun l _ m _ habove => absurd habove List.not_mem_nil) ?nested
    case nested =>
      intro l hl raw hraw
      have hmeets : k.Meets l := .top (htop ▸ hl)
      refine Keeps.mono (keeps_resolve ha hlive hf depth hmeets hraw fun l' hl' =>
        below_inner hf hmeets hraw (fun m _ habove => absurd habove List.not_mem_nil) hl') ?_ fun _ => id
      rintro ⟨hcertain, hbound⟩
      have hm := (hcertain l (htop ▸ hl)).1
      exact ⟨l, hm, rfl, Nat.lt_of_lt_of_le (c.rank_lt_bound hm) hbound⟩
    obtain ⟨hsound, hgives, hends⟩ := keeps_run hkeeps fun _ => ⟨hd.world, hd.fetched, hd.cached⟩
    refine ⟨hsound, fun hcertain hbound hfree => ?_⟩
    obtain ⟨r, hr⟩ := hends ⟨hcertain, Nat.le_of_lt_succ hbound⟩
    rw [hr, hgives r hr (fun l hl => hcertain l (htop ▸ hl)) hfree, ← htop]

/-- The same where every call is answered. -/
theorem run_keeps (ha : Along env w k) (hf : Fits k c env.token) {s contract : Text}
    {aliases : Aliases} {d : Desk ω τ} {g : Signs}
    (hshows : Shows (env.token d.drawn) s aliases k.aliases g)
    (htop : k.top = g.links k.aliases contract)
    (hd : Sound env w k c { d with fetched := OrderedMap.empty }) (depth : Nat) :
    (∃ p, Sound env w k c p ∧ (run env depth s contract aliases d).2 = p.toDesk) ∧
      ((∀ l ∈ k.top, j.Meets l) → c.bound < depth →
        (¬ env.token d.drawn <:+: g.weave fun i => c.text (Link.of k.aliases contract i)) →
        (run env depth s contract aliases d).1 =
          .ok ⟨g.weave fun i => c.text (Link.of k.aliases contract i), false,
            (k.top.map Link.key).reverse⟩) := by
  obtain ⟨⟨p, hp, hstate⟩, hgives⟩ := run_keeps_except ha.except (fun _ _ _ => trivial) hf hshows htop
    (soundExcept_empty.2 hd) depth
  refine ⟨⟨p, soundExcept_empty.1 hp, hstate⟩, fun hmeets => hgives fun l hl => ?_⟩
  exact ⟨hmeets l hl, Set.notMem_empty _, not_tainted_empty _⟩

/-- A page without its alias directives. -/
theorem Shows.of_left {t s : Text} (htoken : IsToken t) (aliases : Aliases)
    (hapart : (Alias.left t s).Apart) :
    Shows t s aliases (Aliases.extend aliases (Alias.defined (Verbatim.mask t s))) (Alias.left t s) :=
  ⟨htoken, hapart, Alias.left_sublist t s, Alias.veiled_left htoken s, rfl⟩

/-- The signs of a page that is resolved from the desk `d`, without its alias directives. -/
def page (env : Setting ω τ) (d : Desk ω τ) (s : Text) : Signs := Alias.left (env.token d.drawn) s

/-- The journey of a page that is resolved from the desk `d`. -/
def journey (env : Setting ω τ) (answers : Call → Except RemoteFailure Text) (d : Desk ω τ)
    (s contract : Text) (aliases : Aliases) : Journey :=
  .ofPage answers env.viewer aliases (env.token d.drawn) s contract

/-- What is asked of a host, a desk and a page for the pass to give the naive expansion.

    The host answers every include that is met in a fixed way, includes with one key agree,
    the keys do not lead back to themselves, the included pages define no aliases, no block
    lies inside an include, no token occurs in any text, and the cache is empty. -/
structure Expandable (env : Setting ω τ) (answers : Call → Except RemoteFailure Text)
    (d : Desk ω τ) (s contract : Text) (aliases : Aliases) : Prop where
  tokens : ∀ n, IsToken (env.token n)
  empty : ∀ key, d.cache.entry? key = none
  answered : (journey env answers d s contract aliases).AnsweredBy env.host d.exchange.world
  orderly : (journey env answers d s contract aliases).Orderly
  simple : (journey env answers d s contract aliases).Simple env.token
  apart : (page env d s).Apart
  unspoilt : (journey env answers d s contract aliases).Unspoilt env.token contract (page env d s)

/-- A pass with an empty cache gives the naive expansion of the page: no cycle is reported,
    and the keys of the page's own includes are listed from the last to the first. -/
theorem run_eq_expandPage (env : Setting ω τ) (answers : Call → Except RemoteFailure Text)
    (d : Desk ω τ) (s contract : Text) (aliases : Aliases)
    (h : Expandable env answers d s contract aliases) :
    ∃ bound text, ∀ depth, bound ≤ depth →
      (journey env answers d s contract aliases).expandPage depth contract (page env d s) = some text ∧
      (run env depth s contract aliases d).1 =
        .ok ⟨text, false, ((journey env answers d s contract aliases).top.map Link.key).reverse⟩ := by
  obtain ⟨c⟩ := h.orderly.exists_catalogue
  have ha : Along env d.exchange.world (journey env answers d s contract aliases) :=
    ⟨rfl, h.tokens, h.answered, h.simple, h.orderly.agrees⟩
  have hf : Fits (journey env answers d s contract aliases) c env.token := by
    refine ⟨rfl, h.orderly.agrees, fun l hl n => ?_⟩
    exact h.unspoilt.links l _ _ hl (c.expand_eq hl (Nat.lt_succ_self _)) n
  have hd : Sound env d.exchange.world (journey env answers d s contract aliases) c
      { d with fetched := OrderedMap.empty } := by
    refine ⟨⟨.refl, ?_⟩, ?_⟩
    · rintro l _ x ⟨⟩
    · intro l _ e he
      rw [h.empty] at he
      cases he
  refine ⟨c.bound + 1, (page env d s).weave fun i =>
    c.text (Link.of (journey env answers d s contract aliases).aliases contract i),
    fun depth hdepth => ?_⟩
  have hpage := c.expandPage_eq contract (page env d s) rfl
    (Nat.le_of_succ_le hdepth)
  refine ⟨hpage, ?_⟩
  have hrun := (run_keeps ha hf (Shows.of_left (h.tokens d.drawn) aliases h.apart) rfl hd depth).2
  exact hrun (fun l hl => .top hl) hdepth (h.unspoilt.page _ _ hpage d.drawn)

/-! ### A page with an alias, a block, and an include that is met twice -/

def nestedPages : Pages :=
  [(("A".toList, "render".toList), "a{{include contract=B}}".toList),
    (("B".toList, "render".toList), "b".toList)]

def nestedText : Text :=
  "{{aliases p=A}}x{{noparse}}{{y}}{{/noparse}}{{include contract=p}}{{include contract=B}}".toList

def nestedJourney : Journey :=
  journey nestedPages.setting nestedPages.answers .new nestedText "C".toList OrderedMap.empty

theorem small_nestedJourney : nestedJourney.Small nestedJourney.top
    (fun key => if key = "A:||".toList then 1 else 0) 3 "C".toList (page nestedPages.setting .new nestedText) := by
  decide +kernel

theorem expandable_nestedText :
    Expandable nestedPages.setting nestedPages.answers .new nestedText "C".toList OrderedMap.empty where
  tokens := Verbatim.isToken_token
  empty := fun _ => rfl
  answered := nestedJourney.answeredBy_ofAnswers ()
  orderly := small_nestedJourney.orderly
  simple := small_nestedJourney.plain.simple Verbatim.token
  apart := by decide +kernel
  unspoilt := small_nestedJourney.unspoilt

theorem run_eq_expandPage_nested :
    ∃ bound text, ∀ depth, bound ≤ depth →
      nestedJourney.expandPage depth "C".toList (page nestedPages.setting .new nestedText) = some text ∧
      (run nestedPages.setting depth nestedText "C".toList OrderedMap.empty .new).1 =
        .ok ⟨text, false, (nestedJourney.top.map Link.key).reverse⟩ :=
  run_eq_expandPage nestedPages.setting nestedPages.answers .new nestedText "C".toList
    OrderedMap.empty expandable_nestedText

end Resolution
end PageAssembly
