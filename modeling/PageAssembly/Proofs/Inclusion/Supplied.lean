/-
  PageAssembly/Proofs/Inclusion/Supplied.lean
  ===========================================
  **Sites with fixed answers, on which every pass ends.**

  Such a site gives every call the same answer each time, and has finitely many pages under
  finitely many contracts.  Its pages may include each other in any way.  As no include
  holds a block, there are finitely many keys (`Supplied.key_mem`); each page that is
  entered uses one of them up, so passes end (`run_ends_supplied`), in a state with
  everything that single fetches and entries keep (`Steadfast`).

  Alias directives may hold blocks.  A contract id that is defined with one shows the token of
  its page, so it is another one each time the page is opened, and no contract of the site.
  What is asked for is only that an include which goes to a contract of the site does not do so
  by the accident of a token (`steady`).  Where no directive holds a block this is no question
  (`Supplied.of_alike`).
-/
import PageAssembly.Proofs.Inclusion.Abreast
import PageAssembly.Proofs.Inclusion.Termination

namespace PageAssembly

open Verbatim (IsToken)

/-- The aliases in force on the page when its blocks are masked with the token `t`. -/
def Opened.inForce (t : Text) (o : Opened) : Aliases :=
  Aliases.extend o.aliases (Alias.defined (Verbatim.mask t o.text))

/-- The pages that may be opened, when each of the pages may be brought in by any include. -/
inductive Opens (token : Nat → Text) (pages : List Text) (start : Opened) : Opened → Prop
  | start : Opens token pages start start
  | inner {o : Opened} {n : Nat} {p : Resolution.Planned} {raw : Text} : Opens token pages start o →
      p ∈ o.plans (token n) → raw ∈ pages → Opens token pages start (o.below (token n) p raw)

/-- The keys of the includes that letters of the texts can make, under the contracts. -/
def keysAmong (texts contracts : List Text) : List Text :=
  texts.flatMap fun s => (Verbatim.sayings s).flatMap fun i => contracts.map i.key

theorem Opens.text_mem {token : Nat → Text} {pages : List Text} {start o : Opened}
    (h : Opens token pages start o) : o.text ∈ start.text :: pages := by
  cases h with
  | start => exact List.mem_cons_self
  | inner _ _ hraw => exact List.mem_cons_of_mem _ hraw

/-! ### Contracts that are named -/

/-- An include is resolved to the contract at hand, to what it names, or to an alias. -/
theorem Aliases.target_cases (t : Aliases) (reference current : Text) :
    t.target reference current = current ∨ t.target reference current = reference ∨
      ∃ e ∈ t.entries, e.2 = t.target reference current := by
  have hlookup : ∀ name, (t.get? name).getD reference = reference ∨
      ∃ e ∈ t.entries, e.2 = (t.get? name).getD reference := by
    intro name
    cases h : t.get? name with
    | none => exact Or.inl rfl
    | some c => exact Or.inr ⟨(name, c), OrderedMap.get?_eq_some_iff.1 h, rfl⟩
  unfold target
  split
  · exact Or.inl rfl
  · right
    unfold resolve
    split
    · exact hlookup _
    · exact hlookup _

/-- The contracts that the first page and the others name, in their includes or as aliases. -/
def contractsAmong (start : Opened) (pages : List Text) : List Text :=
  start.contract :: (start.aliases.entries.map Prod.snd ++ (start.text :: pages).flatMap fun s =>
    (Alias.own s).entries.map Prod.snd ++ (Verbatim.sayings s).map Inclusion.contract)

namespace Opens

variable {token : Nat → Text} {pages : List Text} {start o : Opened}

/-- What the page and the documents around it name is named. -/
theorem inForce_named (halike : ∀ s ∈ start.text :: pages, Alias.Alike token s) (h : Opens token pages start o)
    (haliases : ∀ e ∈ o.aliases.entries, e.2 ∈ contractsAmong start pages) (n : Nat) :
    ∀ e ∈ (o.inForce (token n)).entries, e.2 ∈ contractsAmong start pages := by
  intro e he
  rcases OrderedMap.mem_entries_insertAll he with he | he
  · rw [(halike _ h.text_mem).defined_eq] at he
    refine List.mem_cons_of_mem _ (List.mem_append_right _ (List.mem_flatMap.2 ⟨o.text, h.text_mem, ?_⟩))
    exact List.mem_append_left _ (List.mem_map_of_mem he)
  · exact haliases e he

theorem aliases_named (halike : ∀ s ∈ start.text :: pages, Alias.Alike token s)
    (h : Opens token pages start o) : ∀ e ∈ o.aliases.entries, e.2 ∈ contractsAmong start pages := by
  induction h with
  | start =>
    intro e he
    exact List.mem_cons_of_mem _ (List.mem_append_left _ (List.mem_map_of_mem he))
  | @inner o n p raw ho _ _ ih => exact ho.inForce_named halike ih n

theorem target_named (htokens : ∀ n, IsToken (token n))
    (halike : ∀ s ∈ start.text :: pages, Alias.Alike token s) (h : Opens token pages start o)
    (hcontract : o.contract ∈ contractsAmong start pages) {n : Nat} {p : Resolution.Planned}
    (hp : p ∈ o.plans (token n)) : p.target ∈ contractsAmong start pages := by
  obtain ⟨i, hi, rfl⟩ := List.mem_map.1 hp
  have hs := halike _ h.text_mem
  have hsaying := Verbatim.mem_sayings_of_apart (htokens n) (by rw [hs.left_eq n]; exact hs.apart) hi
  change (o.inForce (token n)).target i.value.contract o.contract ∈ contractsAmong start pages
  obtain heq | heq | ⟨e, he, heq⟩ := (o.inForce (token n)).target_cases i.value.contract o.contract
  · rw [heq]
    exact hcontract
  · rw [heq]
    refine List.mem_cons_of_mem _ (List.mem_append_right _ (List.mem_flatMap.2 ⟨o.text, h.text_mem, ?_⟩))
    exact List.mem_append_right _ (List.mem_map_of_mem hsaying)
  · rw [← heq]
    exact h.inForce_named halike (h.aliases_named halike) n e he

theorem contract_named (htokens : ∀ n, IsToken (token n))
    (halike : ∀ s ∈ start.text :: pages, Alias.Alike token s) (h : Opens token pages start o) :
    o.contract ∈ contractsAmong start pages := by
  induction h with
  | start => exact List.mem_cons_self
  | inner ho hp _ ih => exact ho.target_named htokens halike ih hp

end Opens

namespace Resolution

variable {ω τ : Type} {env : Setting ω τ} {answers : Call → Except RemoteFailure Text} {start : Opened}
  {pages contracts : List Text}

/-- The host gives fixed answers.  What it answers the includes of pages that may be opened are
    the pages, under the contracts, and none of their includes holds a block.  By way of an alias a
    key may still show the token, but then it is none of finitely many: includes of the first page
    with such keys have them under every token. -/
structure Supplied (env : Setting ω τ) (answers : Call → Except RemoteFailure Text) (start : Opened)
    (pages contracts : List Text) : Prop where
  tokens : ∀ n, IsToken (env.token n)
  fixed : env.host.AnswersAs answers
  finite : ∀ o n p s, Opens env.token pages start o → p ∈ o.plans (env.token n) →
    answers (p.call env.viewer (o.inForce (env.token n))) = .ok s → s ∈ pages ∧ p.target ∈ contracts
  apart : ∀ s ∈ start.text :: pages, ∀ n, (Alias.left (env.token n) s).Apart
  steady : ∀ m n,
    (∀ p ∈ start.plans (env.token m), p.key ∈ keysAmong (start.text :: pages) contracts) →
      (start.plans (env.token n)).map Planned.key = (start.plans (env.token m)).map Planned.key

theorem Supplied.key_mem (h : Supplied env answers start pages contracts) {o : Opened}
    (ho : Opens env.token pages start o) {n : Nat} {p : Planned} (hp : p ∈ o.plans (env.token n))
    (htarget : p.target ∈ contracts) : p.key ∈ keysAmong (start.text :: pages) contracts := by
  obtain ⟨i, hi, rfl⟩ := List.mem_map.1 hp
  have hsaying := Verbatim.mem_sayings_of_apart (h.tokens n) (h.apart _ ho.text_mem n) hi
  exact List.mem_flatMap.2 ⟨o.text, ho.text_mem, List.mem_flatMap.2
    ⟨i.value, hsaying, List.mem_map.2 ⟨_, htarget, rfl⟩⟩⟩

/-- Where no directive holds a block, it is enough that the host has fixed answers and that these
    are the pages. -/
theorem Supplied.of_alike (htokens : ∀ n, IsToken (env.token n)) (hfixed : env.host.AnswersAs answers)
    (hpages : ∀ c s, answers c = .ok s → s ∈ pages)
    (halike : ∀ s ∈ start.text :: pages, Alias.Alike env.token s) :
    Supplied env answers start pages (contractsAmong start pages) where
  tokens := htokens
  fixed := hfixed
  finite := by
    intro o n p s ho hp hs
    exact ⟨hpages _ s hs, ho.target_named htokens halike (ho.contract_named htokens halike) hp⟩
  apart := by
    intro s hs n
    rw [(halike s hs).left_eq n]
    exact (halike s hs).apart
  steady := by
    intro m n _
    have hdemands := demands_eq_of_alike htokens (halike start.text List.mem_cons_self) n m start.contract
      start.aliases
    have hkeys := congrArg (List.map fun x => x.2.2) hdemands
    rwa [List.map_map, List.map_map] at hkeys

/-- What all single steps of a pass keep, whatever they fetch and whatever they put into the cache
    under the keys. -/
structure Steadfast (env : Setting ω τ) (keys : List Text) (I : Pass ω τ → Prop) : Prop
    extends Indifferent I where
  fetch : ∀ key call q, I q → I (fetch env key call q).2
  kept : ∀ key ∈ keys, ∀ content q, I q → I (kept env key content q)

/-- What was fetched failed as a remote call, or is one of the pages, under one of the keys. -/
def Listed (pages keys : List Text) (q : Pass ω τ) : Prop :=
  ∀ key x, q.fetched.get? key = some x →
    (∃ f, x = .error (.remote f)) ∨ ∃ raw ∈ pages, x = .ok raw ∧ key ∈ keys

theorem listed_fetch (h : Supplied env answers start pages contracts) {o : Opened}
    (ho : Opens env.token pages start o) {n : Nat} {p : Planned} (hp : p ∈ o.plans (env.token n))
    {q : Pass ω τ} (hq : Listed pages (keysAmong (start.text :: pages) contracts) q) :
    Listed pages (keysAmong (start.text :: pages) contracts)
        (fetch env p.key (p.call env.viewer (o.inForce (env.token n))) q).2 ∧
      (fetch env p.key (p.call env.viewer (o.inForce (env.token n))) q).2.fetched.get? p.key =
        some (fetch env p.key (p.call env.viewer (o.inForce (env.token n))) q).1 := by
  cases hfetched : q.fetched.get? p.key with
  | some x =>
    rw [fetch_of_some env hfetched]
    exact ⟨hq, hfetched⟩
  | none =>
    rw [fetch_of_none env _ hfetched, h.fixed _]
    refine ⟨fun key x hx => ?_, (OrderedMap.get?_insert ..).trans (if_pos rfl)⟩
    rw [OrderedMap.get?_insert] at hx
    split at hx
    · next hkey =>
      cases hx
      cases hanswer : answers (p.call env.viewer (o.inForce (env.token n))) with
      | error f => exact Or.inl ⟨f, rfl⟩
      | ok raw =>
        obtain ⟨hraw, htarget⟩ := h.finite o n p raw ho hp hanswer
        exact Or.inr ⟨raw, hraw, rfl, hkey ▸ h.key_mem ho hp htarget⟩
    · exact hq key x hx

section

variable [Sub τ] [LT τ] [DecidableLT τ] {I : Pass ω τ → Prop}

/-- With every page that is entered there is less room among the keys. -/
theorem keeps_resolve_supplied (h : Supplied env answers start pages contracts)
    (hI : Steadfast env (keysAmong (start.text :: pages) contracts) I)
    (depth : Nat) {o : Opened} (ho : Opens env.token pages start o) (above : List Text) :
    Keeps (fun q => Listed pages (keysAmong (start.text :: pages) contracts) q ∧ I q)
      ((room (keysAmong (start.text :: pages) contracts).toFinset above).card < depth) (fun _ => True)
      (resolve env depth o.text o.contract above o.aliases) := by
  have hindifferent : Indifferent fun q : Pass ω τ =>
      Listed pages (keysAmong (start.text :: pages) contracts) q ∧ I q :=
    ⟨fun q n hq => ⟨hq.1, hI.drawn q n hq.2⟩, fun q n hq => ⟨hq.1, hI.ticks q n hq.2⟩⟩
  induction depth generalizing o above with
  | zero => exact Keeps.throw _ (Nat.not_lt_zero _)
  | succ depth ih =>
    refine keeps_resolveWith hindifferent fun n => ?_
    refine keeps_resolveMasked hindifferent
      (fun p x => (∃ f, x = .error (.remote f)) ∨
        ∃ raw ∈ pages, x = .ok raw ∧ p.key ∈ keysAmong (start.text :: pages) contracts)
      ?fetch ?failed ?document ?kept
    case fetch =>
      rintro p hp q ⟨hlisted, hq⟩
      obtain ⟨hlisted', hfound⟩ := listed_fetch h ho hp hlisted
      exact ⟨⟨hlisted', hI.fetch p.key _ q hq⟩, hlisted' p.key _ hfound⟩
    case failed =>
      rintro p - e (⟨f, hf⟩ | ⟨raw, -, hraw, -⟩)
      · cases hf
        exact ⟨f, rfl⟩
      · cases hraw
    case document =>
      rintro p hp habove raw (⟨f, hf⟩ | ⟨raw', hpage, hraw, hkey⟩)
      · cases hf
      · cases hraw
        have hroom := room_cons_lt (List.mem_toFinset.2 hkey) habove
        exact Keeps.mono (ih (.inner ho hp hpage) _) (fun hsure => by omega) fun _ => id
    case kept =>
      rintro p - raw (⟨f, hf⟩ | ⟨_, -, -, hkey⟩) content q ⟨hlisted, hq⟩
      · cases hf
      · exact ⟨hlisted, hI.kept p.key hkey content q hq⟩

end

end Resolution
end PageAssembly
