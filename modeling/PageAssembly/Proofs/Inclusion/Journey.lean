/-
  PageAssembly/Proofs/Inclusion/Journey.lean
  ==========================================
  **The naive expansion of a page, and when it ends.**

  The naive way to fill a page in keeps nothing: it makes the call of every include anew,
  expands the page that comes back in the same way, and puts it in.  `expand` is that, to
  a bound on the nesting; it gives nothing where the bound is reached.

  A journey is what there is to expand: how calls are answered, the viewer, the aliases
  in force, and the includes of the page that is asked for.  It *meets* the includes
  that the expansion comes by.  It is *orderly* when a key stands for one page only and
  the finitely many keys do not lead back to themselves.  An orderly journey has a
  catalogue (`Orderly.exists_catalogue`): every include that it meets has a text, which
  all deep enough expansions give, and every include of its page has a lower rank.
-/
import PageAssembly.Exchange.Argument
import PageAssembly.Exchange.Host
import PageAssembly.Inclusion.Key
import PageAssembly.Proofs.Inclusion.Page
import Mathlib.Data.Set.Card
import Mathlib.Logic.Relation

namespace PageAssembly

/-- What leads only into a finite set, and never back, has a rank that falls along it: how
    much can still be reached. -/
theorem exists_rank {α : Type} {r : α → α → Prop} {S : Set α} (hS : S.Finite)
    (hr : ∀ a b, r a b → b ∈ S) (hacyclic : ∀ a, ¬ Relation.TransGen r a a) :
    ∃ rank : α → Nat, (∀ a, rank a ≤ S.ncard) ∧ ∀ a b, r a b → rank b < rank a := by
  have hsub : ∀ a, {b | Relation.TransGen r a b} ⊆ S := by
    intro a b hab
    obtain ⟨c, _, hcb⟩ := Relation.TransGen.tail'_iff.1 hab
    exact hr c b hcb
  refine ⟨fun a => {b | Relation.TransGen r a b}.ncard, fun a => Set.ncard_le_ncard (hsub a) hS, ?_⟩
  intro a b hab
  refine Set.ncard_lt_ncard ⟨fun c hc => Relation.TransGen.head hab hc, fun hback => ?_⟩
    (hS.subset (hsub a))
  exact hacyclic b (hback (Relation.TransGen.single hab))

/-- Where a rank falls along every step, no path comes back to its start. -/
theorem acyclic_of_rank {α : Type} {r : α → α → Prop} (rank : α → Nat)
    (hrank : ∀ a b, r a b → rank b < rank a) (a : α) : ¬ Relation.TransGen r a a := by
  have hpath : ∀ a b, Relation.TransGen r a b → rank b < rank a := by
    intro a b hab
    induction hab with
    | single hstep => exact hrank _ _ hstep
    | tail _ hstep ih => exact (hrank _ _ hstep).trans ih
  intro hback
  exact Nat.lt_irrefl _ (hpath a a hback)

/-- An include with the contract that it is resolved to. -/
structure Link where
  inclusion : Inclusion
  target : Text

namespace Link

def of (aliases : Aliases) (contract : Text) (i : Inclusion) : Link :=
  ⟨i, Aliases.target aliases i.contract contract⟩

def key (l : Link) : Text := l.inclusion.key l.target

def call (l : Link) (viewer : Option Text) (aliases : Aliases) : Call where
  target := l.target
  function := some (renderFunction l.inclusion.func)
  arguments := l.inclusion.arguments viewer aliases

end Link

/-- The includes of a page that belongs to `contract`. -/
def Signs.links (g : Signs) (aliases : Aliases) (contract : Text) : List Link :=
  g.includes.map (Link.of aliases contract)

/-- What there is to expand. -/
structure Journey where
  answers : Call → Except RemoteFailure Text
  viewer : Option Text
  aliases : Aliases
  top : List Link

namespace Journey

/-- What the call of an include gives. -/
def reply (j : Journey) (l : Link) : Except RemoteFailure Text := j.answers (l.call j.viewer j.aliases)

/-- The includes of the page `s` that an include brought in. -/
def inner (j : Journey) (l : Link) (s : Text) : List Link := (Verbatim.signs s).links j.aliases l.target

/-- The include is one that the expansion comes by. -/
inductive Meets (j : Journey) : Link → Prop
  | top {l : Link} : l ∈ j.top → Meets j l
  | inner {l l' : Link} {s : Text} :
      Meets j l → j.reply l = .ok s → l' ∈ j.inner l s → Meets j l'

/-- A page fetched under the key `a` has an include with the key `b`. -/
def Leads (j : Journey) (a b : Text) : Prop :=
  ∃ l s l', j.Meets l ∧ j.reply l = .ok s ∧ l' ∈ j.inner l s ∧ l.key = a ∧ l'.key = b

/-- The text of an include, when includes are nested less deep than the bound. -/
def expand (j : Journey) : Nat → Link → Option Text
  | 0, _ => none
  | n + 1, l =>
    match j.reply l with
    | .error e => some (Marker.includeFailed e.reason)
    | .ok s => (Verbatim.signs s).weave? fun i => expand j n (Link.of j.aliases l.target i)

/-- A page with the expansions of its includes filled in. -/
def expandPage (j : Journey) (n : Nat) (contract : Text) (g : Signs) : Option Text :=
  g.weave? fun i => j.expand n (Link.of j.aliases contract i)

/-- No token occurs in what the page and the includes that are met expand to. -/
structure Unspoilt (j : Journey) (token : Nat → Text) (contract : Text) (g : Signs) : Prop where
  links : ∀ l n text, j.Meets l → j.expand n l = some text → ∀ m, ¬ token m <:+: text
  page : ∀ n text, j.expandPage n contract g = some text → ∀ m, ¬ token m <:+: text

/-- Includes with one key, of one journey or of two, have one target and get one answer. -/
def Agrees (j k : Journey) : Prop :=
  ∀ l l', j.Meets l → k.Meets l' → l.key = l'.key → l.target = l'.target ∧ j.reply l = k.reply l'

/-- A key stands for one page, there are finitely many, and none leads back to itself. -/
structure Orderly (j : Journey) : Prop where
  agrees : j.Agrees j
  finite : {k | ∃ l, j.Meets l ∧ l.key = k}.Finite
  acyclic : ∀ k, ¬ Relation.TransGen j.Leads k k

/-- The text and the rank of every include that is met. -/
structure Catalogue (j : Journey) where
  text : Link → Text
  rank : Text → Nat
  bound : Nat
  rank_lt_bound : ∀ {l}, j.Meets l → rank l.key < bound
  rank_lt : ∀ {l s l'}, j.Meets l → j.reply l = .ok s → l' ∈ j.inner l s → rank l'.key < rank l.key
  expand_eq : ∀ {l n}, j.Meets l → rank l.key < n → j.expand n l = some (text l)
  shared : ∀ {l l'}, j.Meets l → j.Meets l' → l.key = l'.key → text l = text l'

variable {j : Journey}

/-! ### Expanding includes that are met -/

theorem expand_congr {l l' : Link} (htarget : l.target = l'.target) (hreply : j.reply l = j.reply l')
    (n : Nat) : j.expand n l = j.expand n l' := by
  cases n with
  | zero => rfl
  | succ n => simp only [expand, hreply, htarget]

theorem expand_mono {l : Link} {n m : Nat} {text : Text} (h : j.expand n l = some text)
    (hm : n ≤ m) : j.expand m l = some text := by
  induction n generalizing l m text with
  | zero => cases h
  | succ n ih =>
    obtain ⟨m, rfl⟩ : ∃ k, m = k + 1 := ⟨m - 1, by omega⟩
    cases hs : j.reply l with
    | error e => simpa only [expand, hs] using h
    | ok s =>
      simp only [expand, hs] at h ⊢
      exact Signs.weave?_mono (fun i x hi => ih hi (by omega)) h

theorem expandPage_mono {contract : Text} {g : Signs} {n m : Nat} {text : Text}
    (h : j.expandPage n contract g = some text) (hm : n ≤ m) :
    j.expandPage m contract g = some text :=
  Signs.weave?_mono (fun _ _ hi => expand_mono hi hm) h

theorem mem_inner {l : Link} {s : Text} {i : Inclusion} (hi : i ∈ (Verbatim.signs s).includes) :
    Link.of j.aliases l.target i ∈ j.inner l s :=
  List.mem_map_of_mem hi

namespace Catalogue

theorem text_of_error (c : j.Catalogue) {l : Link} {e : RemoteFailure} (hl : j.Meets l)
    (h : j.reply l = .error e) : c.text l = Marker.includeFailed e.reason := by
  have hexpand := c.expand_eq hl (Nat.lt_succ_self _)
  simp only [expand, h] at hexpand
  exact (Option.some.inj hexpand).symm

/-- A page is shown with its includes filled in. -/
theorem text_of_ok (c : j.Catalogue) {l : Link} {s : Text} (hl : j.Meets l)
    (h : j.reply l = .ok s) :
    c.text l = (Verbatim.signs s).weave fun i => c.text (Link.of j.aliases l.target i) := by
  have hexpand := c.expand_eq hl (Nat.lt_succ_self _)
  simp only [expand, h] at hexpand
  rw [Signs.weave?_eq_some (f := fun i => c.text (Link.of j.aliases l.target i))] at hexpand
  · exact (Option.some.inj hexpand).symm
  · intro i hi
    have hin := mem_inner (j := j) (l := l) hi
    exact c.expand_eq (hl.inner h hin) (c.rank_lt hl h hin)

theorem expandPage_eq (c : j.Catalogue) (contract : Text) (g : Signs)
    (htop : j.top = g.links j.aliases contract) {n : Nat} (hn : c.bound ≤ n) :
    j.expandPage n contract g = some (g.weave fun i => c.text (Link.of j.aliases contract i)) := by
  refine Signs.weave?_eq_some fun i hi => ?_
  have hl : j.Meets (Link.of j.aliases contract i) := by
    refine .top ?_
    rw [htop]
    exact List.mem_map_of_mem hi
  exact c.expand_eq hl (Nat.lt_of_lt_of_le (c.rank_lt_bound hl) hn)

end Catalogue

/-! ### Orderly journeys -/

theorem Leads.met {a b : Text} (h : Relation.TransGen j.Leads a b) : ∃ l, j.Meets l ∧ l.key = b := by
  obtain ⟨c, _, l, s, l', hl, hs, hin, _, hb⟩ := Relation.TransGen.tail'_iff.1 h
  exact ⟨l', hl.inner hs hin, hb⟩

namespace Orderly

/-- All deep enough expansions of an include that is met give one text. -/
theorem exists_expand {rank : Text → Nat} (hrank : ∀ a b, j.Leads a b → rank b < rank a) {l : Link}
    (hl : j.Meets l) : ∃ c, ∀ n, rank l.key < n → j.expand n l = some c := by
  induction hr : rank l.key using Nat.strongRecOn generalizing l with
  | ind r ih =>
    cases hs : j.reply l with
    | error e =>
      refine ⟨Marker.includeFailed e.reason, fun n hn => ?_⟩
      obtain ⟨m, rfl⟩ := Nat.exists_eq_add_of_lt hn
      simp only [expand, hs]
    | ok s =>
      -- the includes of the page have lower ranks, so each of them has its text
      have hinner : ∀ i ∈ (Verbatim.signs s).includes,
          ∃ c, ∀ n, r ≤ n → j.expand n (Link.of j.aliases l.target i) = some c := by
        intro i hi
        have hin := mem_inner (j := j) (l := l) hi
        have hlt := hrank _ _ ⟨l, s, _, hl, hs, hin, rfl, rfl⟩
        rw [hr] at hlt
        obtain ⟨c, hc⟩ := ih _ hlt (hl.inner hs hin) rfl
        exact ⟨c, fun n hn => hc n (by omega)⟩
      obtain ⟨text, htext⟩ := Signs.exists_weave? hinner
      refine ⟨text, fun n hn => ?_⟩
      obtain ⟨m, rfl⟩ : ∃ m, n = m + 1 := ⟨n - 1, by omega⟩
      simp only [expand, hs]
      exact htext m (by omega)

theorem exists_catalogue (hj : j.Orderly) : Nonempty j.Catalogue := by
  obtain ⟨rank, hle, hlt⟩ := exists_rank hj.finite
    (fun a b hab => Leads.met (Relation.TransGen.single hab)) hj.acyclic
  have hexpand := fun l hl => exists_expand hlt (l := l) hl
  choose! text htext using hexpand
  refine ⟨{
    text := text
    rank := rank
    bound := {k | ∃ l, j.Meets l ∧ l.key = k}.ncard + 1
    rank_lt_bound := fun _ => Nat.lt_succ_of_le (hle _)
    rank_lt := fun hl hs hin => hlt _ _ ⟨_, _, _, hl, hs, hin, rfl, rfl⟩
    expand_eq := fun hl hn => htext _ hl _ hn
    shared := ?_ }⟩
  intro l l' hl hl' hkey
  obtain ⟨htarget, hreply⟩ := hj.agrees l l' hl hl' hkey
  have h := htext l hl _ (Nat.lt_succ_self _)
  have h' := htext l' hl' _ (Nat.lt_succ_self _)
  rw [expand_congr htarget hreply, hkey, h'] at h
  exact (Option.some.inj h).symm

end Orderly

end Journey
end PageAssembly
