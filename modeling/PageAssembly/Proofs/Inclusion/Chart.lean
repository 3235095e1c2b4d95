/-
  PageAssembly/Proofs/Inclusion/Chart.lean
  ========================================
  **Journeys on a finite chart.**

  What is asked of a journey speaks of every include that it meets.  For a given site
  these can be listed.  A chart of a journey is a list of includes that holds those of
  its page and, with an include, those of the page that it brings in; keys and calls are
  what counts.  Whether a list is a chart can be computed, and so can everything else
  that the theorems ask of a journey, once it has a chart (`Plain` and `Small`).

  `Host.ofAnswers` is the host that has only answers, and no state; `Pages` are answers
  from a finite table.
-/
import PageAssembly.Proofs.Inclusion.Sound

namespace PageAssembly

/-! ### Pages without blocks -/

/-- A page without blocks is looked at once, whatever the tokens are. -/
theorem Verbatim.simple_of_no_block {token : Nat → Text} {s : Text} (h : spans s = [])
    (halias : Alias.find s = []) (hapart : (signs s).Apart) : Simple token s := by
  refine ⟨fun n => ?_, hapart⟩
  rw [mask_eq_self h]
  exact halias

/-- The drawn tokens are too long to occur in a short text. -/
theorem Verbatim.not_occurs_of_short {text : Text} (h : text.length < 12) (n : Nat) :
    ¬ token n <:+: text := by
  intro hoccurs
  have hle := hoccurs.length_le
  rw [length_token] at hle
  omega

namespace Journey

/-! ### Charts -/

variable {j k : Journey} {ms ns : List Link}

/-- The includes have one key and make one call. -/
def Same (j : Journey) (l m : Link) : Prop :=
  l.key = m.key ∧ l.call j.viewer j.aliases = m.call j.viewer j.aliases

instance (l m : Link) : Decidable (j.Same l m) := inferInstanceAs (Decidable (_ ∧ _))

/-- The includes of the page that an include brings in, if it brings one in. -/
def below (j : Journey) (l : Link) : List Link :=
  match j.reply l with
  | .ok s => j.inner l s
  | .error _ => []

/-- The list holds every include that is met, up to key and call. -/
structure Chart (j : Journey) (ms : List Link) : Prop where
  top : ∀ l ∈ j.top, ∃ m ∈ ms, j.Same l m
  below : ∀ m ∈ ms, ∀ l ∈ j.below m, ∃ m' ∈ ms, j.Same l m'

instance (ms : List Link) : Decidable (j.Chart ms) :=
  decidable_of_iff ((∀ l ∈ j.top, ∃ m ∈ ms, j.Same l m) ∧
    ∀ m ∈ ms, ∀ l ∈ j.below m, ∃ m' ∈ ms, j.Same l m') ⟨fun h => ⟨h.1, h.2⟩, fun h => ⟨h.top, h.below⟩⟩

theorem Same.target_eq {l m : Link} (h : j.Same l m) : l.target = m.target :=
  congrArg Call.target h.2

theorem Same.reply_eq {l m : Link} (h : j.Same l m) : j.reply l = j.reply m := congrArg j.answers h.2

theorem below_of_ok {l : Link} {s : Text} (h : j.reply l = .ok s) : j.below l = j.inner l s := by
  rw [below, h]

namespace Chart

theorem exists_same (h : j.Chart ms) {l : Link} (hl : j.Meets l) : ∃ m ∈ ms, j.Same l m := by
  induction hl with
  | top hl => exact h.top _ hl
  | @inner l l' s _ hs hin ih =>
    obtain ⟨m, hm, hsame⟩ := ih
    refine h.below m hm l' ?_
    rw [hsame.reply_eq] at hs
    rw [below_of_ok hs, Journey.inner, ← hsame.target_eq]
    exact hin

theorem finite (h : j.Chart ms) : {key | ∃ l, j.Meets l ∧ l.key = key}.Finite := by
  refine (ms.map Link.key).finite_toSet.subset ?_
  rintro key ⟨l, hl, rfl⟩
  obtain ⟨m, hm, hsame⟩ := h.exists_same hl
  rw [hsame.1]
  exact List.mem_map_of_mem hm

/-- Whether two journeys agree can be seen on their charts. -/
theorem agrees (hj : j.Chart ms) (hk : k.Chart ns)
    (h : ∀ m ∈ ms, ∀ n ∈ ns, m.key = n.key → m.target = n.target ∧ j.reply m = k.reply n) :
    j.Agrees k := by
  intro l l' hl hl' hkey
  obtain ⟨m, hm, hlm⟩ := hj.exists_same hl
  obtain ⟨n, hn, hln⟩ := hk.exists_same hl'
  rw [hlm.target_eq, hlm.reply_eq, hln.target_eq, hln.reply_eq]
  exact h m hm n hn (by rw [← hlm.1, hkey, hln.1])

end Chart

/-- On the chart are pages without blocks and without aliases, one for each key. -/
structure Plain (j : Journey) (ms : List Link) : Prop where
  chart : j.Chart ms
  single : ∀ m ∈ ms, ∀ n ∈ ms, m.key = n.key → m.target = n.target ∧ j.reply m = j.reply n
  apart : ∀ m ∈ ms, ∀ s ∈ (j.reply m).toOption,
    Verbatim.spans s = [] ∧ Alias.find s = [] ∧ (Verbatim.signs s).Apart

instance (ms : List Link) : Decidable (j.Plain ms) :=
  decidable_of_iff (_ ∧ _ ∧ _)
    ⟨fun ⟨h₁, h₂, h₃⟩ => ⟨h₁, h₂, h₃⟩, fun h => ⟨h.chart, h.single, h.apart⟩⟩

/-- The rank falls along the chart, and the page and its includes expand at this depth to texts that
    are shorter than the tokens. -/
structure Small (j : Journey) (ms : List Link) (rank : Text → Nat) (n : Nat) (contract : Text) (g : Signs) :
    Prop where
  plain : j.Plain ms
  ranks : ∀ m ∈ ms, ∀ l ∈ j.below m, rank l.key < rank m.key
  texts : ∀ m ∈ ms, (j.expand n m).any (·.length < 12)
  page : (j.expandPage n contract g).any (·.length < 12)

instance (ms : List Link) (rank : Text → Nat) (n : Nat) (contract : Text) (g : Signs) :
    Decidable (j.Small ms rank n contract g) :=
  decidable_of_iff (_ ∧ _ ∧ _ ∧ _)
    ⟨fun ⟨h₁, h₂, h₃, h₄⟩ => ⟨h₁, h₂, h₃, h₄⟩, fun h => ⟨h.plain, h.ranks, h.texts, h.page⟩⟩

theorem Plain.agrees (h : j.Plain ms) : j.Agrees j := h.chart.agrees h.chart h.single

/-- Pages without blocks are looked at once, whatever the tokens are. -/
theorem Plain.simple (h : j.Plain ms) (token : Nat → Text) : j.Simple token := by
  intro l s hl hs
  obtain ⟨m, hm, hsame⟩ := h.chart.exists_same hl
  rw [hsame.reply_eq] at hs
  obtain ⟨hspans, halias, hapart⟩ := h.apart m hm s (by rw [hs]; rfl)
  exact Verbatim.simple_of_no_block hspans halias hapart

section

variable {rank : Text → Nat} {n : Nat} {contract : Text} {g : Signs}

/-- A rank that falls along the chart keeps keys from leading back to themselves. -/
theorem Small.orderly (h : j.Small ms rank n contract g) : j.Orderly := by
  have hleads : ∀ a b, j.Leads a b → rank b < rank a := by
    rintro a b ⟨l, s, l', hl, hs, hin, rfl, rfl⟩
    obtain ⟨m, hm, hsame⟩ := h.plain.chart.exists_same hl
    rw [hsame.1]
    refine h.ranks m hm l' ?_
    rw [hsame.reply_eq] at hs
    rw [below_of_ok hs, Journey.inner, ← hsame.target_eq]
    exact hin
  exact ⟨h.plain.agrees, h.plain.chart.finite, acyclic_of_rank rank hleads⟩

/-- Texts that are shorter than the tokens hold none. -/
theorem Small.unspoilt (h : j.Small ms rank n contract g) : j.Unspoilt Verbatim.token contract g := by
  constructor
  · intro l n' text hl hexpand
    obtain ⟨m, hm, hsame⟩ := h.plain.chart.exists_same hl
    obtain ⟨text', htext', hshort⟩ := (Option.any_eq_true _ _).1 (h.texts m hm)
    rw [expand_congr hsame.target_eq hsame.reply_eq] at hexpand
    have h₁ := expand_mono hexpand (Nat.le_max_left n' n)
    rw [expand_mono htext' (Nat.le_max_right n' n)] at h₁
    cases h₁
    exact Verbatim.not_occurs_of_short (of_decide_eq_true hshort)
  · intro n' text hexpand
    obtain ⟨text', htext', hshort⟩ := (Option.any_eq_true _ _).1 h.page
    have h₁ := expandPage_mono hexpand (Nat.le_max_left n' n)
    rw [expandPage_mono htext' (Nat.le_max_right n' n)] at h₁
    cases h₁
    exact Verbatim.not_occurs_of_short (of_decide_eq_true hshort)

end

end Journey

/-! ### Hosts without state -/

/-- The host that gives these answers. -/
def Host.ofAnswers (answers : Call → Except RemoteFailure Text) : Host Unit where
  answer := fun c w =>
    match answers c with
    | .ok s => (.ok (.data (.text s)), w)
    | .error e => (.error (.remote e), w)
  counts := none

theorem Host.content_ofAnswers (answers : Call → Except RemoteFailure Text) (c : Call) (w : Unit) :
    Host.content c ((Host.ofAnswers answers).answer c w).1 = (answers c).mapError Failure.remote := by
  cases h : answers c with
  | ok s =>
    simp only [Host.ofAnswers, h]
    rfl
  | error e =>
    simp only [Host.ofAnswers, h]
    rfl

theorem Journey.answeredBy_ofAnswers (j : Journey) (w : Unit) :
    j.AnsweredBy (Host.ofAnswers j.answers) w :=
  fun w' _ l _ => Host.content_ofAnswers j.answers (l.call j.viewer j.aliases) w'

/-- A finite table of pages, by contract and function. -/
abbrev Pages := List ((Text × Text) × Text)

namespace Pages

def page? (pages : Pages) (target : Text) (function : Option Text) : Option Text :=
  (pages.find? fun e => e.1.1 == target && some e.1.2 == function).map Prod.snd

/-- What is not in the table is a failed call. -/
def answers (pages : Pages) (c : Call) : Except RemoteFailure Text :=
  match pages.page? c.target c.function with
  | some s => .ok s
  | none => .error ⟨c.target, c.function, "no page".toList⟩

/-- A pass over the pages of a table, at a clock that stands still. -/
def setting (pages : Pages) : Resolution.Setting Unit Nat where
  host := Host.ofAnswers pages.answers
  viewer := none
  clock := fun _ => 0
  ttl := 300
  token := Verbatim.token

end Pages

/-- A desk at which nothing was done yet. -/
def Resolution.Desk.new : Resolution.Desk Unit Nat := ⟨⟨(), []⟩, Cache.empty 300, 0, 0⟩

end PageAssembly
