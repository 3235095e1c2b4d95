/-
  PageAssembly/Proofs/Cache/History.lean
  ======================================
  **What a cache answers goes by what was done with it.**

  A run performs operations on a cache, each at the time that the clock shows.  Its history says
  for each key what was set last since the last clearing (`lastSet`), and a look-up answers this if
  it is younger than the limit.  `Tracks` is the invariant behind that: the cache has the entry
  that was set last, or it has none any more and this entry has expired.  Purging is the only
  operation that makes the second case; time only passes, so an expired entry stays expired.

  Main statement: `purging_unseen`.  The times are exact values of an ordered group, and the
  clock's readings of them may be of another type, if they subtract and compare as the values do
  (`Exact`); whole readings do (`exact_whole`).
-/
import PageAssembly.Cache.Basic
import PageAssembly.Cache.Reading
import Mathlib.Algebra.Order.Group.Unbundled.Basic
import Mathlib.Algebra.Order.Group.Int

namespace PageAssembly

theorem OrderedMap.get?_filter {κ ν : Type} [DecidableEq κ] (m : OrderedMap κ ν) (p : κ × ν → Bool)
    (k : κ) : (m.filter p).get? k = (m.get? k).filter fun v => p (k, v) := by
  apply Option.ext
  intro v
  rw [get?_eq_some_iff, Option.filter_eq_some_iff, get?_eq_some_iff]
  exact List.mem_filter

namespace Cache

variable {κ τ : Type}

theorem entry?_purge [Sub τ] [LE τ] [DecidableLE τ] (c : Cache τ) (now : τ) (key : Text) :
    entry? (c.purge now) key = (c.entry? key).filter fun e => !c.isExpired now e :=
  OrderedMap.get?_filter c.entries _ key

/-! ### Runs -/

/-- What may be done with a cache. -/
inductive Operation (κ : Type) where
  | set (key content : Text)
  | get (key : Text) (limit : Option κ)
  | contains (key : Text)
  | purge
  | clear

/-- An operation and the time at which it is performed. -/
structure Step (κ : Type) where
  time : κ
  operation : Operation κ

/-- What an operation answers. -/
inductive Answer where
  | done
  | content (found : Option Text)
  | held (found : Bool)
  | removed (count : Nat)
deriving DecidableEq, Repr

section Runs

variable [Sub τ] [LT τ] [DecidableLT τ] [LE τ] [DecidableLE τ]

/-- Performs an operation at the clock's reading of its time; a look-up without a limit takes the
    time to live. -/
def perform (reading : κ → τ) (c : Cache τ) (s : Step κ) : Answer × Cache τ :=
  match s.operation with
  | .set key content => (.done, c.set (reading s.time) key content)
  | .get key limit =>
    (.content (c.getWithin? (limit.elim c.ttl reading) (reading s.time) key), c)
  | .contains key => (.held (c.contains (reading s.time) key), c)
  | .purge => (.removed (c.purged (reading s.time)), c.purge (reading s.time))
  | .clear => (.done, c.clear)

/-- The cache after a run. -/
def after (reading : κ → τ) (c : Cache τ) (steps : List (Step κ)) : Cache τ :=
  steps.foldl (fun c s => (perform reading c s).2) c

/-- The steps of a run with what they answer. -/
def run (reading : κ → τ) (c : Cache τ) : List (Step κ) → List (Step κ × Answer)
  | [] => []
  | s :: steps => (s, (perform reading c s).1) :: run reading (perform reading c s).2 steps

end Runs

/-! ### Histories -/

/-- What was last set under each key, after a step. -/
def Step.record (s : Step κ) (last : Text → Option (Entry κ)) : Text → Option (Entry κ) :=
  match s.operation with
  | .set key content => fun k => if key = k then some ⟨content, s.time⟩ else last k
  | .clear => fun _ => none
  | _ => last

/-- What was last set under each key since the last clearing. -/
def lastSet (history : List (Step κ)) : Text → Option (Entry κ) :=
  history.foldl (fun last s => s.record last) fun _ => none

/-- Whether the step is something else than purging. -/
def Step.lasting (s : Step κ) : Bool :=
  match s.operation with
  | .purge => false
  | _ => true

/-- The content that was set last, if it is younger than the limit. -/
def remembered [Sub κ] [LT κ] [DecidableLT κ] (history : List (Step κ)) (limit now : κ)
    (key : Text) : Option Text :=
  (lastSet history key).bind fun e => if now - e.stamp < limit then some e.content else none

section LookUps

variable [LE κ] [DecidableLE κ]

/-- Whether the step looks something up that purging leaves: with no limit, or with one that is
    not above the time to live. -/
def Step.looksUp (ttl : κ) (s : Step κ) : Bool :=
  match s.operation with
  | .get _ limit => limit.all fun l => decide (l ≤ ttl)
  | .contains _ => true
  | _ => false

variable [Sub τ] [LT τ] [DecidableLT τ] [LE τ] [DecidableLE τ]

/-- The look-ups of a run that purging leaves, with what they answer. -/
def lookUps (reading : κ → τ) (ttl : κ) (c : Cache τ) (steps : List (Step κ)) :
    List (Step κ × Answer) :=
  (run reading c steps).filter fun x => x.1.looksUp ttl

theorem lookUps_cons (reading : κ → τ) (ttl : κ) (c : Cache τ) (s : Step κ)
    (steps : List (Step κ)) :
    lookUps reading ttl c (s :: steps) =
      if s.looksUp ttl then
        (s, (perform reading c s).1) :: lookUps reading ttl (perform reading c s).2 steps
      else lookUps reading ttl (perform reading c s).2 steps := by
  rw [lookUps, run, List.filter_cons]
  rfl

end LookUps

/-! ### Exact clocks -/

/-- The readings of a clock that is exact: they subtract and compare as the times do. -/
structure Exact [Sub κ] [LT κ] [LE κ] [Sub τ] [LT τ] [LE τ] (reading : κ → τ) : Prop where
  sub : ∀ a b, reading a - reading b = reading (a - b)
  lt_iff : ∀ {a b}, reading a < reading b ↔ a < b
  le_iff : ∀ {a b}, reading a ≤ reading b ↔ a ≤ b

theorem align_exactly (a b : Int) :
    Binary64.align (a < 0) a.natAbs 0 (b < 0) b.natAbs 0 = (a, b) := by
  have hsigned : ∀ n : Int, Binary64.signed (n < 0) n.natAbs = n := by
    intro n
    unfold Binary64.signed
    rw [Int.ofNat_eq_natCast]
    split
    · next h =>
      have hneg : n < 0 := of_decide_eq_true h
      omega
    · next h =>
      have hpos : ¬ n < 0 := fun hn => h (decide_eq_true hn)
      omega
  have hone : Binary64.twoTo (0 - min 0 0) = 1 := rfl
  rw [Binary64.align, hone, Nat.mul_one, Nat.mul_one, hsigned, hsigned]

/-- A clock that shows whole numbers is exact. -/
theorem exact_whole : Exact Reading.whole where
  sub _ _ := rfl
  lt_iff {a b} := by
    have hbelow : (Binary64.exactly a).below (Binary64.exactly b) = decide (a < b) := by
      rw [Binary64.exactly, Binary64.exactly, Binary64.below, align_exactly]
    exact (iff_of_eq (congrArg (· = true) hbelow)).trans decide_eq_true_iff
  le_iff {a b} := by
    have hatMost : (Binary64.exactly a).atMost (Binary64.exactly b) = decide (a ≤ b) := by
      rw [Binary64.exactly, Binary64.exactly, Binary64.atMost, align_exactly]
    exact (iff_of_eq (congrArg (· = true) hatMost)).trans decide_eq_true_iff

/-! ### The cache against its history -/

section Ordered

variable [AddCommGroup κ] [LinearOrder κ]
variable {reading : κ → τ} {ttl now : κ} {last : Text → Option (Entry κ)} {c : Cache τ}

/-- The cache has what was set last, unless that has expired. -/
structure Tracks (reading : κ → τ) (ttl now : κ) (last : Text → Option (Entry κ)) (c : Cache τ) :
    Prop where
  ttl_eq : c.ttl = reading ttl
  entry : ∀ key, c.entry? key = (last key).map (fun e => ⟨e.content, reading e.stamp⟩) ∨
    c.entry? key = none ∧ ∃ e, last key = some e ∧ ttl ≤ now - e.stamp

namespace Tracks

theorem empty (reading : κ → τ) (ttl now : κ) :
    Tracks reading ttl now (fun _ => none) (Cache.empty (reading ttl)) :=
  ⟨rfl, fun _ => Or.inl rfl⟩

/-- What has expired stays expired. -/
theorem mono [IsOrderedAddMonoid κ] (h : Tracks reading ttl now last c) {later : κ} (hle : now ≤ later) :
    Tracks reading ttl later last c := by
  refine ⟨h.ttl_eq, fun key => ?_⟩
  rcases h.entry key with hentry | ⟨hnone, e, he, hexpired⟩
  · exact Or.inl hentry
  · exact Or.inr ⟨hnone, e, he, hexpired.trans (sub_le_sub_right hle e.stamp)⟩

variable [Sub τ] [LT τ] [DecidableLT τ] [LE τ]

/-- A look-up answers what was set last, if it is younger than a limit within the time to live. -/
theorem getWithin? (h : Tracks reading ttl now last c) (hexact : Exact reading) {limit : κ}
    (hlimit : limit ≤ ttl) (key : Text) :
    c.getWithin? (reading limit) (reading now) key =
      (last key).bind fun e => if now - e.stamp < limit then some e.content else none := by
  rw [Cache.getWithin?]
  rcases h.entry key with hentry | ⟨hnone, e, he, hexpired⟩
  · rw [hentry, Option.bind_map]
    refine congrArg (last key).bind (funext fun e => ?_)
    simp only [Function.comp_apply, hexact.sub, hexact.lt_iff]
  · have hstale : ¬ now - e.stamp < limit := not_lt_of_ge (hlimit.trans hexpired)
    rw [hnone, he, Option.bind_none, Option.bind_some, if_neg hstale]

theorem get? (h : Tracks reading ttl now last c) (hexact : Exact reading) (key : Text) :
    c.get? (reading now) key =
      (last key).bind fun e => if now - e.stamp < ttl then some e.content else none := by
  rw [Cache.get?, h.ttl_eq, h.getWithin? hexact le_rfl]

theorem contains (h : Tracks reading ttl now last c) (hexact : Exact reading) (key : Text) :
    c.contains (reading now) key =
      ((last key).bind fun e => if now - e.stamp < ttl then some e.content else none).isSome := by
  rw [Cache.contains, h.get? hexact]

variable [DecidableLE τ]

/-- The two tests for freshness agree: an entry is purged if a look-up answers nothing. -/
theorem isExpired (h : Tracks reading ttl now last c) (hexact : Exact reading) {key : Text}
    {e : Entry τ} (he : c.entry? key = some e) :
    c.isExpired (reading now) e = (c.get? (reading now) key).isNone := by
  have hstamp : ∃ stamp, e.stamp = reading stamp := by
    rcases h.entry key with hentry | ⟨hnone, -⟩
    · rw [he] at hentry
      obtain ⟨e', -, rfl⟩ := Option.map_eq_some_iff.1 hentry.symm
      exact ⟨e'.stamp, rfl⟩
    · rw [he] at hnone
      cases hnone
  obtain ⟨stamp, hstamp⟩ := hstamp
  rw [Cache.isExpired, Cache.get?, Cache.getWithin?, he, Option.bind_some, hstamp, h.ttl_eq,
    hexact.sub]
  by_cases hold : ttl ≤ now - stamp
  · rw [decide_eq_true (hexact.le_iff.2 hold), if_neg (hexact.lt_iff.not.2 (not_lt_of_ge hold))]
    rfl
  · rw [decide_eq_false (hexact.le_iff.not.2 hold), if_pos (hexact.lt_iff.2 (lt_of_not_ge hold))]
    rfl

theorem entries_purge (h : Tracks reading ttl now last c) (hexact : Exact reading) :
    (c.purge (reading now)).entries.entries =
      c.entries.entries.filter fun e => (c.get? (reading now) e.1).isSome := by
  refine List.filter_congr fun e he => ?_
  rw [h.isExpired hexact (OrderedMap.get?_eq_some_iff.2 he), Option.not_isNone]

theorem purged (h : Tracks reading ttl now last c) (hexact : Exact reading) :
    c.purged (reading now) =
      c.entries.entries.countP fun e => (c.get? (reading now) e.1).isNone := by
  have hnone : ∀ e : Text × Entry τ, (c.get? (reading now) e.1).isNone =
      decide ¬ ((c.get? (reading now) e.1).isSome = true) := by
    intro e
    cases c.get? (reading now) e.1 <;> rfl
  rw [Cache.purged, OrderedMap.size, OrderedMap.size, h.entries_purge hexact,
    ← List.countP_eq_length_filter,
    List.length_eq_countP_add_countP fun e : Text × Entry τ => (c.get? (reading now) e.1).isSome,
    Nat.add_sub_cancel_left]
  exact List.countP_congr fun e _ => by rw [hnone]

/-- Two caches with one history answer a look-up alike. -/
theorem answer {c' : Cache τ} {s : Step κ} (h : Tracks reading ttl s.time last c)
    (h' : Tracks reading ttl s.time last c') (hexact : Exact reading)
    (hlook : s.looksUp ttl = true) : (perform reading c s).1 = (perform reading c' s).1 := by
  obtain ⟨time, operation⟩ := s
  cases operation with
  | set key content => cases hlook
  | purge => cases hlook
  | clear => cases hlook
  | contains key =>
    exact congrArg Answer.held ((h.contains hexact key).trans (h'.contains hexact key).symm)
  | get key limit =>
    cases limit with
    | none =>
      exact congrArg Answer.content ((h.get? hexact key).trans (h'.get? hexact key).symm)
    | some l =>
      have hl : l ≤ ttl := of_decide_eq_true hlook
      exact congrArg Answer.content
        ((h.getWithin? hexact hl key).trans (h'.getWithin? hexact hl key).symm)

variable [IsOrderedAddMonoid κ]

/-- Every step keeps the cache in accord with what was set last. -/
theorem perform (h : Tracks reading ttl now last c) (hexact : Exact reading) (s : Step κ)
    (htime : now ≤ s.time) :
    Tracks reading ttl s.time (s.record last) (perform reading c s).2 := by
  have hnow := h.mono htime
  obtain ⟨time, operation⟩ := s
  cases operation with
  | get key limit => exact hnow
  | contains key => exact hnow
  | clear => exact ⟨h.ttl_eq, fun _ => Or.inl rfl⟩
  | set key content =>
    refine ⟨h.ttl_eq, fun k => ?_⟩
    have hset : entry? (c.set (reading time) key content) k =
        if key = k then some ⟨content, reading time⟩ else c.entry? k :=
      OrderedMap.get?_insert c.entries key k _
    simp only [Cache.perform, Step.record, hset]
    split
    · exact Or.inl rfl
    · exact hnow.entry k
  | purge =>
    refine ⟨h.ttl_eq, fun k => ?_⟩
    simp only [Cache.perform, Step.record, entry?_purge]
    rcases hnow.entry k with hentry | ⟨hnone, hexpired⟩
    · cases hlast : last k with
      | none =>
        rw [hentry, hlast]
        exact Or.inl rfl
      | some e =>
        rw [hlast, Option.map_some] at hentry
        have hage := hnow.isExpired hexact hentry
        rw [hnow.get? hexact, hlast, Option.bind_some] at hage
        -- the entry is there: it stays, or has expired by now
        by_cases hold : ttl ≤ time - e.stamp
        · refine Or.inr ⟨?_, e, rfl, hold⟩
          rw [if_neg (not_lt_of_ge hold)] at hage
          rw [hentry, Option.filter_some_neg (by rw [hage]; decide)]
        · refine Or.inl ?_
          rw [if_pos (lt_of_not_ge hold)] at hage
          rw [hentry, Option.filter_some_pos (by rw [hage]; rfl), Option.map_some]
    · exact Or.inr ⟨by rw [hnone]; rfl, hexpired⟩

/-- A whole run does, up to any time that is not before its last step. -/
theorem after (h : Tracks reading ttl now last c) (hexact : Exact reading) {steps : List (Step κ)}
    (hclock : (steps.map Step.time).Pairwise (· ≤ ·)) (hfrom : ∀ s ∈ steps, now ≤ s.time)
    {later : κ} (hnow : now ≤ later) (hlater : ∀ s ∈ steps, s.time ≤ later) :
    Tracks reading ttl later (steps.foldl (fun last s => s.record last) last)
      (Cache.after reading c steps) := by
  induction steps generalizing now last c with
  | nil => exact h.mono hnow
  | cons s steps ih =>
    obtain ⟨hnext, hrest⟩ := List.pairwise_cons.1 hclock
    refine ih (h.perform hexact s (hfrom s List.mem_cons_self)) hrest ?_
      (hlater s List.mem_cons_self) fun t ht => hlater t (List.mem_cons_of_mem s ht)
    exact fun t ht => hnext t.time (List.mem_map_of_mem ht)

end Tracks

section LookUps

variable [Sub τ] [LT τ] [DecidableLT τ] [LE τ] [DecidableLE τ] [IsOrderedAddMonoid κ]

/-- What a run answers to look-ups is what it answers without its purging. -/
theorem lookUps_lasting {c' : Cache τ} (h : Tracks reading ttl now last c)
    (h' : Tracks reading ttl now last c') (hexact : Exact reading) {steps : List (Step κ)}
    (hclock : (steps.map Step.time).Pairwise (· ≤ ·)) (hfrom : ∀ s ∈ steps, now ≤ s.time) :
    lookUps reading ttl c steps = lookUps reading ttl c' (steps.filter Step.lasting) := by
  induction steps generalizing now last c c' with
  | nil => rfl
  | cons s steps ih =>
    obtain ⟨hnext, hrest⟩ := List.pairwise_cons.1 hclock
    have htime : now ≤ s.time := hfrom s List.mem_cons_self
    have hlater : ∀ t ∈ steps, s.time ≤ t.time := fun t ht => hnext t.time (List.mem_map_of_mem ht)
    have hstep := h.perform hexact s htime
    cases hlasting : s.lasting with
    | false =>
      -- purging is no look-up, and is not recorded
      have hpurge : s.operation = .purge := by
        unfold Step.lasting at hlasting
        split at hlasting
        · next hs => exact hs
        · cases hlasting
      have hlook : ¬ s.looksUp ttl = true := by
        rw [Step.looksUp, hpurge]
        exact Bool.false_ne_true
      have hrecord : s.record last = last := by rw [Step.record, hpurge]
      rw [hrecord] at hstep
      rw [lookUps_cons, if_neg hlook, List.filter_cons_of_neg (by rw [hlasting]; decide)]
      exact ih hstep (h'.mono htime) hrest hlater
    | true =>
      have htail := ih hstep (h'.perform hexact s htime) hrest hlater
      rw [List.filter_cons_of_pos hlasting, lookUps_cons, lookUps_cons, htail]
      split
      · next hlook => rw [(h.mono htime).answer (h'.mono htime) hexact hlook]
      · rfl

end LookUps

/-! ### Purging is not seen -/

/-- A run that does not go back in time has a time from which it starts. -/
theorem exists_start {steps : List (Step κ)} (hclock : (steps.map Step.time).Pairwise (· ≤ ·)) :
    ∃ now, ∀ s ∈ steps, now ≤ s.time := by
  cases steps with
  | nil => exact ⟨0, fun s hs => absurd hs List.not_mem_nil⟩
  | cons s steps =>
    refine ⟨s.time, List.forall_mem_cons.2 ⟨le_rfl, fun t ht => ?_⟩⟩
    exact (List.pairwise_cons.1 hclock).1 t.time (List.mem_map_of_mem ht)

variable [Sub τ] [LT τ] [DecidableLT τ] [LE τ] [DecidableLE τ] [IsOrderedAddMonoid κ]

/-- Whatever is done with a new cache, at times that do not go back: at each step of the run, a
    look-up answers what was set last for its key since the last clearing, if that is younger than
    the time to live; purging removes, and counts, exactly the entries for which a look-up answers
    nothing.  So runs with the same steps but for their purging answer every look-up alike. -/
theorem purging_unseen (hexact : Exact reading) (ttl : κ) {steps : List (Step κ)}
    (hclock : (steps.map Step.time).Pairwise (· ≤ ·)) :
    (∀ earlier s later, steps = earlier ++ s :: later →
      let c := Cache.after reading (Cache.empty (reading ttl)) earlier
      (∀ key, c.get? (reading s.time) key = remembered earlier ttl s.time key ∧
        c.contains (reading s.time) key = (remembered earlier ttl s.time key).isSome) ∧
      (c.purge (reading s.time)).entries.entries =
        c.entries.entries.filter (fun e => (c.get? (reading s.time) e.1).isSome) ∧
      c.purged (reading s.time) =
        c.entries.entries.countP fun e => (c.get? (reading s.time) e.1).isNone) ∧
    ∀ steps', (steps'.map Step.time).Pairwise (· ≤ ·) →
      steps'.filter Step.lasting = steps.filter Step.lasting →
      lookUps reading ttl (Cache.empty (reading ttl)) steps' =
        lookUps reading ttl (Cache.empty (reading ttl)) steps := by
  have hlasting : ∀ steps : List (Step κ), (steps.map Step.time).Pairwise (· ≤ ·) →
      lookUps reading ttl (Cache.empty (reading ttl)) steps =
        lookUps reading ttl (Cache.empty (reading ttl)) (steps.filter Step.lasting) := by
    intro steps hclock
    obtain ⟨now, hfrom⟩ := exists_start hclock
    have hempty := Tracks.empty reading ttl now
    exact lookUps_lasting hempty hempty hexact hclock hfrom
  refine ⟨?_, fun steps' hclock' hsame => ?_⟩
  · rintro earlier s later rfl c
    obtain ⟨now, hfrom⟩ := exists_start hclock
    rw [List.map_append, List.map_cons, List.pairwise_append] at hclock
    obtain ⟨hearlier, -, hbefore⟩ := hclock
    have htracks : Tracks reading ttl s.time (lastSet earlier) c :=
      (Tracks.empty reading ttl now).after hexact hearlier
        (fun t ht => hfrom t (List.mem_append_left _ ht))
        (hfrom s (List.mem_append_right _ List.mem_cons_self))
        fun t ht => hbefore t.time (List.mem_map_of_mem ht) s.time List.mem_cons_self
    exact ⟨fun key => ⟨htracks.get? hexact key, htracks.contains hexact key⟩,
      htracks.entries_purge hexact, htracks.purged hexact⟩
  · rw [hlasting steps' hclock', hlasting steps hclock, hsame]

end Ordered

/-- A run in which an entry expires, is purged and is set anew. -/
def sampleRun : List (Step Int) :=
  [⟨0, .set "a".toList "1".toList⟩, ⟨4, .set "b".toList "2".toList⟩, ⟨10, .get "a".toList none⟩,
    ⟨12, .purge⟩, ⟨13, .contains "b".toList⟩, ⟨13, .set "a".toList "3".toList⟩,
    ⟨14, .get "b".toList (some 9)⟩]

theorem purging_unseen_sampleRun :
    (sampleRun.map Step.time).Pairwise (· ≤ ·) ∧
      (Cache.after Reading.whole (Cache.empty (.whole 10)) (sampleRun.take 4)).contains
        (.whole 13) "b".toList = true ∧
      lookUps Reading.whole 10 (Cache.empty (.whole 10)) (sampleRun.eraseIdx 3) =
        lookUps Reading.whole 10 (Cache.empty (.whole 10)) sampleRun := by
  have hclock : (sampleRun.map Step.time).Pairwise (· ≤ ·) := by decide
  obtain ⟨hsteps, hsame⟩ := purging_unseen exact_whole 10 hclock
  refine ⟨hclock, ?_, hsame _ (by decide) (by rfl)⟩
  obtain ⟨hlook, -⟩ := hsteps (sampleRun.take 4) ⟨13, .contains "b".toList⟩ (sampleRun.drop 5) rfl
  rw [(hlook "b".toList).2]
  decide

end Cache
end PageAssembly
