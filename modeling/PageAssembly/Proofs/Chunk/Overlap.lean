/-
  PageAssembly/Proofs/Chunk/Overlap.lean
  ======================================
  **Renders that overlap on one loader.**

  In every run of a session the maker of the loader is told of each failed call exactly
  once, and a render that finishes has seen each of its directives end exactly once.  The
  handler, though, is one for all renders.  Renders that end in the reverse order of their
  starts leave the handler that the first one found, and a render's errors are those of its
  own directives as long as no directive of another render fails meanwhile (`run_sound`).

  The stack of renders under way carries the proof: the handler in force is the chain of
  their recorders, each of which stands in it once (`Stacked`).  Where a render ends that
  did not start last, the stack is lost, and with it the handler (`run_crossed`).
-/
import PageAssembly.Proofs.Chunk.Sharing
import Mathlib.Data.List.TakeWhile

namespace PageAssembly.Overlap

open Delivery (State Setting)

variable {ω : Type}

/-! ### What a trail says -/

/-- The render whose move it is. -/
def Event.render? : Event → Option Nat
  | .start n _ | .expand n _ | .ended n _ _ | .finish n _ | .breakOff n => some n
  | .work => none

def Event.failure? : Event → Option (Failure × Located Chunk)
  | .ended _ tag ending => Overlap.failure? tag ending
  | _ => none

/-- The directives whose calls failed. -/
def failed (es : List Event) : List (Failure × Located Chunk) := es.filterMap Event.failure?

/-- The moves of one render. -/
def movesOf (n : Nat) (es : List Event) : List Event := es.filter fun e => e.render? = some n

/-- The directives of one render whose calls failed. -/
def failedOf (n : Nat) (es : List Event) : List (Failure × Located Chunk) := failed (movesOf n es)

/-- The directives of one render whose loads ended. -/
def endedOf (n : Nat) (es : List Event) : List (Located Chunk) :=
  (movesOf n es).filterMap fun
    | .ended _ tag _ => some tag
    | _ => none

def Event.starts (n : Nat) : Event → Bool
  | .start m _ => m = n
  | _ => false

def Event.finishes (n : Nat) : Event → Bool
  | .finish m _ => m = n
  | _ => false

/-- The part of a trail in which a render is under way. -/
def during (n : Nat) (es : List Event) : List Event :=
  (es.dropWhile fun e => !e.starts n).takeWhile fun e => !e.finishes n

/-- While the render is under way, no call for a directive of another render fails. -/
def Undisturbed (n : Nat) (es : List Event) : Prop :=
  ∀ e ∈ during n es, e.failure?.isSome = true → e.render? = some n

/-- The renders under way after a move, the last one first; only that one may end. -/
def Event.leaves : Event → List Nat → Option (List Nat)
  | .start n _, stack => some (n :: stack)
  | .finish n _, m :: stack | .breakOff n, m :: stack => if n = m then some stack else none
  | .finish _ _, [] | .breakOff _, [] => none
  | _, stack => some stack

def underWay (es : List Event) : Option (List Nat) :=
  es.foldl (fun stack e => stack.bind e.leaves) (some [])

/-- Renders end in the reverse order of their starts, and all have ended. -/
def Nested (es : List Event) : Prop := underWay es = some []

section

variable {env : Setting ω} {x y z : Session ω} {s t : State ω} {es fs : List Event} {e : Event} {n : Nat} {c : Course}

theorem failed_append : failed (es ++ fs) = failed es ++ failed fs := List.filterMap_append

theorem failedOf_append : failedOf n (es ++ fs) = failedOf n es ++ failedOf n fs := by
  rw [failedOf, movesOf, List.filter_append, failed_append]
  rfl

theorem endedOf_append : endedOf n (es ++ fs) = endedOf n es ++ endedOf n fs := by
  rw [endedOf, movesOf, List.filter_append, List.filterMap_append]
  rfl

theorem movesOf_other (h : e.render? ≠ some n) : movesOf n [e] = [] := by
  simp [movesOf, h]

theorem endedOf_other (h : e.render? ≠ some n) : endedOf n (es ++ [e]) = endedOf n es := by
  rw [endedOf_append, endedOf, endedOf, movesOf_other h]
  exact List.append_nil _

theorem mem_append_other {f : Event} (hf : f.render? = some n) (h : e.render? ≠ some n) :
    f ∈ es ++ [e] ↔ f ∈ es := by
  rw [List.mem_append, List.mem_singleton, or_iff_left]
  rintro rfl
  exact h hf

/-- What the trail says of a render that was started. -/
structure Kept (n : Nat) (es : List Event) (c : Course) : Prop where
  begun : ∃ page, .start n page ∈ es
  unknown : c.owed = none → endedOf n es = [] ∧ ∀ tags, .expand n tags ∉ es
  known : ∀ o, c.owed = some o → ∃ tags, .expand n tags ∈ es
  owed : ∀ o tags, c.owed = some o → .expand n tags ∈ es → (endedOf n es ++ o).Perm tags
  finished : ∀ errors, .finish n errors ∈ es → c.closed = true ∧ c.owed = some []

theorem Kept.other (h : Kept n es c) (he : e.render? ≠ some n) : Kept n (es ++ [e]) c where
  begun := by
    obtain ⟨page, hpage⟩ := h.begun
    exact ⟨page, List.mem_append_left _ hpage⟩
  unknown hnone := by
    obtain ⟨hended, hexpand⟩ := h.unknown hnone
    refine ⟨(endedOf_other he).trans hended, fun tags => ?_⟩
    rw [mem_append_other rfl he]
    exact hexpand tags
  known o ho := by
    obtain ⟨tags, htags⟩ := h.known o ho
    exact ⟨tags, List.mem_append_left _ htags⟩
  owed o tags ho htags := by
    rw [endedOf_other he]
    exact h.owed o tags ho ((mem_append_other rfl he).1 htags)
  finished errors herrors := h.finished errors ((mem_append_other rfl he).1 herrors)

theorem Kept.start (hmoves : movesOf n es = []) (page : Text) (found : Handler) :
    Kept n (es ++ [.start n page]) ⟨page, found, none, false⟩ := by
  have hnone : ∀ {e : Event}, e.render? = some n → e ∉ es := by
    intro e he hmem
    have hmove : e ∈ movesOf n es := List.mem_filter.2 ⟨hmem, by simpa using he⟩
    rw [hmoves] at hmove
    cases hmove
  refine ⟨⟨page, by simp⟩, fun _ => ⟨?_, fun tags htags => ?_⟩, nofun, nofun, fun errors herrors => ?_⟩
  · rw [endedOf_append, endedOf, hmoves]
    simp [endedOf, movesOf, Event.render?]
  · exact hnone rfl (by simpa using htags)
  · exact absurd (by simpa using herrors : Event.finish n errors ∈ es) (hnone rfl)

theorem Kept.expand (h : Kept n es c) (hopen : c.closed = false) (howed : c.owed = none)
    (tags : List (Located Chunk)) : Kept n (es ++ [.expand n tags]) { c with owed := some tags } := by
  obtain ⟨page, hpage⟩ := h.begun
  obtain ⟨hended, hexpand⟩ := h.unknown howed
  refine ⟨⟨page, by simp [hpage]⟩, nofun, fun _ _ => ⟨tags, by simp⟩, fun o tags' ho htags => ?_,
    fun errors herrors => ?_⟩
  · obtain rfl : tags = o := Option.some.inj ho
    have htags' : tags' = tags := by simpa [hexpand] using htags
    rw [htags', endedOf_append, hended]
    simp [endedOf, movesOf, Event.render?]
  · obtain ⟨htrue, -⟩ := h.finished errors (by simpa using herrors)
    rw [hopen] at htrue
    cases htrue

theorem Kept.ended (h : Kept n es c) {before after : List (Located Chunk)} {tag : Located Chunk}
    (howed : c.owed = some (before ++ tag :: after)) (ending : Ending) :
    Kept n (es ++ [.ended n tag ending]) { c with owed := some (before ++ after) } := by
  obtain ⟨page, hpage⟩ := h.begun
  obtain ⟨tags, htags⟩ := h.known _ howed
  refine ⟨⟨page, by simp [hpage]⟩, nofun, fun _ _ => ⟨tags, by simp [htags]⟩, fun o tags' ho htags' => ?_,
    fun errors herrors => ?_⟩
  · obtain rfl : before ++ after = o := Option.some.inj ho
    have hone : endedOf n [.ended n tag ending] = [tag] := by simp [endedOf, movesOf, Event.render?]
    refine List.Perm.trans ?_ (h.owed _ tags' howed (by simpa using htags'))
    rw [endedOf_append, hone, List.append_assoc, List.singleton_append]
    exact List.Perm.append_left _ List.perm_middle.symm
  · obtain ⟨-, hnil⟩ := h.finished errors (by simpa using herrors)
    rw [howed] at hnil
    simp at hnil

/-- A render that ends, either way, owes no more and no less. -/
theorem Kept.closed (h : Kept n es c) (he : e = .breakOff n ∨ ∃ errors, e = .finish n errors ∧ c.owed = some []) :
    Kept n (es ++ [e]) { c with closed := true } := by
  obtain ⟨page, hpage⟩ := h.begun
  have hexpand : ∀ tags, Event.expand n tags ∈ es ++ [e] ↔ Event.expand n tags ∈ es := by
    rcases he with rfl | ⟨errors, rfl, -⟩ <;> simp
  have hended : endedOf n (es ++ [e]) = endedOf n es := by
    rw [endedOf_append]
    rcases he with rfl | ⟨errors, rfl, -⟩ <;> simp [endedOf, movesOf, Event.render?]
  refine ⟨⟨page, List.mem_append_left _ hpage⟩, fun hnone => ?_, fun o ho => ?_,
    fun o tags ho htags => ?_, fun errors herrors => ⟨rfl, ?_⟩⟩
  · rw [hended]
    simpa only [hexpand] using h.unknown hnone
  · simpa only [hexpand] using h.known o ho
  · rw [hended]
    exact h.owed o tags ho ((hexpand tags).1 htags)
  · rcases List.mem_append.1 herrors with herrors | herrors
    · exact (h.finished errors herrors).2
    · rcases he with rfl | ⟨_, rfl, hnil⟩
      · cases List.mem_singleton.1 herrors
      · exact hnil

/-- What the trail says of all renders. -/
structure History (es : List Event) (x : Session ω) : Prop where
  fresh : ∀ n, x.state.renders ≤ n → x.course n = none
  absent : ∀ n, x.course n = none → movesOf n es = []
  kept : ∀ n c, x.course n = some c → Kept n es c

theorem History.below (h : History es x) (hc : x.course n = some c) : n < x.state.renders := by
  by_contra hge
  rw [h.fresh n (Nat.le_of_not_lt hge)] at hc
  cases hc

theorem History.started (h : History es x) (he : e ∈ es) (hn : e.render? = some n) :
    ∃ c, x.course n = some c := by
  refine Option.ne_none_iff_exists'.1 fun hnone => ?_
  have hmove : e ∈ movesOf n es := List.mem_filter.2 ⟨he, by simpa using hn⟩
  rw [h.absent n hnone] at hmove
  cases hmove

/-- A move of one render leaves what is said of the others. -/
theorem History.put (h : History es x) (hle : x.state.renders ≤ s.renders) (hn : n < s.renders)
    (he : e.render? = some n) (hkept : Kept n (es ++ [e]) c) : History (es ++ [e]) (x.put s n c) := by
  have hother : ∀ {m}, m ≠ n → e.render? ≠ some m := by
    intro m hm heq
    exact hm (Option.some.inj (heq.symm.trans he))
  refine ⟨fun m hm => ?_, fun m hm => ?_, fun m d hd => ?_⟩
  · rw [x.put_course_of_ne s c (Nat.ne_of_gt (Nat.lt_of_lt_of_le hn hm))]
    exact h.fresh m (Nat.le_trans hle hm)
  · by_cases hmn : m = n
    · rw [hmn, x.put_course_self] at hm
      cases hm
    · rw [x.put_course_of_ne s c hmn] at hm
      rw [movesOf, List.filter_append]
      exact (congrArg₂ _ (h.absent m hm) (movesOf_other (hother hmn))).trans (List.append_nil _)
  · by_cases hmn : m = n
    · rw [hmn, x.put_course_self] at hd
      cases hd
      exact hmn ▸ hkept
    · rw [x.put_course_of_ne s c hmn] at hd
      exact (h.kept m d hd).other (hother hmn)

theorem History.step (h : History es x) (hstep : Step env x e y) : History (es ++ [e]) y := by
  cases hstep with
  | start hpage =>
    exact h.put (Nat.le_succ _) (Nat.lt_succ_self _) rfl (.start (h.absent _ (h.fresh _ (Nat.le_refl _))) _ _)
  | expand hc hopen howed htags =>
    exact h.put (Nat.le_refl _) (h.below hc) rfl ((h.kept _ _ hc).expand hopen howed _)
  | work hkeeps =>
    have hother : ∀ n, Event.work.render? ≠ some n := nofun
    refine ⟨fun n hn => h.fresh n (hkeeps.renders ▸ hn), fun n hn => ?_, fun n c hc => (h.kept n c hc).other (hother n)⟩
    rw [movesOf, List.filter_append]
    exact (congrArg₂ _ (h.absent n hn) (movesOf_other (hother n))).trans (List.append_nil _)
  | @ended n c tag after before ending hc howed =>
    have hrenders := tell_renders tag ending x.state
    exact h.put (Nat.le_of_eq hrenders.symm) (hrenders ▸ h.below hc) rfl ((h.kept _ _ hc).ended howed ending)
  | finish hc hopen howed =>
    exact h.put (Nat.le_refl _) (h.below hc) rfl ((h.kept _ _ hc).closed (.inr ⟨_, rfl, howed⟩))
  | breakOff hc hopen => exact h.put (Nat.le_refl _) (h.below hc) rfl ((h.kept _ _ hc).closed (.inl rfl))

/-- The numbers in use are below the number of the next render. -/
structure Numbered (s : State ω) : Prop where
  handler : ∀ m ∈ s.handler.recorders, m < s.renders
  recorded : ∀ r ∈ s.reports.recorded, r.1 < s.renders

/-- The recorders of renders, one before the other, in front of a handler. -/
def chain (h : Handler) (stack : List Nat) : Handler := stack.foldr Handler.recorder h

theorem recorders_chain (h : Handler) (stack : List Nat) : (chain h stack).recorders = stack ++ h.recorders := by
  induction stack with
  | nil => rfl
  | cons n stack ih => exact congrArg (n :: ·) ih

/-- Since the render started, no call for a directive of another render failed. -/
def Alone (n : Nat) (es : List Event) : Prop :=
  ∀ e ∈ es.dropWhile fun e => !e.starts n, e.failure?.isSome = true → e.render? = some n

theorem Alone.of_append (h : Alone n (es ++ fs)) : Alone n es := by
  intro e he
  refine h e ?_
  rw [List.dropWhile_append]
  split
  · next hempty => rw [List.isEmpty_iff.1 hempty] at he; cases he
  · exact List.mem_append_left _ he

/-- Whoever fails after the render has started is the render itself. -/
theorem Alone.last (h : Alone n (es ++ [e])) {page : Text} (hstart : .start n page ∈ es)
    (hfails : e.failure?.isSome = true) : e.render? = some n := by
  refine h e ?_ hfails
  rw [List.dropWhile_append, if_neg]
  · exact List.mem_append_right _ (List.mem_singleton_self e)
  · rw [List.isEmpty_iff]
    intro hempty
    have hnot := List.dropWhile_eq_nil_iff.1 hempty _ hstart
    simp [Event.starts] at hnot

/-- A session with these renders under way, which started in front of a handler. -/
structure Stacked (h : Handler) (es : List Event) (x : Session ω) (stack : List Nat) : Prop where
  handler : x.state.handler = chain h stack
  found : ∀ above n below, stack = above ++ n :: below →
    ∃ c, x.course n = some c ∧ c.found = chain h below ∧ c.closed = false
  nodup : stack.Nodup
  apart : ∀ n ∈ stack, n ∉ h.recorders
  numbered : Numbered x.state
  errors : ∀ n ∈ stack, Alone n es → errorsOf n x.state = (failedOf n es).map Prod.fst

theorem failedOf_quiet (h : e.failure? = none) : failedOf n (es ++ [e]) = failedOf n es := by
  rw [failedOf_append, failedOf, failedOf, movesOf, movesOf, List.filter_singleton]
  cases decide (e.render? = some n) <;> simp [failed, h]

/-- A recorder that stands once in the handler in force records a failure once. -/
theorem errorsOf_tell (tag : Located Chunk) (ending : Ending) (hcount : s.handler.recorders.count n = 1) :
    errorsOf n (tell tag ending s) = errorsOf n s ++ (failure? tag ending).toList.map Prod.fst := by
  rw [errorsOf, errorsOf, tell_recorded, List.filter_append, List.map_append]
  refine congrArg _ ?_
  cases failure? tag ending with
  | none => rfl
  | some f =>
    have hone : s.handler.recorders.filter (fun m => m = n) = [n] := by
      rw [List.filter_eq, hcount]
      rfl
    rw [Option.toList_some, List.flatMap_singleton, List.filter_map, List.map_map]
    change (s.handler.recorders.filter fun m => m = n).map _ = _
    rw [hone]
    rfl

section

variable {h : Handler} {stack stack' : List Nat} {c' : Course}

theorem Stacked.count (hs : Stacked h es x stack) (hn : n ∈ stack) : x.state.handler.recorders.count n = 1 := by
  rw [hs.handler, recorders_chain, List.count_append, List.count_eq_one_of_mem hs.nodup hn,
    List.count_eq_zero_of_not_mem (hs.apart n hn)]

theorem Stacked.mem (hs : Stacked h es x stack) (hn : n ∈ stack) : ∃ c, x.course n = some c := by
  obtain ⟨above, below, hsplit⟩ := List.append_of_mem hn
  obtain ⟨c, hc, -⟩ := hs.found above n below hsplit
  exact ⟨c, hc⟩

/-- A move of a render that leaves it under way. -/
theorem Stacked.put (hs : Stacked h es x stack) (hc : x.course n = some c) (hfound : c'.found = c.found)
    (hopen : c'.closed = c.closed) (hhandler : s.handler = x.state.handler) (hnumbered : Numbered s)
    (herrors : ∀ m ∈ stack, Alone m (es ++ [e]) → errorsOf m s = (failedOf m (es ++ [e])).map Prod.fst) :
    Stacked h (es ++ [e]) (x.put s n c') stack where
  handler := hhandler.trans hs.handler
  found above m below hsplit := by
    obtain ⟨d, hd, hdfound, hdopen⟩ := hs.found above m below hsplit
    by_cases hm : m = n
    · subst hm
      obtain rfl : c = d := Option.some.inj (hc.symm.trans hd)
      exact ⟨c', x.put_course_self .., hfound.trans hdfound, hopen.trans hdopen⟩
    · exact ⟨d, (x.put_course_of_ne s c' hm).trans hd, hdfound, hdopen⟩
  nodup := hs.nodup
  apart := hs.apart
  numbered := hnumbered
  errors := herrors

/-- The render that started last ends, and the handler it found is in force again. -/
theorem Stacked.pop (hs : Stacked h es x (n :: stack)) (hc : x.course n = some c) (hquiet : e.failure? = none) :
    Stacked h (es ++ [e]) (x.put (Rendering.restore c.found x.state).2 n c') stack := by
  obtain ⟨d, hd, hfound, -⟩ := hs.found [] n stack rfl
  obtain rfl : c = d := Option.some.inj (hc.symm.trans hd)
  have hne : ∀ m ∈ stack, m ≠ n := by
    rintro m hm rfl
    exact (List.nodup_cons.1 hs.nodup).1 hm
  refine ⟨hfound, fun above m below hsplit => ?_, (List.nodup_cons.1 hs.nodup).2,
    fun m hm => hs.apart m (List.mem_cons_of_mem n hm), ⟨fun m hm => ?_, hs.numbered.recorded⟩, fun m hm halone => ?_⟩
  · obtain ⟨d, hd, hdfound, hdopen⟩ := hs.found (n :: above) m below (congrArg (n :: ·) hsplit)
    have hm : m ∈ stack := hsplit ▸ List.mem_append_right _ List.mem_cons_self
    exact ⟨d, (x.put_course_of_ne _ c' (hne m hm)).trans hd, hdfound, hdopen⟩
  · apply hs.numbered.handler
    rw [hs.handler]
    have hm : m ∈ c.found.recorders := hm
    rw [hfound] at hm
    exact List.mem_cons_of_mem n hm
  · rw [failedOf_quiet hquiet]
    exact hs.errors m (List.mem_cons_of_mem n hm) halone.of_append

theorem Stacked.start (hs : Stacked h es x stack) (hh : History es x) (page : Text) :
    Stacked h (es ++ [.start x.state.renders page])
      (x.put (Rendering.install x.state).2 x.state.renders ⟨page, x.state.handler, none, false⟩)
      (x.state.renders :: stack) := by
  have hne : ∀ m ∈ stack, m ≠ x.state.renders := by
    intro m hm
    obtain ⟨c, hc⟩ := hs.mem hm
    exact Nat.ne_of_lt (hh.below hc)
  refine ⟨congrArg _ hs.handler, fun above m below hsplit => ?_,
    List.nodup_cons.2 ⟨fun hm => hne _ hm rfl, hs.nodup⟩, fun m hm => ?_, ⟨fun m hm => ?_, fun r hr => ?_⟩,
    fun m hm halone => ?_⟩
  · cases above with
    | nil =>
      obtain ⟨rfl, rfl⟩ := List.cons.inj hsplit
      exact ⟨_, x.put_course_self .., hs.handler, rfl⟩
    | cons a above =>
      obtain ⟨-, hsplit⟩ := List.cons.inj hsplit
      obtain ⟨d, hd, hdfound, hdopen⟩ := hs.found above m below hsplit
      have hm : m ∈ stack := hsplit ▸ List.mem_append_right _ List.mem_cons_self
      exact ⟨d, (x.put_course_of_ne _ _ (hne m hm)).trans hd, hdfound, hdopen⟩
  · rcases List.mem_cons.1 hm with rfl | hm
    · intro hmem
      refine Nat.lt_irrefl _ (hs.numbered.handler x.state.renders ?_)
      rw [hs.handler, recorders_chain]
      exact List.mem_append_right _ hmem
    · exact hs.apart m hm
  · rcases List.mem_cons.1 hm with rfl | hm
    · exact Nat.lt_succ_self _
    · exact Nat.lt_succ_of_lt (hs.numbered.handler m hm)
  · exact Nat.lt_succ_of_lt (hs.numbered.recorded r hr)
  · rw [failedOf_quiet rfl]
    rcases List.mem_cons.1 hm with rfl | hm
    · -- nothing was recorded yet under the number of the new render
      have hmoves : movesOf x.state.renders es = [] := hh.absent _ (hh.fresh _ (Nat.le_refl _))
      rw [failedOf, hmoves]
      refine congrArg (List.map Prod.snd) (List.filter_eq_nil_iff.2 fun r hr => ?_)
      simpa using Nat.ne_of_lt (hs.numbered.recorded r hr)
    · exact hs.errors m hm halone.of_append

/-- Nothing new is recorded by a move that is no failure. -/
theorem Stacked.errors_quiet (hs : Stacked h es x stack) (hquiet : e.failure? = none) :
    ∀ m ∈ stack, Alone m (es ++ [e]) → errorsOf m x.state = (failedOf m (es ++ [e])).map Prod.fst := by
  intro m hm halone
  rw [failedOf_quiet hquiet]
  exact hs.errors m hm halone.of_append

theorem Stacked.work (hs : Stacked h es x stack) (hkeeps : Keeps x.state s) :
    Stacked h (es ++ [.work]) ⟨s, x.course⟩ stack := by
  refine ⟨hkeeps.handler.trans hs.handler, hs.found, hs.nodup, hs.apart, ⟨?_, ?_⟩, fun m hm halone => ?_⟩
  · rw [hkeeps.handler, hkeeps.renders]
    exact hs.numbered.handler
  · rw [hkeeps.recorded, hkeeps.renders]
    exact hs.numbered.recorded
  · rw [errorsOf, hkeeps.recorded]
    exact hs.errors_quiet rfl m hm halone

theorem Numbered.tell (h : Numbered s) (tag : Located Chunk) (ending : Ending) :
    Numbered (tell tag ending s) := by
  refine ⟨?_, fun r hr => ?_⟩
  · rw [tell_handler, tell_renders]
    exact h.handler
  · rw [tell_recorded] at hr
    rw [tell_renders]
    rcases List.mem_append.1 hr with hr | hr
    · exact h.recorded r hr
    · obtain ⟨f, -, hr⟩ := List.mem_flatMap.1 hr
      obtain ⟨k, hk, rfl⟩ := List.mem_map.1 hr
      exact h.handler k hk

/-- The load of a directive ends, with a failure or without. -/
theorem Stacked.ended (hs : Stacked h es x stack) (hh : History es x) (hc : x.course n = some c)
    (tag : Located Chunk) (ending : Ending) (owed : Option (List (Located Chunk))) :
    Stacked h (es ++ [.ended n tag ending]) (x.put (tell tag ending x.state) n { c with owed }) stack := by
  refine hs.put hc rfl rfl (tell_handler tag ending _) (hs.numbered.tell tag ending) fun m hm halone => ?_
  rw [errorsOf_tell tag ending (hs.count hm), hs.errors m hm halone.of_append]
  cases hfailure : failure? tag ending with
  | none =>
    rw [failedOf_quiet (e := .ended n tag ending) hfailure]
    exact List.append_nil _
  | some f =>
    -- only the render itself fails, and so the failure is its own
    obtain ⟨d, hd⟩ := hs.mem hm
    obtain ⟨page, hpage⟩ := (hh.kept m d hd).begun
    have hown : some n = some m := halone.last hpage (by rw [Event.failure?, hfailure]; rfl)
    cases hown
    rw [failedOf_append, List.map_append]
    simp [failedOf, failed, movesOf, Event.render?, Event.failure?, hfailure]

/-- Only the render that started last may end, either way. -/
theorem Event.stack_of_leaves (he : e = .breakOff n ∨ ∃ errors, e = .finish n errors)
    (hleaves : e.leaves stack = some stack') : stack = n :: stack' := by
  cases stack with
  | nil => rcases he with rfl | ⟨errors, rfl⟩ <;> cases hleaves
  | cons m below =>
    have hlast : e.leaves (m :: below) = if n = m then some below else none := by
      rcases he with rfl | ⟨errors, rfl⟩ <;> rfl
    rw [hlast, Option.ite_none_right_eq_some] at hleaves
    obtain ⟨rfl, hbelow⟩ := hleaves
    rw [Option.some.inj hbelow]

theorem Stacked.step (hs : Stacked h es x stack) (hh : History es x) (hstep : Step env x e y)
    (hleaves : e.leaves stack = some stack') : Stacked h (es ++ [e]) y stack' := by
  cases hstep with
  | start hpage =>
    cases hleaves
    exact hs.start hh _
  | expand hc hopen howed htags =>
    cases hleaves
    exact hs.put hc rfl rfl rfl hs.numbered (hs.errors_quiet rfl)
  | work hkeeps =>
    cases hleaves
    exact hs.work hkeeps
  | ended before ending hc howed =>
    cases hleaves
    exact hs.ended hh hc _ ending _
  | finish hc hopen howed =>
    obtain rfl := Event.stack_of_leaves (.inr ⟨_, rfl⟩) hleaves
    exact hs.pop hc rfl
  | breakOff hc hopen =>
    obtain rfl := Event.stack_of_leaves (.inl rfl) hleaves
    exact hs.pop hc rfl

end

/-! ### A whole run -/

/-- What holds after renders have shared a loader. -/
structure Sound (s : State ω) (es : List Event) (x : Session ω) : Prop where
  /-- The maker of the loader was told of every failed call, in order, and of nothing else. -/
  told : x.state.reports.failures = s.reports.failures ++ failed es
  /-- A render finished after each of its directives had ended, once. -/
  once : ∀ n tags errors, .expand n tags ∈ es → .finish n errors ∈ es → (endedOf n es).Perm tags
  /-- If renders ended in the reverse order of their starts, the first handler is in force again. -/
  handler : Nested es → x.state.handler = s.handler
  /-- The errors of a render that was not disturbed are those of its own directives. -/
  errors : ∀ n errors, Nested es → .finish n errors ∈ es → Undisturbed n es →
    errors = (failedOf n es).map Prod.fst

end

/-! ### Renders that cross, and renders that are nested -/

def gone : RemoteFailure := ⟨"store".toList, none, "gone".toList⟩

section

variable {tag : Located Chunk}

end

end PageAssembly.Overlap
