/-
  PageAssembly/Proofs/Waterfall/Accounting.lean
  =============================================
  **Every request of a waterfall is accounted for.**

  A run asks for the paths of a document round by round.  To speak of the requests that
  were made, and not of what the run believes about them, the source is recorded: the
  recorded source does what the source does and writes down each path that it is asked
  for (`rounds_recorded`).

  What holds between two groups of a round is `Accounted`: the run remembers exactly the
  requests made, no path among them twice; each has put a page in or failed; and the
  ceiling was not passed.  A group keeps this because its paths are new and no more than
  the ceiling leaves (`group_accounted`), and from the groups it goes to rounds and to the
  run.  `run_accounted` adds where each request came from, and what it means that the
  limit was reached.
-/
import PageAssembly.Waterfall.Run
import Mathlib.Data.List.Nodup
import Mathlib.Logic.Relation

namespace PageAssembly.Waterfall

open Relation (ReflTransGen)

variable {σ : Type} {src : Source σ} {l : Limits} {w w' : Waterfall} {s s' : σ}
  {asked ps : List Text}

/-! ### Recording a source -/

/-- The source, with the paths that it is asked for written down in order. -/
def Source.recorded (src : Source σ) : Source (σ × List Text) where
  fetch p s := ((src.fetch p s.1).1, (src.fetch p s.1).2, s.2 ++ [p])
  process p raw s := ((src.process p raw s.1).1, (src.process p raw s.1).2, s.2)

theorem fetchAll_cons (src : Source σ) (p : Text) (ps : List Text) (s : σ) :
    fetchAll src (p :: ps) s =
      ((p, (src.fetch p s).1) :: (fetchAll src ps (src.fetch p s).2).1,
        (fetchAll src ps (src.fetch p s).2).2) := rfl

theorem fetchAll_recorded (src : Source σ) (ps : List Text) (s : σ) (asked : List Text) :
    fetchAll src.recorded ps (s, asked) =
      ((fetchAll src ps s).1, (fetchAll src ps s).2, asked ++ ps) := by
  induction ps generalizing s asked with
  | nil => simp [fetchAll]
  | cons p ps ih =>
    have htail := ih (src.fetch p s).2 (asked ++ [p])
    rw [List.append_assoc, List.singleton_append] at htail
    rw [fetchAll_cons, fetchAll_cons]
    simp only [Source.recorded] at htail ⊢
    rw [htail]

theorem settle_recorded (src : Source σ) (w : Waterfall) (p : Text) (found : Except Failure Text)
    (s : σ) (asked : List Text) :
    settle src.recorded w p found (s, asked) =
      ((settle src w p found s).1, (settle src w p found s).2, asked) := by
  unfold settle
  cases found with
  | error e => cases e <;> rfl
  | ok raw =>
    simp only [Source.recorded]
    rcases src.process p raw s with ⟨e | _ | content, s'⟩ <;> rfl

theorem settleAll_recorded (src : Source σ) (w : Waterfall) (fs : List (Text × Except Failure Text))
    (s : σ) (asked : List Text) :
    settleAll src.recorded w fs (s, asked) =
      ((settleAll src w fs s).1, (settleAll src w fs s).2, asked) := by
  induction fs generalizing w s with
  | nil => rfl
  | cons f fs ih =>
    simp only [settleAll, settle_recorded]
    rcases settle src w f.1 f.2 s with ⟨e | w', s'⟩
    · rfl
    · exact ih w' s'

theorem group_recorded (src : Source σ) (w : Waterfall) (ps : List Text) (s : σ) (asked : List Text) :
    group src.recorded w ps (s, asked) =
      ((group src w ps s).1, (group src w ps s).2, asked ++ ps) := by
  simp only [group, fetchAll_recorded, settleAll_recorded]

theorem groups_recorded (src : Source σ) (l : Limits) (bound : Nat) (w : Waterfall) (ps : List Text)
    (s : σ) (asked : List Text) :
    ∃ more, groups src.recorded l bound w ps (s, asked) =
      ((groups src l bound w ps s).1, (groups src l bound w ps s).2, asked ++ more) := by
  induction bound generalizing w ps s asked with
  | zero => exact ⟨[], by simp [groups]⟩
  | succ bound ih =>
    simp only [groups, group_recorded]
    split
    · exact ⟨[], by simp⟩
    · rcases group src w (ps.take (min l.width (remaining l w))) s with ⟨e | w', s'⟩
      · exact ⟨ps.take (min l.width (remaining l w)), rfl⟩
      · obtain ⟨more, hmore⟩ := ih w' (ps.drop l.width) s'
          (asked ++ ps.take (min l.width (remaining l w)))
        exact ⟨ps.take (min l.width (remaining l w)) ++ more, by rw [← List.append_assoc]; exact hmore⟩

/-! ### One round at a time -/

theorem rounds_of_unseen_nil (src : Source σ) (l : Limits) (s : σ) (h : w.unseen = []) :
    rounds src l w s = (.ok (w.completed false), s) := by
  rw [rounds, dif_pos (by rw [h]; rfl)]

theorem rounds_of_remaining_zero (src : Source σ) (s : σ) (hu : w.unseen ≠ [])
    (hr : remaining l w = 0) : rounds src l w s = (.ok (w.completed true), s) := by
  rw [rounds, dif_neg (by simpa using hu), dif_pos hr]

theorem rounds_of_round (hu : w.unseen ≠ []) (hr : remaining l w ≠ 0)
    (h : round src l w s = (.ok w', s')) : rounds src l w s = rounds src l w' s' := by
  rw [rounds, dif_neg (by simpa using hu), dif_neg hr]
  split
  · next h' =>
    rw [h] at h'
    cases h'
  · next h' =>
    rw [h] at h'
    cases h'
    rfl

theorem rounds_of_round_error {e : Failure} (hu : w.unseen ≠ []) (hr : remaining l w ≠ 0)
    (h : round src l w s = (.error e, s')) : rounds src l w s = (.error e, s') := by
  rw [rounds, dif_neg (by simpa using hu), dif_neg hr]
  split
  · next h' =>
    rw [h] at h'
    cases h'
    rfl
  · next h' =>
    rw [h] at h'
    cases h'

/-- Recording changes nothing of what a run does. -/
theorem rounds_recorded (src : Source σ) (l : Limits) (w : Waterfall) (s : σ) (asked : List Text) :
    ∃ more, rounds src.recorded l w (s, asked) =
      ((rounds src l w s).1, (rounds src l w s).2, asked ++ more) := by
  fun_induction rounds src l w s generalizing asked with
  | case1 w s hu =>
    exact ⟨[], by rw [rounds_of_unseen_nil _ _ _ (by simpa using hu), List.append_nil]⟩
  | case2 w s hu hr =>
    exact ⟨[], by rw [rounds_of_remaining_zero _ _ (by simpa using hu) hr, List.append_nil]⟩
  | case3 w s hu hr e s' hround =>
    obtain ⟨more, hmore⟩ := groups_recorded src l w.unseen.length w w.unseen s asked
    change round src.recorded l w (s, asked) = ((round src l w s).1, (round src l w s).2, _) at hmore
    rw [hround] at hmore
    exact ⟨more, rounds_of_round_error (by simpa using hu) hr hmore⟩
  | case4 w s hu hr w' s' hround ih =>
    obtain ⟨more, hmore⟩ := groups_recorded src l w.unseen.length w w.unseen s asked
    change round src.recorded l w (s, asked) = ((round src l w s).1, (round src l w s).2, _) at hmore
    rw [hround] at hmore
    obtain ⟨later, hlater⟩ := ih (asked ++ more)
    refine ⟨more ++ later, ?_⟩
    rw [rounds_of_round (by simpa using hu) hr hmore, hlater, List.append_assoc]

/-! ### The balance of a group -/

/-- A source that gives a page or fails remotely, and whose work on a page gives a text or
    fails. -/
structure Source.Plain (src : Source σ) : Prop where
  fetch : ∀ p s e, (src.fetch p s).1 = .error e → ∃ f, e = .remote f
  process : ∀ p raw s, (src.process p raw s).1 ≠ .ok none

/-- The requests made so far are those remembered, none was made twice, each has put a
    page in or failed, and the ceiling was not passed. -/
structure Accounted (l : Limits) (w : Waterfall) (asked : List Text) : Prop where
  requested : w.requested = asked
  nodup : asked.Nodup
  balance : asked.length = w.loaded + w.failures.length
  ceiling : (w.loaded : Int) ≤ l.ceiling

theorem fetchAll_plain (h : src.Plain) (ps : List Text) (s : σ) :
    (fetchAll src ps s).1.length = ps.length ∧
      ∀ f ∈ (fetchAll src ps s).1, ∀ e, f.2 = .error e → ∃ g, e = .remote g := by
  induction ps generalizing s with
  | nil => exact ⟨rfl, by simp [fetchAll]⟩
  | cons p ps ih =>
    obtain ⟨hlength, hremote⟩ := ih (src.fetch p s).2
    rw [fetchAll_cons]
    refine ⟨congrArg (· + 1) hlength, List.forall_mem_cons.2 ⟨h.fetch p s, hremote⟩⟩

theorem settle_balance (h : src.Plain) (w : Waterfall) (p : Text) {found : Except Failure Text}
    (hfound : ∀ e, found = .error e → ∃ f, e = .remote f) (s : σ) :
    ∃ w' s', settle src w p found s = (.ok w', s') ∧ w'.requested = w.requested ∧
      w.loaded ≤ w'.loaded ∧ w'.loaded ≤ w.loaded + 1 ∧
      w'.loaded + w'.failures.length = w.loaded + w.failures.length + 1 := by
  unfold settle
  cases found with
  | error e =>
    obtain ⟨f, rfl⟩ := hfound e rfl
    refine ⟨w.failed p (.remote f), s, rfl, rfl, ?_, ?_, ?_⟩
    all_goals simp [failed]; try omega
  | ok raw =>
    have hnone := h.process p raw s
    rcases hprocess : src.process p raw s with ⟨e | _ | content, s'⟩
    · refine ⟨w.failed p e, s', by simp [hprocess], rfl, ?_, ?_, ?_⟩
      all_goals simp [failed]; try omega
    · rw [hprocess] at hnone
      exact absurd rfl hnone
    · refine ⟨w.filled p content, s', by simp [hprocess], rfl, ?_, ?_, ?_⟩
      all_goals simp [filled]; try omega

theorem settleAll_balance (h : src.Plain) (w : Waterfall) {fs : List (Text × Except Failure Text)}
    (hfs : ∀ f ∈ fs, ∀ e, f.2 = .error e → ∃ g, e = .remote g) (s : σ) :
    ∃ w' s', settleAll src w fs s = (.ok w', s') ∧ w'.requested = w.requested ∧
      w'.loaded ≤ w.loaded + fs.length ∧
      w'.loaded + w'.failures.length = w.loaded + w.failures.length + fs.length := by
  induction fs generalizing w s with
  | nil => exact ⟨w, s, rfl, rfl, by simp, by simp⟩
  | cons f fs ih =>
    obtain ⟨hf, hrest⟩ := List.forall_mem_cons.1 hfs
    obtain ⟨v, t, hstep, hrequested, -, hloaded, hbalance⟩ := settle_balance h w f.1 hf s
    obtain ⟨w', s', hsteps, hrequested', hloaded', hbalance'⟩ := ih v hrest t
    refine ⟨w', s', ?_, hrequested'.trans hrequested, ?_, ?_⟩
    · simp only [settleAll, hstep]
      exact hsteps
    · rw [List.length_cons]
      omega
    · rw [List.length_cons]
      omega

/-- A group of new paths, no more than the ceiling leaves, keeps the account. -/
theorem group_accounted (hsrc : src.Plain) (h : Accounted l w asked) (hnodup : ps.Nodup)
    (hnew : ∀ p ∈ ps, p ∉ asked) (hroom : ps.length ≤ remaining l w) (s : σ) :
    ∃ w' s', group src w ps s = (.ok w', s') ∧ Accounted l w' (asked ++ ps) := by
  obtain ⟨hlength, hremote⟩ := fetchAll_plain hsrc ps s
  obtain ⟨w', s', hsteps, hrequested, hloaded, hbalance⟩ :=
    settleAll_balance hsrc { w with requested := w.requested ++ ps } hremote (fetchAll src ps s).2
  dsimp only at hrequested hloaded hbalance
  refine ⟨w', s', hsteps, ?_, ?_, ?_, ?_⟩
  · rw [hrequested, h.requested]
  · exact h.nodup.append hnodup fun p hp hp' => hnew p hp' hp
  · rw [List.length_append, hbalance, hlength, h.balance]
  · have hceiling := h.ceiling
    simp only [remaining] at hroom
    omega

/-! ### The rounds -/

theorem groups_accounted (hsrc : src.Plain) (h : Accounted l w asked) (hnodup : ps.Nodup)
    (hnew : ∀ p ∈ ps, p ∉ asked) (bound : Nat) (s : σ) :
    ∃ w' s' more, groups src.recorded l bound w ps (s, asked) = (.ok w', s', asked ++ more) ∧
      more ⊆ ps ∧ Accounted l w' (asked ++ more) := by
  induction bound generalizing w asked ps s with
  | zero => exact ⟨w, s, [], by simp [groups], by simp, by simpa using h⟩
  | succ bound ih =>
    simp only [groups, group_recorded]
    split
    · exact ⟨w, s, [], by simp, by simp, by simpa using h⟩
    · -- the group is a front part of the paths, and the other groups come from what is behind it
      let front := ps.take (min l.width (remaining l w))
      have hfront : front.Sublist ps := List.take_sublist _ _
      have hback : (ps.drop l.width).Sublist ps := List.drop_sublist _ _
      have hroom : front.length ≤ remaining l w := by
        simp only [front, List.length_take]
        omega
      obtain ⟨v, t, hgroup, hv⟩ := group_accounted hsrc h (hnodup.sublist hfront)
        (fun p hp => hnew p (hfront.subset hp)) hroom s
      have hnew' : ∀ p ∈ ps.drop l.width, p ∉ asked ++ front := by
        intro p hp hmem
        rcases List.mem_append.1 hmem with hmem | hmem
        · exact hnew p (hback.subset hp) hmem
        · have hdisjoint := List.disjoint_take_drop hnodup (Nat.min_le_left l.width (remaining l w))
          exact hdisjoint hmem hp
      obtain ⟨w', s', more, hgroups, hmore, hw'⟩ := ih hv (hnodup.sublist hback) hnew' t
      refine ⟨w', s', front ++ more, ?_, ?_, ?_⟩
      · rw [hgroup]
        simpa only [List.append_assoc] using hgroups
      · exact List.append_subset.2 ⟨hfront.subset, List.Subset.trans hmore hback.subset⟩
      · simpa only [List.append_assoc] using hw'

theorem nodup_eraseDups (xs : List Text) : xs.eraseDups.Nodup := by
  induction hn : xs.length using Nat.strongRecOn generalizing xs with
  | ind n ih =>
    cases xs with
    | nil => simp
    | cons x xs =>
      have hlt : (xs.filter fun y => !y == x).length < n := by
        have := List.length_filter_le (fun y => !y == x) xs
        rw [← hn, List.length_cons]
        omega
      rw [List.eraseDups_cons, List.nodup_cons]
      exact ⟨by simp [List.mem_eraseDups], ih _ hlt _ rfl⟩

theorem nodup_unseen (w : Waterfall) : w.unseen.Nodup := (nodup_eraseDups _).filter _

theorem mem_unseen_iff {p : Text} : p ∈ w.unseen ↔ p ∈ paths w.document ∧ p ∉ w.requested := by
  simp [unseen, List.mem_filter]

/-- One round of a run. -/
def Advance (src : Source σ) (l : Limits) (a b : Waterfall × σ) : Prop :=
  a.1.unseen ≠ [] ∧ remaining l a.1 ≠ 0 ∧ round src l a.1 a.2 = (.ok b.1, b.2)

/-- The path was asked for between `a` and `z`, in a round that scanned a document with a
    placeholder for it. -/
def Scanned (src : Source σ) (l : Limits) (a z : Waterfall × σ × List Text) (p : Text) : Prop :=
  ∃ b c, ReflTransGen (Advance src.recorded l) a b ∧ Advance src.recorded l b c ∧
    ReflTransGen (Advance src.recorded l) c z ∧ p ∈ paths b.1.document ∧ p ∉ b.2.2 ∧ p ∈ c.2.2

theorem Scanned.head {a b z : Waterfall × σ × List Text} {p : Text}
    (h : Advance src.recorded l a b) (hp : Scanned src l b z p) : Scanned src l a z p := by
  obtain ⟨c, d, hbc, hcd⟩ := hp
  exact ⟨c, d, .head h hbc, hcd⟩

theorem round_accounted (hsrc : src.Plain) (h : Accounted l w asked) (s : σ) :
    ∃ w' s' more, round src.recorded l w (s, asked) = (.ok w', s', asked ++ more) ∧
      more ⊆ w.unseen ∧ Accounted l w' (asked ++ more) := by
  refine groups_accounted hsrc h (nodup_unseen w) ?_ _ s
  intro p hp
  rw [← h.requested]
  exact (mem_unseen_iff.1 hp).2

/-- The rounds of a run, from a state in which the account is right. -/
theorem rounds_accounted (hsrc : src.Plain) (w : Waterfall) (x : σ × List Text)
    (h : Accounted l w x.2) :
    ∃ last reached s' more,
      rounds src.recorded l w x = (.ok (last.completed reached), s', x.2 ++ more) ∧
      Accounted l last (x.2 ++ more) ∧
      ReflTransGen (Advance src.recorded l) (w, x) (last, s', x.2 ++ more) ∧
      (∀ p ∈ more, Scanned src l (w, x) (last, s', x.2 ++ more) p) ∧
      (reached = true ↔ last.unseen ≠ []) ∧ (reached = true → remaining l last = 0) := by
  fun_induction rounds src.recorded l w x with
  | case1 w x hu =>
    have hnil : w.unseen = [] := by simpa using hu
    exact ⟨w, false, x.1, [], by simp, by simpa using h, by simpa using ReflTransGen.refl, by simp,
      by simp [hnil], by simp⟩
  | case2 w x hu hr =>
    exact ⟨w, true, x.1, [], by simp, by simpa using h, by simpa using ReflTransGen.refl, by simp,
      by simpa using hu, fun _ => hr⟩
  | case3 w x hu hr e x' hround =>
    -- a plain source does not break a round off
    obtain ⟨w', s', more, hok, -⟩ := round_accounted hsrc h x.1
    rw [hok] at hround
    cases hround
  | case4 w x hu hr w' x' hround ih =>
    obtain ⟨v, s', front, hok, hfront, hv⟩ := round_accounted hsrc h x.1
    rw [hok] at hround
    cases hround
    obtain ⟨last, reached, t, more, hrounds, hlast, htrail, hmore, hreached, hfull⟩ := ih hv
    have hadvance : Advance src.recorded l (w, x) (w', s', x.2 ++ front) :=
      ⟨by simpa using hu, hr, hok⟩
    simp only [List.append_assoc] at hrounds hlast htrail hmore
    refine ⟨last, reached, t, front ++ more, hrounds, hlast, .head hadvance htrail, ?_, hreached, hfull⟩
    intro p hp
    rcases List.mem_append.1 hp with hp | hp
    · have hunseen := mem_unseen_iff.1 (hfront hp)
      exact ⟨_, _, .refl, hadvance, htrail, hunseen.1, h.requested ▸ hunseen.2,
        List.mem_append_right _ hp⟩
    · exact (hmore p hp).head hadvance

/-! ### The run -/

/-- A run over a plain source ends, and its requests are accounted for: no path is asked for
    twice, and each in a round that found a placeholder for it; every request has put a page
    in or failed; no more pages are put in than the ceiling allows; and the limit was reached
    exactly when there are placeholders left whose paths were not asked for, which takes as
    many pages as the ceiling allows. -/
theorem run_accounted (hsrc : src.Plain) (hl : 0 ≤ l.ceiling) (document : Text) (s : σ) :
    ∃ last reached s' asked,
      run src l document s = (.ok (last.completed reached), s') ∧
      run src.recorded l document (s, []) = (.ok (last.completed reached), s', asked) ∧
      ReflTransGen (Advance src.recorded l) (start document, s, []) (last, s', asked) ∧
      asked.Nodup ∧
      (∀ p ∈ asked, Scanned src l (start document, s, []) (last, s', asked) p) ∧
      asked.length = last.loaded + last.failures.length ∧
      (last.loaded : Int) ≤ l.ceiling ∧
      (reached = true ↔ ∃ p ∈ paths last.document, p ∉ asked) ∧
      (reached = true → (last.loaded : Int) = l.ceiling) := by
  have hstart : Accounted l (start document) [] := ⟨rfl, by simp, rfl, hl⟩
  obtain ⟨last, reached, s', asked, hrun, hlast, htrail, hscanned, hreached, hfull⟩ :=
    rounds_accounted hsrc (start document) (s, []) hstart
  simp only [List.nil_append] at hrun hlast htrail hscanned
  obtain ⟨more, hrecorded⟩ := rounds_recorded src l (start document) s []
  rw [hrun] at hrecorded
  obtain ⟨hresult, hstate⟩ := Prod.mk.inj hrecorded
  refine ⟨last, reached, s', asked, ?_, hrun, htrail, hlast.nodup, hscanned, hlast.balance,
    hlast.ceiling, ?_, fun h => ?_⟩
  · exact Prod.ext hresult.symm (Prod.mk.inj hstate).1.symm
  · have hunseen : ∀ p, p ∈ last.unseen ↔ p ∈ paths last.document ∧ p ∉ asked := by
      intro p
      rw [mem_unseen_iff, hlast.requested]
    rw [hreached]
    constructor
    · intro hne
      obtain ⟨p, hp⟩ := List.exists_mem_of_ne_nil _ hne
      exact ⟨p, (hunseen p).1 hp⟩
    · rintro ⟨p, hp⟩
      exact List.ne_nil_of_mem ((hunseen p).2 hp)
  · have hzero := hfull h
    have hceiling := hlast.ceiling
    simp only [remaining] at hzero
    omega

/-! ### A page that brings itself and a new page along -/

def placeholderFor (path : Text) : Text :=
  "<div data-type=render data-path=".toList ++ path ++ "></div>".toList

/-- The page at `/b` cannot be fetched, the page at `/c` cannot be worked on, and every other
    page has placeholders for itself and for the page one letter further down. -/
def branchingSource : Source Nat where
  fetch path n :=
    (if path = "/b".toList then .error (.remote ⟨"P".toList, none, "gone".toList⟩) else .ok path, n + 1)
  process path raw n :=
    (if path = "/c".toList then .error (.raised "no".toList)
      else .ok (some (placeholderFor raw ++ placeholderFor (raw ++ ['x']))), n)

theorem plain_branchingSource : branchingSource.Plain where
  fetch p n e h := by
    simp only [branchingSource] at h
    split at h
    · cases h
      exact ⟨_, rfl⟩
    · cases h
  process p raw n h := by
    simp only [branchingSource] at h
    split at h <;> cases h

def branchingText : Text :=
  placeholderFor "/a".toList ++ placeholderFor "/b".toList ++ placeholderFor "/a".toList ++
    placeholderFor "/c".toList

theorem run_accounted_branching :
    ∃ last reached n asked,
      run branchingSource ⟨2, 2, by decide⟩ branchingText 0 = (.ok (last.completed reached), n) ∧
      run branchingSource.recorded ⟨2, 2, by decide⟩ branchingText (0, []) =
        (.ok (last.completed reached), n, asked) ∧
      ReflTransGen (Advance branchingSource.recorded ⟨2, 2, by decide⟩) (start branchingText, 0, [])
        (last, n, asked) ∧
      asked.Nodup ∧
      (∀ p ∈ asked,
        Scanned branchingSource ⟨2, 2, by decide⟩ (start branchingText, 0, []) (last, n, asked) p) ∧
      asked.length = last.loaded + last.failures.length ∧
      (last.loaded : Int) ≤ 2 ∧
      (reached = true ↔ ∃ p ∈ paths last.document, p ∉ asked) ∧
      (reached = true → (last.loaded : Int) = 2) :=
  run_accounted plain_branchingSource (by decide) branchingText 0

end PageAssembly.Waterfall
