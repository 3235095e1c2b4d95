/-
  PageAssembly/Proofs/Waterfall/Ending.lean
  =========================================
  **Every waterfall ends.**

  A page may bring placeholders for pages never seen before, so the document can grow with
  every page put in; and a path that fails leaves the number of pages that may still be put
  in as it is.  Neither that number nor the number of unseen paths falls with every round.
  Their pair does, in lexicographic order, whatever the source does in the round
  (`Follows.wellFounded`): so there is no endless sequence of rounds, not even over a source
  that is another one in each round.

  `finitely_many_rounds` is about the rounds of one run.  They lead to a document at which the loop
  stops, for a reason that `Stops` names; no sequence of rounds is longer; and where no
  scanned document has more than `most` unseen paths, there are at most `most + 1` rounds
  for each page that may be put in, and `most` more.
-/
import PageAssembly.Proofs.Waterfall.Accounting

namespace PageAssembly.Waterfall

variable {σ : Type} {src : Source σ} {l : Limits} {w w' : Waterfall} {s s' : σ}

/-! ### Within a round -/

/-- Each group brings a round nearer to its end. -/
theorem length_drop_width {ps : List Text} (l : Limits) (hps : ps ≠ []) :
    (ps.drop l.width).length < ps.length := by
  have hwidth := l.width_pos
  have hlength := List.length_pos_iff.2 hps
  rw [List.length_drop]
  omega

/-- A round is over when its paths are used up: more groups than there are paths are never
    begun. -/
theorem groups_of_length_le (src : Source σ) (l : Limits) {bound : Nat} (w : Waterfall)
    {ps : List Text} (s : σ) (h : ps.length ≤ bound) :
    groups src l bound w ps s = groups src l ps.length w ps s := by
  -- On the paths and not on the bound: while a path is left the bound is not used up, and the
  -- group takes at least one path.
  induction hn : ps.length using Nat.strongRecOn generalizing bound w ps s with
  | ind n ih =>
    cases ps with
    | nil =>
      subst hn
      cases bound <;> simp [groups]
    | cons p ps =>
      obtain ⟨bound, rfl⟩ : ∃ k, bound = k + 1 := ⟨bound - 1, by simp at h; omega⟩
      obtain ⟨n, rfl⟩ : ∃ k, n = k + 1 := ⟨n - 1, by simp at hn; omega⟩
      have hdrop : ((p :: ps).drop l.width).length ≤ n := by
        have := length_drop_width l (List.cons_ne_nil p ps)
        omega
      simp only [groups]
      split
      · rfl
      · rcases group src w ((p :: ps).take (min l.width (remaining l w))) s with ⟨e | v, t⟩
        · rfl
        · dsimp only
          rw [ih _ (by omega) v t (by omega) rfl, ih _ (by omega) v t hdrop rfl]

/-! ### One round after another -/

/-- A round over some source led from the document `w` to the document `w'`. -/
def Follows (σ : Type) (l : Limits) (w' w : Waterfall) : Prop :=
  ∃ (src : Source σ) (s s' : σ), Advance src l (w, s) (w', s')

/-- No sequence of rounds is endless: each puts a page in, of which only so many are allowed,
    or leaves fewer paths unseen. -/
theorem Follows.wellFounded (σ : Type) (l : Limits) : WellFounded (Follows σ l) := by
  -- The pages that may still be put in come first: a round that puts one in may show any number
  -- of new paths.
  have hlex : WellFounded (Prod.Lex (· < ·) (· < ·) : Nat × Nat → Nat × Nat → Prop) :=
    (Prod.lex Nat.lt_wfRel Nat.lt_wfRel).wf
  refine Subrelation.wf ?_ (InvImage.wf (fun w => (remaining l w, w.unseen.length)) hlex)
  rintro w' w ⟨src, s, s', hunseen, hroom, hround⟩
  exact round_progress (by simpa using hunseen) hroom hround

/-- So many rounds of a run. -/
inductive Rounds (src : Source σ) (l : Limits) : Nat → Waterfall × σ → Waterfall × σ → Prop
  | none (a : Waterfall × σ) : Rounds src l 0 a a
  | more {n : Nat} {a b c : Waterfall × σ} : Advance src l a b → Rounds src l n b c →
      Rounds src l (n + 1) a c

/-- Why the loop ends at a document, and with what result: no path is left, or the ceiling is
    reached, or the next round breaks off. -/
inductive Stops (src : Source σ) (l : Limits) : Waterfall × σ → Except Failure Completed × σ → Prop
  | seen {w : Waterfall} {s : σ} : w.unseen = [] → Stops src l (w, s) (.ok (w.completed false), s)
  | full {w : Waterfall} {s : σ} : w.unseen ≠ [] → remaining l w = 0 →
      Stops src l (w, s) (.ok (w.completed true), s)
  | broken {w : Waterfall} {s s' : σ} {e : Failure} : w.unseen ≠ [] → remaining l w ≠ 0 →
      round src l w s = (.error e, s') → Stops src l (w, s) (.error e, s')

theorem Advance.unique {a b c : Waterfall × σ} (hb : Advance src l a b) (hc : Advance src l a c) :
    b = c := by
  have h := hb.2.2.symm.trans hc.2.2
  simp only [Prod.mk.injEq, Except.ok.injEq] at h
  exact Prod.ext h.1 h.2

theorem Stops.not_advance {a b : Waterfall × σ} {r : Except Failure Completed × σ}
    (h : Stops src l a r) : ¬ Advance src l a b := by
  rintro ⟨hunseen, hroom, hround⟩
  cases h with
  | seen hnil => exact hunseen hnil
  | full _ hzero => exact hroom hzero
  | broken _ _ herror =>
    rw [herror] at hround
    cases hround

/-- Rounds that led to the end of the loop are as many as rounds can be. -/
theorem Rounds.le_of_stops {n m : Nat} {a b c : Waterfall × σ} {r : Except Failure Completed × σ}
    (h : Rounds src l n a b) (hstop : Stops src l b r) (hm : Rounds src l m a c) : m ≤ n := by
  induction h generalizing m with
  | none a =>
    cases hm with
    | none => exact Nat.le_refl 0
    | more hadvance _ => exact absurd hadvance hstop.not_advance
  | more hadvance _ ih =>
    cases hm with
    | none => exact Nat.zero_le _
    | more hadvance' hm =>
      cases hadvance.unique hadvance'
      exact Nat.succ_le_succ (ih hstop hm)

/-- The loop comes to an end, with the result of the run. -/
theorem rounds_ends (src : Source σ) (l : Limits) (w : Waterfall) (s : σ) :
    ∃ n last, Rounds src l n (w, s) last ∧ Stops src l last (rounds src l w s) := by
  -- Along the rounds themselves, since no number that the loop keeps falls with each of them.
  induction w using (Follows.wellFounded σ l).induction generalizing s with
  | _ w ih =>
    by_cases hunseen : w.unseen = []
    · rw [rounds_of_unseen_nil src l s hunseen]
      exact ⟨0, (w, s), .none _, .seen hunseen⟩
    by_cases hroom : remaining l w = 0
    · rw [rounds_of_remaining_zero src s hunseen hroom]
      exact ⟨0, (w, s), .none _, .full hunseen hroom⟩
    rcases hround : round src l w s with ⟨e | v, t⟩
    · rw [rounds_of_round_error hunseen hroom hround]
      exact ⟨0, (w, s), .none _, .broken hunseen hroom hround⟩
    · have hadvance : Advance src l (w, s) (v, t) := ⟨hunseen, hroom, hround⟩
      obtain ⟨n, last, hrounds, hstop⟩ := ih v ⟨src, s, t, hadvance⟩ t
      rw [rounds_of_round hunseen hroom hround]
      exact ⟨n + 1, last, .more hadvance hrounds, hstop⟩

/-! ### How many rounds there are -/

/-- What is left to do, as one number, when no document has more than `most` unseen paths: a
    page that is put in outweighs all that it brings. -/
def weight (l : Limits) (most : Nat) (w : Waterfall) : Nat :=
  remaining l w * (most + 1) + w.unseen.length

theorem weight_lt_of_advance {most : Nat} {a b : Waterfall × σ} (h : Advance src l a b)
    (hb : b.1.unseen.length ≤ most) : weight l most b.1 < weight l most a.1 := by
  obtain ⟨hunseen, hroom, hround⟩ := h
  have hlex := round_progress (by simpa using hunseen) hroom hround
  unfold weight
  rcases Prod.lex_def.1 hlex with hless | ⟨hsame, hless⟩
  · -- a page was put in, and what it is worth covers all the paths that it may have brought
    have hpage : (remaining l b.1 + 1) * (most + 1) ≤ remaining l a.1 * (most + 1) :=
      Nat.mul_le_mul_right _ hless
    rw [Nat.add_mul, Nat.one_mul] at hpage
    omega
  · dsimp only at hsame hless
    rw [hsame]
    exact Nat.add_lt_add_left hless _

theorem Rounds.le_weight {most n : Nat} {a b : Waterfall × σ} (h : Rounds src l n a b)
    (hmost : ∀ m c, Rounds src l m a c → c.1.unseen.length ≤ most) :
    n + weight l most b.1 ≤ weight l most a.1 := by
  induction h with
  | none a => simp
  | more hadvance _ ih =>
    have hless := weight_lt_of_advance hadvance (hmost 1 _ (.more hadvance (.none _)))
    have hrest := ih fun m c hm => hmost (m + 1) c (.more hadvance hm)
    omega

/-- Every run ends, over every source and under all limits: finitely many rounds lead from the
    text to a document at which the loop stops with the result of the run, and there is no
    longer sequence of rounds.  If no scanned document has more than `most` unseen paths, the
    rounds are at most `most + 1` for each page that may be put in, and `most` more. -/
theorem finitely_many_rounds (src : Source σ) (l : Limits) (document : Text) (s : σ) :
    ∃ n last, Rounds src l n (start document, s) last ∧ Stops src l last (run src l document s) ∧
      (∀ m b, Rounds src l m (start document, s) b → m ≤ n) ∧
      ∀ most, (∀ m b, Rounds src l m (start document, s) b → b.1.unseen.length ≤ most) →
        n ≤ l.ceiling.toNat * (most + 1) + most := by
  obtain ⟨n, last, hrounds, hstop⟩ := rounds_ends src l (start document) s
  refine ⟨n, last, hrounds, hstop, ?_, ?_⟩
  · intro m b hm
    exact hrounds.le_of_stops hstop hm
  · intro most hmost
    have hbound := hrounds.le_weight hmost
    have hfirst : (start document).unseen.length ≤ most := hmost 0 _ (.none _)
    have hroom : remaining l (start document) = l.ceiling.toNat := by simp [remaining, start]
    simp only [weight, hroom] at hbound
    omega

end PageAssembly.Waterfall
