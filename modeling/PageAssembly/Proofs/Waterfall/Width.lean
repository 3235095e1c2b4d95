/-
  PageAssembly/Proofs/Waterfall/Width.lean
  ========================================
  **When the number of calls made at once does not matter.**

  The paths of a round are asked for in groups, and a group is cut to the number of pages
  that may still be put in.  The next group begins where the uncut one would have ended, so
  a cut group passes paths over.  If all its paths bring a page in, the ceiling is reached,
  and nothing would have been asked for after it anyway.  If one of them fails, there is
  room left, and it goes to a path further on: with another width it would have gone to the
  path passed over (`run_fourPlaceholders`).

  A run is `Thrifty` if every group that passes paths over uses the ceiling up.  Then its
  groups do what asking for one path after the other does (`groups_eq_askEach`), which knows
  nothing of widths; so any two thrifty runs under one ceiling have the same result
  (`run_same_of_thrifty`).  Runs that ask for one path at a time are thrifty, and so are
  those over a source that never fails (`thrifty_of_width_one`, `thrifty_of_fruitful`).
-/
import PageAssembly.Proofs.Waterfall.Ending

namespace PageAssembly.Waterfall

open Relation (ReflTransGen)

variable {σ : Type} {src : Source σ} {l l' : Limits} {w w' : Waterfall} {s s' : σ}
  {answers : Text → Except Failure Text} {work : Text → Text → Except Failure (Option Text)}

/-! ### Asking for one path after the other -/

/-- A source with fixed answers, and fixed work on what they bring. -/
structure Source.Fixed (src : Source σ) (answers : Text → Except Failure Text)
    (work : Text → Text → Except Failure (Option Text)) : Prop where
  fetch : ∀ p s, (src.fetch p s).1 = answers p
  process : ∀ p raw s, (src.process p raw s).1 = work p raw

section

variable (answers : Text → Except Failure Text) (work : Text → Text → Except Failure (Option Text))

/-- What is known of a document when one more path was asked for. -/
def ask (w : Waterfall) (p : Text) : Except Failure Waterfall :=
  let w := { w with requested := w.requested ++ [p] }
  match answers p with
  | .error (.remote e) => .ok (w.failed p (.remote e))
  | .error e => .error e
  | .ok raw =>
    match work p raw with
    | .error e => .ok (w.failed p e)
    | .ok none => .ok w
    | .ok (some content) => .ok (w.filled p content)

/-- Asks for paths one after the other, until the ceiling is reached. -/
def askEach (ceiling : Int) : Waterfall → List Text → Except Failure Waterfall
  | w, [] => .ok w
  | w, p :: ps =>
    if ceiling ≤ w.loaded then .ok w
    else ask answers work w p >>= fun w' => askEach ceiling w' ps

end

theorem loaded_of_ask {p : Text} (h : ask answers work w p = .ok w') :
    w'.loaded = w.loaded ∨ w'.loaded = w.loaded + 1 := by
  unfold ask at h
  split at h
  · cases h
    exact .inl rfl
  · cases h
  · split at h
    · cases h
      exact .inl rfl
    · cases h
      exact .inl rfl
    · cases h
      exact .inr rfl

theorem askEach_of_full {ceiling : Int} (h : ceiling ≤ w.loaded) (ps : List Text) :
    askEach answers work ceiling w ps = .ok w := by
  cases ps with
  | nil => rfl
  | cons p ps => exact if_pos h

/-- As long as the ceiling leaves room for all of them, paths are asked for without looking at
    it. -/
theorem askEach_append {ceiling : Int} (w : Waterfall) {front : List Text} (rest : List Text)
    (h : (front.length : Int) ≤ ceiling - w.loaded) :
    askEach answers work ceiling w (front ++ rest) =
      front.foldlM (ask answers work) w >>= fun w' => askEach answers work ceiling w' rest := by
  induction front generalizing w with
  | nil => rfl
  | cons p front ih =>
    rw [List.length_cons] at h
    rw [List.cons_append, askEach, if_neg (by omega), List.foldlM_cons]
    cases hask : ask answers work w p with
    | error e => rfl
    | ok v =>
      have hloaded := loaded_of_ask hask
      exact ih v (by omega)

/-! ### A group -/

theorem fetchAll_fixed (h : src.Fixed answers work) (ps : List Text) (s : σ) :
    (fetchAll src ps s).1 = ps.map fun p => (p, answers p) := by
  induction ps generalizing s with
  | nil => rfl
  | cons p ps ih => rw [fetchAll_cons, List.map_cons, h.fetch, ih]

/-- Work on one path, among others that were asked for with it. -/
theorem settle_fixed (h : src.Fixed answers work) (w : Waterfall) (p : Text) (ps : List Text)
    (s : σ) :
    (settle src { w with requested := w.requested ++ p :: ps } p (answers p) s).1 =
      (ask answers work w p).map fun w' => { w' with requested := w'.requested ++ ps } := by
  unfold settle ask
  rcases answers p with e | raw
  · cases e <;> simp [Except.map, failed]
  · have hwork := h.process p raw s
    rcases hp : src.process p raw s with ⟨e | _ | content, t⟩
    all_goals
      rw [hp] at hwork
      simp [hp, ← hwork, Except.map, failed, filled]

/-- The calls of a group are made first, but with fixed answers the group does what asking for
    its paths one after the other does. -/
theorem group_fixed (h : src.Fixed answers work) (w : Waterfall) (ps : List Text) (s : σ) :
    (group src w ps s).1 = ps.foldlM (ask answers work) w := by
  suffices hsettle : ∀ t, (settleAll src { w with requested := w.requested ++ ps }
      (ps.map fun p => (p, answers p)) t).1 = ps.foldlM (ask answers work) w by
    unfold group
    dsimp only
    rw [fetchAll_fixed h]
    exact hsettle _
  induction ps generalizing w with
  | nil =>
    intro t
    simp [settleAll, pure, Except.pure]
  | cons p ps ih =>
    intro t
    have hhead := settle_fixed h w p ps t
    rw [List.map_cons, settleAll, List.foldlM_cons]
    rcases hs : settle src { w with requested := w.requested ++ p :: ps } p (answers p) t with ⟨e | v, t'⟩
    all_goals
      rw [hs] at hhead
      cases hask : ask answers work w p
      all_goals
        rw [hask] at hhead
        cases hhead
    · rfl
    · exact ih _ t'

/-! ### A run, group by group -/

/-- The ceiling cuts the next group short, and paths are passed over. -/
def PassesOver (l : Limits) (w : Waterfall) (ps : List Text) : Prop :=
  remaining l w < l.width ∧ remaining l w < ps.length

/-- What a run does next, with the paths of the round that were not looked at so far: it scans
    the document, or asks for a group. -/
inductive Turn (src : Source σ) (l : Limits) :
    Waterfall × List Text × σ → Waterfall × List Text × σ → Prop
  | scan {w : Waterfall} {s : σ} : w.unseen ≠ [] → remaining l w ≠ 0 →
      Turn src l (w, [], s) (w, w.unseen, s)
  | group {w w' : Waterfall} {ps : List Text} {s s' : σ} : ps ≠ [] → remaining l w ≠ 0 →
      group src w (ps.take (min l.width (remaining l w))) s = (.ok w', s') →
      Turn src l (w, ps, s) (w', ps.drop l.width, s')

/-- From here on, each group that passes paths over uses the ceiling up. -/
def Thrifty (src : Source σ) (l : Limits) (a : Waterfall × List Text × σ) : Prop :=
  ∀ w ps s, ReflTransGen (Turn src l) a (w, ps, s) → PassesOver l w ps →
    ∀ w' s', group src w (ps.take (remaining l w)) s = (.ok w', s') → remaining l w' = 0

instance {ps : List Text} : Decidable (PassesOver l w ps) := inferInstanceAs (Decidable (_ ∧ _))

/-- When no path is passed over, the next group begins where this one ends. -/
theorem take_append_drop_of_not_passesOver {ps : List Text} (h : ¬ PassesOver l w ps) :
    ps.take (min l.width (remaining l w)) ++ ps.drop l.width = ps := by
  rcases Nat.lt_or_ge (remaining l w) l.width with hlt | hle
  · have hlength : ps.length ≤ remaining l w := Nat.le_of_not_lt fun hmore => h ⟨hlt, hmore⟩
    rw [List.take_of_length_le (by omega), List.drop_eq_nil_of_le (by omega), List.append_nil]
  · rw [Nat.min_eq_left hle, List.take_append_drop]

theorem Thrifty.turn {a b : Waterfall × List Text × σ} (h : Thrifty src l a) (hab : Turn src l a b) :
    Thrifty src l b :=
  fun w ps s hb => h w ps s (.head hab hb)

theorem groups_of_full {bound : Nat} (h : remaining l w = 0) (ps : List Text) (s : σ) :
    groups src l bound w ps s = (.ok w, s) := by
  cases bound <;> simp [groups, h]

/-- The groups of a thrifty round do what asking for its paths one after the other does. -/
theorem groups_eq_askEach (hsrc : src.Fixed answers work) {bound : Nat} {ps : List Text}
    (hbound : ps.length ≤ bound) (h : Thrifty src l (w, ps, s)) :
    (groups src l bound w ps s).1 = askEach answers work l.ceiling w ps := by
  induction bound generalizing w ps s with
  | zero =>
    rw [List.length_eq_zero_iff.1 (Nat.le_zero.1 hbound)]
    rfl
  | succ bound ih =>
    by_cases hroom : remaining l w = 0
    · rw [groups_of_full hroom, askEach_of_full (by simp only [remaining] at hroom; omega)]
    by_cases hps : ps = []
    · simp [hps, groups, askEach]
    have hspace : (remaining l w : Int) = l.ceiling - w.loaded := by
      simp only [remaining] at hroom ⊢
      omega
    have hgroup := group_fixed hsrc w (ps.take (min l.width (remaining l w))) s
    rw [groups, if_neg (by simp [hps, hroom])]
    by_cases hover : PassesOver l w ps
    · -- the group is as long as there is room, and leaves none
      rw [Nat.min_eq_right (Nat.le_of_lt hover.1)] at hgroup ⊢
      rw [← List.take_append_drop (remaining l w) ps, askEach_append _ _ (by simp; omega),
        List.take_append_drop, ← hgroup]
      rcases hg : group src w (ps.take (remaining l w)) s with ⟨e | v, t⟩
      · rfl
      · have hfull : remaining l v = 0 := h w ps s .refl hover v t hg
        dsimp only [bind, Except.bind]
        rw [groups_of_full hfull, askEach_of_full (by simp only [remaining] at hfull; omega)]
    · -- nothing is passed over, and the rest of the round is thrifty as well
      conv_rhs => rw [← take_append_drop_of_not_passesOver hover]
      rw [askEach_append _ _ (by simp; omega), ← hgroup]
      rcases hg : group src w (ps.take (min l.width (remaining l w))) s with ⟨e | v, t⟩
      · rfl
      · have hshort := length_drop_width l hps
        exact ih (by omega) (h.turn (.group hps hroom hg))

/-- What a run does after a thrifty round is thrifty. -/
theorem thrifty_of_groups {bound : Nat} {ps : List Text} (h : Thrifty src l (w, ps, s))
    (hbound : ps.length ≤ bound) (hgroups : groups src l bound w ps s = (.ok w', s')) :
    Thrifty src l (w', [], s') := by
  induction bound generalizing w ps s with
  | zero =>
    cases hgroups
    rwa [List.length_eq_zero_iff.1 (Nat.le_zero.1 hbound)] at h
  | succ bound ih =>
    by_cases hroom : remaining l w = 0
    · -- there is no room for another group, and so no turn either
      rw [groups_of_full hroom] at hgroups
      cases hgroups
      intro v qs t hreach
      rcases ReflTransGen.cases_head hreach with hv | ⟨b, hturn, -⟩
      · cases hv
        intro hover
        exact absurd hover.2 (Nat.not_lt_zero _)
      · cases hturn with
        | scan _ hpos => exact absurd hroom hpos
        | group hne => exact absurd rfl hne
    by_cases hps : ps = []
    · simp only [hps, groups, List.isEmpty_nil, true_or, if_true] at hgroups
      cases hgroups
      rwa [hps] at h
    rw [groups, if_neg (by simp [hps, hroom])] at hgroups
    rcases hg : group src w (ps.take (min l.width (remaining l w))) s with ⟨e | v, t⟩
    · rw [hg] at hgroups
      cases hgroups
    · rw [hg] at hgroups
      have hshort := length_drop_width l hps
      exact ih (h.turn (.group hps hroom hg)) (by omega) hgroups

/-- Whether a run of at most so many turns is thrifty. -/
def thriftyWithin (src : Source σ) (l : Limits) : Nat → Waterfall × List Text × σ → Bool
  | 0, _ => false
  | n + 1, (w, ps, s) =>
    if remaining l w = 0 then true
    else if ps = [] then w.unseen = [] || thriftyWithin src l n (w, w.unseen, s)
    else
      match group src w (ps.take (min l.width (remaining l w))) s with
      | (.error _, _) => true
      | (.ok w', s') =>
        (!PassesOver l w ps || remaining l w' = 0) && thriftyWithin src l n (w', ps.drop l.width, s')

theorem thrifty_of_thriftyWithin {n : Nat} {a : Waterfall × List Text × σ}
    (h : thriftyWithin src l n a = true) : Thrifty src l a := by
  induction n generalizing a with
  | zero => cases h
  | succ n ih =>
    obtain ⟨w, ps, s⟩ := a
    intro v qs t hreach
    rw [thriftyWithin] at h
    rcases ReflTransGen.cases_head hreach with hv | ⟨b, hturn, hrest⟩
    · cases hv
      intro hover w' s' hgroup
      split at h
      · next hfull =>
        rw [hfull] at hgroup
        cases hgroup
        exact hfull
      · split at h
        · next hps => simp [PassesOver, hps] at hover
        · rw [Nat.min_eq_right (Nat.le_of_lt hover.1), hgroup] at h
          simpa [hover] using (Bool.and_eq_true_iff.1 h).1
    · cases hturn with
      | scan hunseen hroom =>
        rw [if_neg hroom, if_pos rfl, Bool.or_eq_true] at h
        exact ih (h.resolve_left (by simpa using hunseen)) v qs t hrest
      | group hps hroom hgroup =>
        rw [if_neg hroom, if_neg hps, hgroup] at h
        exact ih (Bool.and_eq_true_iff.1 h).2 v qs t hrest

/-! ### Two runs -/

theorem rounds_same (hsrc : src.Fixed answers work) (hl : l.ceiling = l'.ceiling) {w : Waterfall}
    {s s' : σ} (h : Thrifty src l (w, [], s)) (h' : Thrifty src l' (w, [], s')) :
    (rounds src l w s).1 = (rounds src l' w s').1 := by
  have hremaining : ∀ v, remaining l v = remaining l' v := fun v => by simp only [remaining, hl]
  induction w using (Follows.wellFounded σ l).induction generalizing s s' with
  | _ w ih =>
    by_cases hunseen : w.unseen = []
    · rw [rounds_of_unseen_nil _ _ _ hunseen, rounds_of_unseen_nil _ _ _ hunseen]
    by_cases hroom : remaining l w = 0
    · rw [rounds_of_remaining_zero _ _ hunseen hroom,
        rounds_of_remaining_zero _ _ hunseen (hremaining w ▸ hroom)]
    have hroom' : remaining l' w ≠ 0 := hremaining w ▸ hroom
    have hscan := h.turn (.scan hunseen hroom)
    have hscan' := h'.turn (.scan hunseen hroom')
    -- both rounds come to the same, since both do what asking for one path after the other does
    have hround : (round src l w s).1 = (round src l' w s').1 := by
      unfold round
      rw [groups_eq_askEach hsrc (Nat.le_refl _) hscan, hl,
        ← groups_eq_askEach hsrc (Nat.le_refl _) hscan']
    rcases hr : round src l w s with ⟨e | v, t⟩
    all_goals
      rcases hr' : round src l' w s' with ⟨e' | v', t'⟩
      all_goals
        rw [hr, hr'] at hround
        cases hround
    · rw [rounds_of_round_error hunseen hroom hr, rounds_of_round_error hunseen hroom' hr']
    · rw [rounds_of_round hunseen hroom hr, rounds_of_round hunseen hroom' hr']
      exact ih v ⟨src, s, t, hunseen, hroom, hr⟩ (thrifty_of_groups hscan (Nat.le_refl _) hr)
        (thrifty_of_groups hscan' (Nat.le_refl _) hr')

/-- A run that asks for one path at a time is thrifty. -/
theorem thrifty_of_width_one (hl : l.width = 1) (a : Waterfall × List Text × σ) :
    Thrifty src l a := by
  intro w ps s _ hover w' s' hgroup
  have hroom : remaining l w = 0 := by
    have := hover.1
    omega
  rw [hroom] at hgroup
  cases hgroup
  exact hroom

theorem loaded_of_fruitful (h : ∀ p, ∃ raw content, answers p = .ok raw ∧ work p raw = .ok (some content))
    {ps : List Text} (hps : ps.foldlM (ask answers work) w = .ok w') :
    w'.loaded = w.loaded + ps.length := by
  induction ps generalizing w with
  | nil =>
    cases hps
    rfl
  | cons p ps ih =>
    obtain ⟨raw, content, hraw, hcontent⟩ := h p
    have hask : ask answers work w p =
        .ok ({ w with requested := w.requested ++ [p] }.filled p content) := by
      simp [ask, hraw, hcontent]
    rw [List.foldlM_cons, hask] at hps
    rw [ih hps, List.length_cons, filled]
    dsimp only
    omega

/-- A run over a source that brings a page in for every path is thrifty. -/
theorem thrifty_of_fruitful (hsrc : src.Fixed answers work)
    (h : ∀ p, ∃ raw content, answers p = .ok raw ∧ work p raw = .ok (some content))
    (a : Waterfall × List Text × σ) : Thrifty src l a := by
  intro w ps s _ hover w' s' hgroup
  have hfold := group_fixed hsrc w (ps.take (remaining l w)) s
  rw [hgroup] at hfold
  have hloaded := loaded_of_fruitful h hfold.symm
  have hlength := hover.2
  rw [List.length_take] at hloaded
  simp only [remaining] at hloaded hlength ⊢
  omega

/-- Two runs under one ceiling, over a source with fixed answers and fixed work, have the same
    result, whatever the widths of their groups: the same document, the same number of pages
    put in, the same failures in the same order, and the same word on the limit.  What it
    takes is that neither run passes a path over in a group that leaves room. -/
theorem run_same_of_thrifty (hsrc : src.Fixed answers work) (hl : l.ceiling = l'.ceiling)
    (document : Text) (s s' : σ) (h : Thrifty src l (start document, [], s))
    (h' : Thrifty src l' (start document, [], s')) :
    (run src l document s).1 = (run src l' document s').1 :=
  rounds_same hsrc hl h h'

/-! ### A page that fails when there is room for one more -/

def spareFailure : Failure := .remote ⟨"C1".toList, none, "no page at /a".toList⟩

def spareAnswers (path : Text) : Except Failure Text :=
  if path = "/a".toList then .error spareFailure else .ok (path.drop 1)

/-- There is no page at `/a`; every other page holds its own letter. -/
def spareSource : Source Unit where
  fetch path u := (spareAnswers path, u)
  process _ raw u := (.ok (some raw), u)

theorem fixed_spareSource : spareSource.Fixed spareAnswers fun _ raw => .ok (some raw) where
  fetch _ _ := rfl
  process _ _ _ := rfl

/-- The placeholders for `/a` and `/d`, with two texts between them. -/
def spareText (second third : Text) : Text :=
  placeholderFor "/a".toList ++ second ++ third ++ placeholderFor "/d".toList

def fourPlaceholders : Text := spareText (placeholderFor "/b".toList) (placeholderFor "/c".toList)

def oneAtOnce (ceiling : Int) : Limits := ⟨ceiling, 1, Nat.one_pos⟩

def twoAtOnce (ceiling : Int) : Limits := ⟨ceiling, 2, Nat.zero_lt_two⟩

/-- With room for two pages the failure costs nothing: the group that passes `/d` over brings
    `/c` in, and the ceiling is reached. -/
theorem run_same_of_thrifty_spare :
    (run spareSource (twoAtOnce 2) fourPlaceholders ()).1 =
      (run spareSource (oneAtOnce 2) fourPlaceholders ()).1 := by
  have htwo : thriftyWithin spareSource (twoAtOnce 2) 4 (start fourPlaceholders, [], ()) = true := by
    decide +kernel
  have hceiling : (twoAtOnce 2).ceiling = (oneAtOnce 2).ceiling := rfl
  exact run_same_of_thrifty fixed_spareSource hceiling fourPlaceholders () ()
    (thrifty_of_thriftyWithin htwo) (thrifty_of_width_one rfl _)

deriving instance DecidableEq for Waterfall

theorem round_twoAtOnce :
    round spareSource (twoAtOnce 1) (start fourPlaceholders) () =
      (.ok ⟨spareText (placeholderFor "/b".toList) "c".toList, 1, ["/a".toList, "/c".toList],
        [("/a".toList, spareFailure)]⟩, ()) := by
  decide +kernel

theorem round_oneAtOnce :
    round spareSource (oneAtOnce 1) (start fourPlaceholders) () =
      (.ok ⟨spareText "b".toList (placeholderFor "/c".toList), 1, ["/a".toList, "/b".toList],
        [("/a".toList, spareFailure)]⟩, ()) := by
  decide +kernel

/-- With room for one page, two calls at a time bring in the page at `/c`, and one call at a
    time the page at `/b`. -/
theorem run_fourPlaceholders :
    (run spareSource (twoAtOnce 1) fourPlaceholders ()).1 =
        .ok ⟨spareText (placeholderFor "/b".toList) "c".toList, 1, [("/a".toList, spareFailure)],
          true⟩ ∧
      (run spareSource (oneAtOnce 1) fourPlaceholders ()).1 =
        .ok ⟨spareText "b".toList (placeholderFor "/c".toList), 1, [("/a".toList, spareFailure)],
          true⟩ := by
  constructor
  · rw [run, rounds_of_round (by decide +kernel) (by decide) round_twoAtOnce,
      rounds_of_remaining_zero _ _ (by decide +kernel) (by decide)]
    rfl
  · rw [run, rounds_of_round (by decide +kernel) (by decide) round_oneAtOnce,
      rounds_of_remaining_zero _ _ (by decide +kernel) (by decide)]
    rfl

end PageAssembly.Waterfall
