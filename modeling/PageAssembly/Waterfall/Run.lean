/-
  PageAssembly/Waterfall/Run.lean
  ===============================
  **Loading what a document's placeholders ask for, round by round.**

  A round takes the paths of the document's placeholders that were not asked for yet,
  in groups: the calls of a group are made first, then each page that came is worked
  on and put in the place of its placeholders, which may bring new placeholders.  No
  path is asked for twice.  Loading ends when no new path is left, or when as many
  pages were put in as the ceiling allows; a group is cut to what the ceiling leaves,
  and the paths passed over come up again in the next round.

  A failed call or a page that could not be worked on costs one path.  Any other
  failure of a call ends the work.

  Every round brings a page in or, with the document unchanged, uses up a path; that
  is why the rounds end (`round_progress`).
-/
import PageAssembly.Exchange.Host
import PageAssembly.Waterfall.Placeholder

namespace PageAssembly

/-- How pages are asked for and worked on, in a state of the caller's. -/
structure Waterfall.Source (σ : Type) where
  fetch : Text → σ → Except Failure Text × σ
  process : Text → Text → σ → Except Failure (Option Text) × σ

/-- How many pages may be put in, and how many calls make a group. -/
structure Waterfall.Limits where
  ceiling : Int
  width : Nat
  width_pos : 0 < width

/-- A document being completed: how many pages were put in, the paths asked for, and
    the paths that failed. -/
structure Waterfall where
  document : Text
  loaded : Nat
  requested : List Text
  failures : List (Text × Failure)

namespace Waterfall

variable {σ : Type}

def start (document : Text) : Waterfall := ⟨document, 0, [], []⟩

/-- The paths of the document's placeholders that were not asked for, each once. -/
def unseen (w : Waterfall) : List Text :=
  (paths w.document).eraseDups.filter fun p => !w.requested.contains p

/-- How many pages may still be put in. -/
def remaining (l : Limits) (w : Waterfall) : Nat := (l.ceiling - w.loaded).toNat

/-- The document with a page put in. -/
def filled (w : Waterfall) (path content : Text) : Waterfall :=
  { w with document := fill path content w.document, loaded := w.loaded + 1 }

/-- The document with a path marked as failed. -/
def failed (w : Waterfall) (path : Text) (e : Failure) : Waterfall :=
  { w with failures := w.failures ++ [(path, e)] }

/-! ### A group -/

def fetchAll (src : Source σ) : List Text → σ → List (Text × Except Failure Text) × σ
  | [], s => ([], s)
  | p :: ps, s =>
    let (found, s) := src.fetch p s
    let (rest, s) := fetchAll src ps s
    ((p, found) :: rest, s)

/-- Works on what a call returned. -/
def settle (src : Source σ) (w : Waterfall) (path : Text) (found : Except Failure Text) (s : σ) :
    Except Failure Waterfall × σ :=
  match found with
  | .error (.remote e) => (.ok (w.failed path (.remote e)), s)
  | .error e => (.error e, s)
  | .ok raw =>
    match src.process path raw s with
    | (.error e, s) => (.ok (w.failed path e), s)
    | (.ok none, s) => (.ok w, s)
    | (.ok (some content), s) => (.ok (w.filled path content), s)

/-- Works on what the calls of a group returned. -/
def settleAll (src : Source σ) : Waterfall → List (Text × Except Failure Text) → σ →
    Except Failure Waterfall × σ
  | w, [], s => (.ok w, s)
  | w, f :: fs, s =>
    match settle src w f.1 f.2 s with
    | (.error e, s) => (.error e, s)
    | (.ok w, s) => settleAll src w fs s

/-- Asks for the paths of a group and works on what comes. -/
def group (src : Source σ) (w : Waterfall) (ps : List Text) (s : σ) : Except Failure Waterfall × σ :=
  let (found, s) := fetchAll src ps s
  settleAll src { w with requested := w.requested ++ ps } found s

/-! ### A round -/

/-- Asks for paths group by group, at most `bound` groups. -/
def groups (src : Source σ) (l : Limits) : Nat → Waterfall → List Text → σ →
    Except Failure Waterfall × σ
  | 0, w, _, s => (.ok w, s)
  | bound + 1, w, ps, s =>
    if ps.isEmpty ∨ remaining l w = 0 then (.ok w, s)
    else
      match group src w (ps.take (min l.width (remaining l w))) s with
      | (.error e, s) => (.error e, s)
      | (.ok w, s) => groups src l bound w (ps.drop l.width) s

def round (src : Source σ) (l : Limits) (w : Waterfall) (s : σ) : Except Failure Waterfall × σ :=
  groups src l w.unseen.length w w.unseen s

/-! ### Why the rounds end -/

/-- What work on some paths may do to a document: it stays as it is unless pages were
    put in, and no path asked for is forgotten. -/
structure Grows (w w' : Waterfall) : Prop where
  loaded : w.loaded ≤ w'.loaded
  document : w'.loaded = w.loaded → w'.document = w.document
  requested : w.requested ⊆ w'.requested

theorem Grows.refl (w : Waterfall) : Grows w w :=
  ⟨Nat.le_refl _, fun _ => rfl, fun _ h => h⟩

theorem Grows.trans {u v w : Waterfall} (h : Grows u v) (k : Grows v w) : Grows u w where
  loaded := Nat.le_trans h.loaded k.loaded
  document hw := by
    have hk : w.loaded = v.loaded := by have := h.loaded; have := k.loaded; omega
    have hv : v.loaded = u.loaded := by omega
    rw [k.document hk, h.document hv]
  requested _ hp := k.requested (h.requested hp)

theorem grows_of_settle {src : Source σ} {w w' : Waterfall} {p : Text} {f : Except Failure Text}
    {s s' : σ} (h : settle src w p f s = (.ok w', s')) : Grows w w' := by
  unfold settle at h
  split at h
  · cases h
    exact ⟨Nat.le_refl _, fun _ => rfl, fun _ h => h⟩
  · cases h
  · split at h
    · cases h
      exact ⟨Nat.le_refl _, fun _ => rfl, fun _ h => h⟩
    · cases h
      exact Grows.refl _
    · cases h
      exact ⟨Nat.le_succ _, fun h => absurd h (Nat.succ_ne_self _), fun _ h => h⟩

theorem grows_of_settleAll {src : Source σ} {w w' : Waterfall}
    {fs : List (Text × Except Failure Text)} {s s' : σ}
    (h : settleAll src w fs s = (.ok w', s')) : Grows w w' := by
  induction fs generalizing w s with
  | nil =>
    cases h
    exact Grows.refl _
  | cons f fs ih =>
    simp only [settleAll] at h
    split at h
    · cases h
    · next hs => exact (grows_of_settle hs).trans (ih h)

theorem grows_of_group {src : Source σ} {w w' : Waterfall} {ps : List Text} {s s' : σ}
    (h : group src w ps s = (.ok w', s')) : Grows w w' ∧ ps ⊆ w'.requested := by
  have hg := grows_of_settleAll h
  refine ⟨⟨hg.loaded, hg.document, fun p hp => hg.requested (List.mem_append_left _ hp)⟩, ?_⟩
  exact fun p hp => hg.requested (List.mem_append_right _ hp)

theorem grows_of_groups {src : Source σ} {l : Limits} {bound : Nat} {w w' : Waterfall}
    {ps : List Text} {s s' : σ} (h : groups src l bound w ps s = (.ok w', s')) : Grows w w' := by
  induction bound generalizing w ps s with
  | zero =>
    cases h
    exact Grows.refl _
  | succ bound ih =>
    simp only [groups] at h
    split at h
    · cases h
      exact Grows.refl _
    · split at h
      · cases h
      · next hg => exact (grows_of_group hg).1.trans (ih h)

/-- The first path of a round is asked for. -/
theorem head_mem_requested {src : Source σ} {l : Limits} {bound : Nat} {w w' : Waterfall}
    {p : Text} {ps : List Text} {s s' : σ} (hr : 0 < remaining l w)
    (h : groups src l (bound + 1) w (p :: ps) s = (.ok w', s')) : p ∈ w'.requested := by
  simp only [groups, List.isEmpty_cons, Bool.false_eq_true, false_or] at h
  rw [if_neg (by omega)] at h
  split at h
  · cases h
  · next hg =>
    have hp : p ∈ (p :: ps).take (min l.width (remaining l w)) := by
      have hw := l.width_pos
      obtain ⟨k, hk⟩ : ∃ k, min l.width (remaining l w) = k + 1 :=
        ⟨min l.width (remaining l w) - 1, by omega⟩
      simp [hk]
    exact (grows_of_groups h).requested ((grows_of_group hg).2 hp)

/-- What is filtered more strictly is shorter, if it misses something. -/
theorem length_filter_lt {p q : Text → Bool} {xs : List Text} {x : Text}
    (hpq : ∀ y, p y = true → q y = true) (hx : x ∈ xs) (hq : q x = true) (hp : p x = false) :
    (xs.filter p).length < (xs.filter q).length := by
  have hpf : xs.filter p = (xs.filter q).filter p := by
    rw [List.filter_filter]
    congr 1
    funext y
    cases hy : p y with
    | false => rfl
    | true => simp [hpq y hy]
  rw [hpf, List.length_filter_lt_length_iff_exists]
  exact ⟨x, by simp [hx, hq], by simp [hp]⟩

/-- A round that puts no page in leaves fewer paths unseen. -/
theorem round_progress {src : Source σ} {l : Limits} {w w' : Waterfall} {s s' : σ}
    (hu : w.unseen.isEmpty = false) (hr : remaining l w ≠ 0) (h : round src l w s = (.ok w', s')) :
    Prod.Lex (· < ·) (· < ·) (remaining l w', w'.unseen.length)
      (remaining l w, w.unseen.length) := by
  have hg : Grows w w' := grows_of_groups h
  have hl := hg.loaded
  by_cases hw : w'.loaded = w.loaded
  · have heq : remaining l w' = remaining l w := by simp [remaining, hw]
    rw [heq]
    refine Prod.Lex.right _ ?_
    cases hp : w.unseen with
    | nil => simp [hp] at hu
    | cons p ps =>
      simp only [round, hp, List.length_cons] at h
      have hmem := head_mem_requested (Nat.pos_of_ne_zero hr) h
      have hin : p ∈ w.unseen := by simp [hp]
      rw [← hp]
      unfold unseen at hin ⊢
      rw [hg.document hw]
      rw [List.mem_filter] at hin
      refine length_filter_lt (x := p) ?_ hin.1 hin.2 (by simp [hmem])
      intro y hy
      simp only [Bool.not_eq_true', List.contains_eq_mem, decide_eq_false_iff_not] at hy ⊢
      exact fun hr => hy (hg.requested hr)
  · refine Prod.Lex.left _ _ ?_
    simp only [remaining] at hr ⊢
    omega

/-! ### The whole run -/

/-- A document that is completed, or for which the ceiling was reached. -/
structure Completed where
  content : Text
  loaded : Nat
  failures : List (Text × Failure)
  limitReached : Bool

/-- What has become of the document. -/
def completed (w : Waterfall) (limitReached : Bool) : Completed :=
  ⟨w.document, w.loaded, w.failures, limitReached⟩

/-- Loads rounds until no unseen path is left or the ceiling is reached. -/
def rounds (src : Source σ) (l : Limits) (w : Waterfall) (s : σ) : Except Failure Completed × σ :=
  if _hu : w.unseen.isEmpty = true then (.ok (w.completed false), s)
  else if _hr : remaining l w = 0 then (.ok (w.completed true), s)
  else
    match _h : round src l w s with
    | (.error e, s) => (.error e, s)
    | (.ok w', s') => rounds src l w' s'
termination_by (remaining l w, w.unseen.length)
decreasing_by exact round_progress (by simpa using _hu) _hr _h

/-- Loads all that a document's placeholders ask for. -/
def run (src : Source σ) (l : Limits) (document : Text) : StateM σ (Except Failure Completed) :=
  rounds src l (start document)

/-! ### Pages of one contract -/

/-- The call for the page at a path. -/
def pageCall (contract : Text) (viewer : Option Text) (path : Text) : Call :=
  ⟨contract, none, .plain (some path) viewer⟩

/-- Asks a host for the page at a path. -/
def askFor (host : Host σ) (contract : Text) (viewer : Option Text) (path : Text) :
    StateM (Exchange σ) (Except Failure Text) := do
  let call := pageCall contract viewer path
  pure (Host.content call (← host.ask call))

end Waterfall
end PageAssembly
