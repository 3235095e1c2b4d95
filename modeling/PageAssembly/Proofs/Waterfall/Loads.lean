/-
  PageAssembly/Proofs/Waterfall/Loads.lean
  ========================================
  **A completed document is its first text with the loaded pages put in.**

  A source is logged: the logged source does what the source does, and writes down
  each page that its work gives, under the path that it was asked for.  A run over the logged
  source does the same as one over the source, and its document is the one it started with, with
  the pages of the log put in, in order (`run_logged`).
-/
import PageAssembly.Proofs.Waterfall.Accounting
import PageAssembly.Proofs.Waterfall.Passing

namespace PageAssembly.Waterfall

variable {σ : Type}

/-- The pages that work on what came for a path has given: at most one. -/
def given (path : Text) : Except Failure (Option Text) → List (Text × Text)
  | .ok (some content) => [(path, content)]
  | _ => []

/-- The source, with the pages that its work gives written down in order. -/
def Source.logged (src : Source σ) : Source (σ × List (Text × Text)) where
  fetch path s := ((src.fetch path s.1).1, (src.fetch path s.1).2, s.2)
  process path raw s :=
    ((src.process path raw s.1).1, (src.process path raw s.1).2, s.2 ++ given path (src.process path raw s.1).1)

/-- The logged work does what the work does, and what it has put into the document is what it
    has added to the log. -/
def Logs (w : Waterfall) (log : List (Text × Text)) (work : Except Failure Waterfall × σ)
    (logged : Except Failure Waterfall × σ × List (Text × Text)) : Prop :=
  ∃ more, logged = (work.1, work.2, log ++ more) ∧
    ∀ w', work.1 = .ok w' → w'.document = fillAll more w.document

section

variable {src : Source σ} {l : Limits} {w w' : Waterfall} {log : List (Text × Text)} {s s' : σ}
  {logged : Except Failure Waterfall × σ × List (Text × Text)}

theorem Logs.nothing (hdocument : w'.document = w.document) (s : σ) : Logs w log (.ok w', s) (.ok w', s, log) :=
  ⟨[], by rw [List.append_nil], fun v hv => by cases hv; exact hdocument⟩

theorem Logs.error (e : Failure) (s : σ) (more : List (Text × Text)) :
    Logs w log (.error e, s) (.error e, s, log ++ more) :=
  ⟨more, rfl, nofun⟩

/-- Work after work. -/
theorem Logs.trans {more : List (Text × Text)} {work : Except Failure Waterfall × σ}
    (hdocument : w'.document = fillAll more w.document) (h : Logs w' (log ++ more) work logged) :
    Logs w log work logged := by
  obtain ⟨later, rfl, hlater⟩ := h
  refine ⟨more ++ later, by rw [List.append_assoc], fun v hv => ?_⟩
  rw [hlater v hv, hdocument]
  exact List.foldl_append.symm

/-! ### From a page to a run -/

theorem fetchAll_logged (src : Source σ) (ps : List Text) (s : σ) (log : List (Text × Text)) :
    fetchAll src.logged ps (s, log) = ((fetchAll src ps s).1, (fetchAll src ps s).2, log) := by
  induction ps generalizing s with
  | nil => rfl
  | cons p ps ih =>
    have htail := ih (src.fetch p s).2
    rw [fetchAll_cons, fetchAll_cons]
    simp only [Source.logged] at htail ⊢
    rw [htail]

theorem settle_logged (src : Source σ) (w : Waterfall) (p : Text) (found : Except Failure Text) (s : σ)
    (log : List (Text × Text)) :
    Logs w log (settle src w p found s) (settle src.logged w p found (s, log)) := by
  unfold settle
  cases found with
  | error e =>
    cases e with
    | remote e => exact .nothing rfl s
    | _ => exact ⟨[], by rw [List.append_nil], nofun⟩
  | ok raw =>
    simp only [Source.logged]
    rcases src.process p raw s with ⟨e | _ | content, s'⟩
    · exact ⟨[], rfl, fun v hv => by cases hv; rfl⟩
    · exact ⟨[], rfl, fun v hv => by cases hv; rfl⟩
    · exact ⟨[(p, content)], rfl, fun v hv => by cases hv; rfl⟩

theorem settleAll_logged (src : Source σ) (w : Waterfall) (fs : List (Text × Except Failure Text)) (s : σ)
    (log : List (Text × Text)) :
    Logs w log (settleAll src w fs s) (settleAll src.logged w fs (s, log)) := by
  induction fs generalizing w s log with
  | nil => exact .nothing rfl s
  | cons f fs ih =>
    obtain ⟨more, hlogged, hdocument⟩ := settle_logged src w f.1 f.2 s log
    simp only [settleAll, hlogged]
    rcases hstep : settle src w f.1 f.2 s with ⟨e | w', s'⟩
    · exact .error e s' more
    · rw [hstep] at hdocument
      exact .trans (hdocument w' rfl) (ih w' s' (log ++ more))

theorem group_logged (src : Source σ) (w : Waterfall) (ps : List Text) (s : σ) (log : List (Text × Text)) :
    Logs w log (group src w ps s) (group src.logged w ps (s, log)) := by
  simp only [group, fetchAll_logged]
  exact settleAll_logged src { w with requested := w.requested ++ ps } _ _ log

theorem groups_logged (src : Source σ) (l : Limits) (bound : Nat) (w : Waterfall) (ps : List Text) (s : σ)
    (log : List (Text × Text)) :
    Logs w log (groups src l bound w ps s) (groups src.logged l bound w ps (s, log)) := by
  induction bound generalizing w ps s log with
  | zero => exact .nothing rfl s
  | succ bound ih =>
    simp only [groups]
    split
    · exact .nothing rfl s
    · obtain ⟨more, hlogged, hdocument⟩ := group_logged src w (ps.take (min l.width (remaining l w))) s log
      rw [hlogged]
      rcases hstep : group src w (ps.take (min l.width (remaining l w))) s with ⟨e | w', s'⟩
      · exact .error e s' more
      · rw [hstep] at hdocument
        exact .trans (hdocument w' rfl) (ih w' (ps.drop l.width) s' (log ++ more))

theorem rounds_logged (src : Source σ) (l : Limits) (w : Waterfall) (s : σ) (log : List (Text × Text)) :
    ∃ more, rounds src.logged l w (s, log) = ((rounds src l w s).1, (rounds src l w s).2, log ++ more) ∧
      ∀ c, (rounds src l w s).1 = .ok c → c.content = fillAll more w.document := by
  fun_induction rounds src l w s generalizing log with
  | case1 w s hu =>
    refine ⟨[], ?_, fun c hc => by cases hc; rfl⟩
    rw [rounds_of_unseen_nil _ _ _ (by simpa using hu), List.append_nil]
  | case2 w s hu hr =>
    refine ⟨[], ?_, fun c hc => by cases hc; rfl⟩
    rw [rounds_of_remaining_zero _ _ (by simpa using hu) hr, List.append_nil]
  | case3 w s hu hr e s' hround =>
    obtain ⟨more, hlogged, -⟩ := groups_logged src l w.unseen.length w w.unseen s log
    change round src.logged l w (s, log) = ((round src l w s).1, (round src l w s).2, _) at hlogged
    rw [hround] at hlogged
    exact ⟨more, rounds_of_round_error (by simpa using hu) hr hlogged, fun c hc => by cases hc⟩
  | case4 w s hu hr w' s' hround ih =>
    obtain ⟨more, hlogged, hdocument⟩ := groups_logged src l w.unseen.length w w.unseen s log
    change round src.logged l w (s, log) = ((round src l w s).1, (round src l w s).2, _) at hlogged
    change ∀ v, (round src l w s).1 = .ok v → _ at hdocument
    rw [hround] at hlogged hdocument
    obtain ⟨later, hlater, hcontent⟩ := ih (log ++ more)
    refine ⟨more ++ later, ?_, fun c hc => ?_⟩
    · rw [rounds_of_round (by simpa using hu) hr hlogged, hlater, List.append_assoc]
    · rw [hcontent c hc, hdocument w' rfl]
      exact List.foldl_append.symm

/-! ### Runs over a plain source -/

theorem group_ok (h : src.Plain) (w : Waterfall) (ps : List Text) (s : σ) :
    ∃ w' s', group src w ps s = (.ok w', s') := by
  obtain ⟨-, hremote⟩ := fetchAll_plain h ps s
  obtain ⟨w', s', hsteps, -⟩ :=
    settleAll_balance h { w with requested := w.requested ++ ps } hremote (fetchAll src ps s).2
  exact ⟨w', s', hsteps⟩

theorem groups_ok (h : src.Plain) (l : Limits) (bound : Nat) (w : Waterfall) (ps : List Text) (s : σ) :
    ∃ w' s', groups src l bound w ps s = (.ok w', s') := by
  induction bound generalizing w ps s with
  | zero => exact ⟨w, s, rfl⟩
  | succ bound ih =>
    simp only [groups]
    split
    · exact ⟨w, s, rfl⟩
    · obtain ⟨v, t, hgroup⟩ := group_ok h w (ps.take (min l.width (remaining l w))) s
      rw [hgroup]
      exact ih v (ps.drop l.width) t

theorem rounds_ok (h : src.Plain) (l : Limits) (w : Waterfall) (s : σ) :
    ∃ c s', rounds src l w s = (.ok c, s') := by
  fun_induction rounds src l w s with
  | case1 w s hu => exact ⟨_, s, rfl⟩
  | case2 w s hu hr => exact ⟨_, s, rfl⟩
  | case3 w s hu hr e s' hround =>
    obtain ⟨w', t, hok⟩ := groups_ok h l w.unseen.length w w.unseen s
    change round src l w s = (.ok w', t) at hok
    rw [hround] at hok
    cases hok
  | case4 w s hu hr w' s' hround ih => exact ih

/-- The pages that a run puts into a document, in order, each with its path. -/
def loads (src : Source σ) (l : Limits) (document : Text) (s : σ) : List (Text × Text) :=
  (run src.logged l document (s, [])).2.2

/-- Logging changes nothing of what a run does, and a completed document is the document with the
    loaded pages put in. -/
theorem run_logged (src : Source σ) (l : Limits) (document : Text) (s : σ) :
    run src.logged l document (s, []) = ((run src l document s).1, (run src l document s).2, loads src l document s) ∧
      ∀ c, (run src l document s).1 = .ok c → c.content = fillAll (loads src l document s) document := by
  obtain ⟨more, hlogged, hcontent⟩ := rounds_logged src l (start document) s []
  have hlog : loads src l document s = more := congrArg (fun r => r.2.2) hlogged
  rw [hlog]
  exact ⟨hlogged, hcontent⟩

/-- A run that ends after one round puts in what the round puts in. -/
theorem loads_of_round {document : Text} (hu : (start document).unseen ≠ []) (hr : remaining l (start document) ≠ 0)
    (h : round src.logged l (start document) (s, []) = (.ok w, s', log)) (hlast : w.unseen = []) :
    loads src l document s = log := by
  rw [loads, run, rounds_of_round hu hr h, rounds_of_unseen_nil _ _ _ hlast]

/-- A run over a plain source completes its document, with the loaded pages put in. -/
theorem run_plain (h : src.Plain) (l : Limits) (document : Text) (s : σ) :
    ∃ c s', run src l document s = (.ok c, s') ∧ c.content = fillAll (loads src l document s) document := by
  obtain ⟨c, s', hrun⟩ := rounds_ok h l (start document) s
  obtain ⟨-, hcontent⟩ := run_logged src l document s
  exact ⟨c, s', hrun, hcontent c (congrArg Prod.fst hrun)⟩

end

end PageAssembly.Waterfall
