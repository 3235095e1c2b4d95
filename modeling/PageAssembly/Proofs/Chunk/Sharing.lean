/-
  PageAssembly/Proofs/Chunk/Sharing.lean
  ======================================
  **Renders that share a loader.**

  Renders that share a loader take turns wherever one of them waits.  A session is the
  shared state with the course of every render: the handler it found, and the chunk
  directives whose load has not ended.  A step is a move of one render, or work of the
  loader and the host that concerns no handler; it says nothing of when either happens.
  So the runs of a session are the interleavings of renders, in any order, with loads that
  end in any way (`Step`, `Run`).

  A render on its own is such a run (`render_trail`).  Whatever the loader does between
  the ends of two loads keeps the handler and the failures (`Keeps`), so a render tells of
  its directives one after the other, in the order in which they end (`Told`).
-/
import PageAssembly.Proofs.Chunk.Delivering
import Mathlib.Logic.Function.Basic

namespace PageAssembly.Overlap

open Delivery (State Setting Turn Work notify)

variable {ω : Type}

/-! ### Sessions -/

/-- How the load of a chunk directive ended: with what the load gave, or passed over. -/
abbrev Ending := Option (Except Failure Text)

/-- What a failed call is told of; other endings are told to nobody. -/
def failure? (tag : Located Chunk) : Ending → Option (Failure × Located Chunk)
  | some (.error (.remote e)) => some (.remote e, tag)
  | _ => none

/-- The state after the load of a directive has ended. -/
def tell (tag : Located Chunk) (ending : Ending) (s : State ω) : State ω :=
  match failure? tag ending with
  | some (e, tag) => (notify e tag s).2
  | none => s

/-- The errors that a render has recorded. -/
def errorsOf (n : Nat) (s : State ω) : List Failure := (s.reports.recorded.filter fun r => r.1 = n).map Prod.snd

/-- Between two states nobody was told of a failure, and no render started or ended. -/
structure Keeps (s t : State ω) : Prop where
  handler : t.handler = s.handler
  renders : t.renders = s.renders
  failures : t.reports.failures = s.reports.failures
  recorded : t.reports.recorded = s.reports.recorded

/-- The chunk directives that directives are expanded to, each of them in some state of the host. -/
inductive Expansion (env : Setting ω) : List (Located Progressive) → List (Located Chunk) → Prop where
  | nil : Expansion env [] []
  | cons {d ds here rest} {s : State ω} (hone : ((Delivery.expandOne env d).run s).1 = .ok here)
      (hrest : Expansion env ds rest) : Expansion env (d :: ds) (here ++ rest)

/-- A render that was started. -/
structure Course where
  page : Text
  /-- The handler that it found. -/
  found : Handler
  /-- Its chunk directives whose load has not ended, once its directives are expanded. -/
  owed : Option (List (Located Chunk))
  closed : Bool

/-- A loader, and the renders that share it, by their numbers. -/
structure Session (ω : Type) where
  state : State ω
  course : Nat → Option Course

/-- A session whose renders are yet to come. -/
def Session.idle (s : State ω) : Session ω := ⟨s, fun _ => none⟩

/-- The session with another course of one render. -/
def Session.put (x : Session ω) (s : State ω) (n : Nat) (c : Course) : Session ω :=
  ⟨s, Function.update x.course n (some c)⟩

@[simp] theorem Session.put_course_self (x : Session ω) (s : State ω) (n : Nat) (c : Course) :
    (x.put s n c).course n = some c := Function.update_self ..

theorem Session.put_course_of_ne (x : Session ω) (s : State ω) {m n : Nat} (c : Course) (h : m ≠ n) :
    (x.put s n c).course m = x.course m := Function.update_of_ne h ..

@[simp] theorem Session.put_put (x : Session ω) (s t : State ω) (n : Nat) (c d : Course) :
    (x.put s n c).put t n d = x.put t n d := congrArg (Session.mk t) (Function.update_idem ..)

inductive Event where
  | start (n : Nat) (page : Text)
  | expand (n : Nat) (tags : List (Located Chunk))
  | work
  | ended (n : Nat) (tag : Located Chunk) (ending : Ending)
  | finish (n : Nat) (errors : List Failure)
  | breakOff (n : Nat)

/-- The moves of a session.  The loads of a render that broke off may end later. -/
inductive Step (env : Setting ω) : Session ω → Event → Session ω → Prop where
  | start {x page} (h : (Conversion.ofText page).progressive ≠ []) :
      Step env x (.start x.state.renders page)
        (x.put (Rendering.install x.state).2 x.state.renders ⟨page, x.state.handler, none, false⟩)
  | expand {x n c tags} (h : x.course n = some c) (hopen : c.closed = false) (howed : c.owed = none)
      (htags : Expansion env (Conversion.ofText c.page).progressive tags) :
      Step env x (.expand n tags) (x.put x.state n { c with owed := some tags })
  | work {x s} (h : Keeps x.state s) : Step env x .work ⟨s, x.course⟩
  | ended {x n c tag after} (before : List (Located Chunk)) (ending : Ending) (h : x.course n = some c)
      (howed : c.owed = some (before ++ tag :: after)) :
      Step env x (.ended n tag ending)
        (x.put (tell tag ending x.state) n { c with owed := some (before ++ after) })
  | finish {x n c} (h : x.course n = some c) (hopen : c.closed = false) (howed : c.owed = some []) :
      Step env x (.finish n (errorsOf n x.state))
        (x.put (Rendering.restore c.found x.state).2 n { c with closed := true })
  | breakOff {x n c} (h : x.course n = some c) (hopen : c.closed = false) :
      Step env x (.breakOff n) (x.put (Rendering.restore c.found x.state).2 n { c with closed := true })

/-- From one session to another by a trail of moves. -/
inductive Run (env : Setting ω) (x : Session ω) : List Event → Session ω → Prop where
  | nil : Run env x [] x
  | snoc {es e y z} (hrun : Run env x es y) (hstep : Step env y e z) : Run env x (es ++ [e]) z

section

variable {s t u : State ω}

/-! ### Being told of a failure -/

theorem tell_handler (tag : Located Chunk) (ending : Ending) (s : State ω) :
    (tell tag ending s).handler = s.handler := by
  unfold tell
  split <;> rfl

theorem tell_renders (tag : Located Chunk) (ending : Ending) (s : State ω) :
    (tell tag ending s).renders = s.renders := by
  unfold tell
  split <;> rfl

theorem tell_recorded (tag : Located Chunk) (ending : Ending) (s : State ω) :
    (tell tag ending s).reports.recorded = s.reports.recorded ++
      (failure? tag ending).toList.flatMap fun f => s.handler.recorders.map fun m => (m, f.1) := by
  unfold tell
  split
  · next h =>
    rw [h, Option.toList_some, List.flatMap_singleton]
    rfl
  · next h => rw [h]; exact (List.append_nil _).symm

/-! ### One load after the other -/

@[refl] theorem Keeps.refl (s : State ω) : Keeps s s := ⟨rfl, rfl, rfl, rfl⟩

@[trans] theorem Keeps.trans (h : Keeps s t) (h' : Keeps t u) : Keeps s u :=
  ⟨h'.handler.trans h.handler, h'.renders.trans h.renders, h'.failures.trans h.failures,
    h'.recorded.trans h.recorded⟩

/-- From one state to another loads of directives ended, one after the other. -/
def Told : List (Located Chunk × Ending) → State ω → State ω → Prop
  | [], s, t => Keeps s t
  | (tag, ending) :: ends, s, t => ∃ m, Keeps s m ∧ Told ends (tell tag ending m) t

variable {ends ends' : List (Located Chunk × Ending)}

theorem Told.after (h : Told ends t u) (hkeeps : Keeps s t) : Told ends s u := by
  cases ends with
  | nil => exact hkeeps.trans h
  | cons x ends =>
    obtain ⟨m, hm, hrest⟩ := h
    exact ⟨m, hkeeps.trans hm, hrest⟩

theorem Told.append (h : Told ends s t) (h' : Told ends' t u) : Told (ends ++ ends') s u := by
  induction ends generalizing s with
  | nil => exact h'.after h
  | cons x ends ih =>
    obtain ⟨m, hm, hrest⟩ := h
    exact ⟨m, hm, ih hrest⟩

/-- Directives that are passed over are told to nobody. -/
theorem told_passed (tags : List (Located Chunk)) (s : State ω) : Told (tags.map fun tag => (tag, none)) s s := by
  induction tags with
  | nil => exact .refl s
  | cons tag tags ih => exact ⟨s, .refl s, ih⟩

/-! ### What delivering tells -/

section

variable (env : Setting ω) {tags : List (Located Chunk)} {turns : List Turn} {α β : Type}

theorem keeps_mapM {f : α → StateM (State ω) β} (h : ∀ a s, Keeps s (f a s).2) (as : List α) (s : State ω) :
    Keeps s (as.mapM f s).2 := by
  induction as generalizing s with
  | nil => exact .refl s
  | cons a as ih =>
    rw [Delivery.mapM_cons_run]
    exact (h a s).trans (ih _)

theorem keeps_fly (fs : List Flight) (s : State ω) : Keeps s (Delivery.fly env fs s).2 :=
  (keeps_mapM (fun _ _ => ⟨rfl, rfl, rfl, rfl⟩) fs s).trans (keeps_mapM (fun _ _ => ⟨rfl, rfl, rfl, rfl⟩) _ _)

/-- If the turn of a directive waits, it waits for the directive. -/
def Waits (tag : Located Chunk) : Turn → Prop
  | .waiting waiting _ => waiting = tag
  | _ => True

theorem start_told (total loaded : Nat) (tags : List (Located Chunk)) (s : State ω) :
    Keeps s (Delivery.start env total loaded tags s).2 ∧
      List.Forall₂ Waits tags (Delivery.start env total loaded tags s).1.2 := by
  induction tags generalizing loaded s with
  | nil => exact ⟨.refl s, .nil⟩
  | cons tag tags ih =>
    have hrequest : Keeps s (Delivery.request tag.value.key s).2 := ⟨rfl, rfl, rfl, rfl⟩
    rcases Delivery.start_cases env total loaded tag tags s with ⟨-, hstart⟩ | ⟨-, content, -, hstart⟩ |
      ⟨-, -, hstart⟩
    · rw [hstart]
      obtain ⟨hkeeps, hturns⟩ := ih loaded s
      exact ⟨hkeeps, .cons trivial hturns⟩
    · rw [hstart]
      obtain ⟨hkeeps, hturns⟩ := ih (loaded + 1)
        (Delivery.advance env (loaded + 1) total (Delivery.request tag.value.key s).2).2
      have hadvance : Keeps (Delivery.request tag.value.key s).2
        (Delivery.advance env (loaded + 1) total (Delivery.request tag.value.key s).2).2 := ⟨rfl, rfl, rfl, rfl⟩
      exact ⟨(hrequest.trans hadvance).trans hkeeps, .cons trivial hturns⟩
    · rw [hstart]
      obtain ⟨hkeeps, hturns⟩ := ih loaded (Delivery.request tag.value.key s).2
      exact ⟨hrequest.trans hkeeps, .cons rfl hturns⟩

/-- The directives of a group end in order: what a failed call is told of, and nothing else. -/
theorem settle_told (total loaded : Nat) (landed : List (Nat × Except Failure Text))
    (h : List.Forall₂ Waits tags turns) (s : State ω) :
    ∃ ends, ends.map Prod.fst = tags ∧ Told ends s (Delivery.settle env total landed loaded turns s).2 := by
  induction h generalizing loaded s with
  | nil => exact ⟨[], rfl, .refl s⟩
  | @cons tag turn tags turns hwaits hrest ih =>
    cases turn with
    | skipped =>
      obtain ⟨ends, htags, htold⟩ := ih loaded s
      exact ⟨(tag, none) :: ends, congrArg _ htags, s, .refl s, htold⟩
    | done c =>
      obtain ⟨ends, htags, htold⟩ := ih loaded s
      exact ⟨(tag, some (.ok c.content)) :: ends, congrArg _ htags, s, .refl s, htold⟩
    | waiting waiting ticket =>
      obtain rfl : waiting = tag := hwaits
      cases houtcome : Delivery.outcome landed ticket with
      | ok content =>
        obtain ⟨ends, htags, htold⟩ := ih (loaded + 1) (Delivery.advance env (loaded + 1) total s).2
        rw [Delivery.settle_came houtcome]
        refine ⟨(waiting, some (.ok content)) :: ends, congrArg _ htags, _, ?_, htold⟩
        exact ⟨rfl, rfl, rfl, rfl⟩
      | error e =>
        have hstep : (Delivery.settle env total landed loaded (.waiting waiting ticket :: turns) s).2 =
            (Delivery.settle env total landed loaded turns (tell waiting (some (.error e)) s)).2 := by
          rw [Delivery.settle, houtcome]
          cases e <;> rfl
        obtain ⟨ends, htags, htold⟩ := ih loaded (tell waiting (some (.error e)) s)
        exact ⟨(waiting, some (.error e)) :: ends, congrArg _ htags, s, .refl s, hstep ▸ htold⟩

theorem loadGroup_told (total loaded : Nat) (tags : List (Located Chunk)) (s : State ω) :
    ∃ ends, ends.map Prod.fst = tags ∧ Told ends s ((Delivery.loadGroup env total loaded tags).run s).2 := by
  let flown := Delivery.flown env total loaded tags s
  obtain ⟨hkeeps, hturns⟩ := start_told env total loaded tags s
  obtain ⟨ends, htags, htold⟩ :=
    settle_told env total (Delivery.start env total loaded tags s).1.1 flown.1 hturns flown.2
  refine ⟨ends, htags, ?_⟩
  rw [Delivery.loadGroup_eq]
  exact htold.after (hkeeps.trans (keeps_fly env _ _))

/-- Work that goes on after other work, if that gives anything. -/
theorem bind_run_error {m : Work ω α} {f : α → Work ω β} {e : Failure} (h : m.run s = (.error e, t)) :
    (m >>= f).run s = (.error e, t) := by
  have hrun : (m >>= f).run s = ExceptT.bindCont f (m.run s).1 (m.run s).2 := rfl
  rw [hrun, h]
  rfl

/-- Work on a result leaves the state alone. -/
theorem bind_pure_state (m : Work ω α) (g : α → β) (s : State ω) :
    ((m >>= fun a => pure (g a)).run s).2 = (m.run s).2 := by
  rcases h : m.run s with ⟨e | a, t⟩
  · rw [bind_run_error h]
  · rw [Delivery.bind_run_ok h]
    rfl

/-- Groups are loaded in turn; after an abort or a fault the directives that are left do not end. -/
theorem loadGroups_told (total loaded : Nat) (groups : List (List (Located Chunk))) (s : State ω) :
    ∃ ends rest, ends.map Prod.fst ++ rest = groups.flatten ∧
      Told ends s ((Delivery.loadGroups env total loaded groups).run s).2 := by
  induction groups generalizing loaded s with
  | nil => exact ⟨[], [], rfl, .refl s⟩
  | cons group groups ih =>
    rw [Delivery.loadGroups_cons]
    split
    · exact ⟨[], (group :: groups).flatten, rfl, .refl s⟩
    · obtain ⟨ends, htags, htold⟩ := loadGroup_told env total loaded group s
      rcases hgroup : (Delivery.loadGroup env total loaded group).run s with ⟨e | ⟨n, chunks⟩, m⟩
      · rw [bind_run_error hgroup]
        rw [hgroup] at htold
        exact ⟨ends, groups.flatten, by rw [htags, List.flatten_cons], htold⟩
      · rw [Delivery.bind_run_ok hgroup]
        rw [hgroup] at htold
        obtain ⟨ends', rest, htags', htold'⟩ := ih n m
        refine ⟨ends ++ ends', rest, ?_, htold.append ?_⟩
        · rw [List.map_append, List.append_assoc, htags', htags, List.flatten_cons]
        · rw [bind_pure_state]
          exact htold'

theorem loadChunks_told (tags : List (Located Chunk)) (s : State ω) :
    ∃ ends rest, ends.map Prod.fst ++ rest = tags ∧
      Told ends s ((Delivery.loadChunks env tags).run s).2 := by
  obtain ⟨ends, rest, htags, htold⟩ := loadGroups_told env tags.length 0 (Delivery.groups env tags) s
  rw [Delivery.flatten_groups] at htags
  split at htags
  · exact ⟨ends, rest, htags, htold⟩
  · -- no load may run at all
    obtain ⟨hends, -⟩ := List.append_eq_nil_iff.1 htags
    obtain rfl := List.map_eq_nil_iff.1 hends
    exact ⟨[], tags, rfl, htold⟩

theorem expandOne_keeps (d : Located Progressive) (s : State ω) :
    Keeps s ((Delivery.expandOne env d).run s).2 := by
  unfold Delivery.expandOne
  cases d.value with
  | chunk c => exact .refl s
  | continuation c =>
    cases htotal : c.total with
    | some n =>
      simp only [htotal]
      exact .refl s
    | none =>
      simp only [htotal, pure_bind]
      rw [bind_pure_state]
      exact ⟨rfl, rfl, rfl, rfl⟩

theorem expand_told (ds : List (Located Progressive)) (s : State ω) :
    Keeps s ((Delivery.expand env ds).run s).2 ∧
      ∀ tags, ((Delivery.expand env ds).run s).1 = .ok tags → Expansion env ds tags := by
  induction ds generalizing s with
  | nil =>
    refine ⟨.refl s, fun tags h => ?_⟩
    cases h
    exact .nil
  | cons d ds ih =>
    have hone := expandOne_keeps env d s
    rw [Delivery.expand]
    rcases hhere : (Delivery.expandOne env d).run s with ⟨e | here, m⟩
    · rw [bind_run_error hhere]
      rw [hhere] at hone
      refine ⟨hone, fun tags h => ?_⟩
      cases h
    · rw [Delivery.bind_run_ok hhere]
      rw [hhere] at hone
      obtain ⟨hkeeps, htags⟩ := ih m
      rcases hlater : (Delivery.expand env ds).run m with ⟨e | later, m'⟩
      · rw [bind_run_error hlater]
        rw [hlater] at hkeeps
        refine ⟨hone.trans hkeeps, fun tags h => ?_⟩
        cases h
      · rw [Delivery.bind_run_ok hlater]
        rw [hlater] at hkeeps htags
        refine ⟨hone.trans hkeeps, fun tags h => ?_⟩
        cases h
        exact .cons (congrArg Prod.fst hhere) (htags later rfl)

/-- The directives of a page are expanded, and their loads end one after the other, as far as
    delivering comes. -/
theorem deliver_told (ds : List (Located Progressive)) (s : State ω) :
    (∃ tags ends rest, Expansion env ds tags ∧ tags = ends.map Prod.fst ++ rest ∧
      Told ends s ((Rendering.deliver env ds).run s).2) ∨
    Keeps s ((Rendering.deliver env ds).run s).2 ∧ ∃ e, ((Rendering.deliver env ds).run s).1 = .error e := by
  obtain ⟨hkeeps, hexpansion⟩ := expand_told env ds s
  rw [Rendering.deliver]
  rcases hexpand : (Delivery.expand env ds).run s with ⟨e | tags, m⟩
  · rw [bind_run_error hexpand]
    rw [hexpand] at hkeeps
    exact .inr ⟨hkeeps, e, rfl⟩
  · rw [Delivery.bind_run_ok hexpand, bind_pure_state]
    rw [hexpand] at hkeeps hexpansion
    obtain ⟨ends, rest, htags, htold⟩ := loadChunks_told env tags m
    exact .inl ⟨tags, ends, rest, hexpansion tags rfl, htags.symm, htold.after hkeeps⟩

end

/-! ### A render on its own -/

section

variable {env : Setting ω} {x y z : Session ω} {es fs : List Event} {n : Nat} {c : Course}

theorem Run.trans (h : Run env x es y) (h' : Run env y fs z) : Run env x (es ++ fs) z := by
  induction h' with
  | nil =>
    rw [List.append_nil]
    exact h
  | snoc hrun hstep ih =>
    rw [← List.append_assoc]
    exact ih.snoc hstep

theorem Run.one {e : Event} (h : Step env x e y) : Run env x [e] y := Run.nil.snoc h

/-- A move of a render between its start and its end, or work of the loader. -/
def Event.inner (n : Nat) : Event → Prop
  | .work => True
  | .expand m _ | .ended m _ _ => m = n
  | _ => False

theorem run_told (env : Setting ω) (hc : x.course n = some c) (ends : List (Located Chunk × Ending))
    (rest : List (Located Chunk))
    (howed : c.owed = some (ends.map Prod.fst ++ rest)) (h : Told ends x.state t) :
    ∃ es, Run env x es (x.put t n { c with owed := some rest }) ∧ ∀ e ∈ es, e.inner n := by
  induction ends generalizing x c with
  | nil =>
    have hsame : x.put t n { c with owed := some rest } = ⟨t, x.course⟩ := by
      obtain ⟨page, found, owed, closed⟩ := c
      cases howed
      rw [Session.put]
      exact congrArg (Session.mk t) (Function.update_eq_self_iff.2 hc.symm)
    rw [hsame]
    exact ⟨[.work], .one (.work h), by simp [Event.inner]⟩
  | cons last ends ih =>
    obtain ⟨tag, ending⟩ := last
    obtain ⟨m, hkeeps, htold⟩ := h
    have hwork : Run env x [.work] ⟨m, x.course⟩ := .one (.work hkeeps)
    have hended : Step env ⟨m, x.course⟩ (.ended n tag ending) _ := .ended [] ending hc howed
    obtain ⟨es, hrun, hinner⟩ := ih (x := Session.put ⟨m, x.course⟩ _ n _)
      (c := { c with owed := some (ends.map Prod.fst ++ rest) }) (Session.put_course_self ..) rfl htold
    refine ⟨[.work] ++ [.ended n tag ending] ++ es, ?_, ?_⟩
    · have hall := (hwork.snoc hended).trans hrun
      rwa [Session.put_put] at hall
    · intro e he
      simp only [List.mem_append, List.mem_singleton] at he
      rcases he with (rfl | rfl) | he
      · trivial
      · rfl
      · exact hinner e he

/-- However delivering ends, the handler that the render found is put back. -/
theorem render_restores {page : Text} (h : (Conversion.ofText page).progressive ≠ [])
    {delivered : Except Failure (List (Located Chunk) × List Delivered)}
    (hdeliver : (Rendering.deliver env (Conversion.ofText page).progressive).run (Rendering.install s).2 =
      (delivered, t)) :
    ((Rendering.render env page).run s).2 = (Rendering.restore s.handler t).2 ∧
      match delivered with
      | .ok _ => ∃ r, ((Rendering.render env page).run s).1 = .ok r ∧ r.errors = errorsOf s.renders t
      | .error e => ((Rendering.render env page).run s).1 = .error e := by
  have hnonempty : (Conversion.ofText page).progressive.isEmpty ≠ true := by
    rw [ne_eq, List.isEmpty_iff]
    exact h
  have hget : (get : Work ω (State ω)).run s = (.ok s, s) := rfl
  have hlift := Delivery.lift_run (Rendering.deliver env (Conversion.ofText page).progressive).run
    (Rendering.install s).2
  rw [hdeliver] at hlift
  rw [Rendering.render, if_neg hnonempty, Delivery.bind_run_ok hget,
    Delivery.bind_run_ok (Delivery.lift_run Rendering.install s), Delivery.bind_run_ok hlift,
    Delivery.bind_run_ok (Delivery.lift_run (Rendering.restore s.handler) t)]
  cases delivered with
  | ok result => exact ⟨rfl, _, rfl, rfl⟩
  | error e => exact ⟨rfl, rfl⟩

/-- A render is a run of a session: it starts, its directives are expanded and their loads end,
    and it finishes with the errors that it recorded, or breaks off. -/
theorem render_trail (env : Setting ω) {page : Text} (h : (Conversion.ofText page).progressive ≠ [])
    (x : Session ω) :
    ∃ inner last y, Run env x (.start x.state.renders page :: (inner ++ [last])) y ∧
      (∀ e ∈ inner, e.inner x.state.renders) ∧ y.state = ((Rendering.render env page).run x.state).2 ∧
      match ((Rendering.render env page).run x.state).1 with
      | .ok r => last = .finish x.state.renders r.errors
      | .error _ => last = .breakOff x.state.renders := by
  let n := x.state.renders
  let c : Course := ⟨page, x.state.handler, none, false⟩
  let s := (Rendering.install x.state).2
  have hstart : Run env x [.start n page] (x.put s n c) := .one (.start h)
  rcases hdeliver : (Rendering.deliver env (Conversion.ofText page).progressive).run s with ⟨delivered, t⟩
  obtain ⟨hstate, hresult⟩ := render_restores h hdeliver
  have hcourse := deliver_told env (Conversion.ofText page).progressive s
  rw [hdeliver] at hcourse
  rcases hcourse with ⟨tags, ends, rest, hexpansion, rfl, htold⟩ | ⟨hkeeps, e, rfl⟩
  · let loading : Course := { c with owed := some (ends.map Prod.fst ++ rest) }
    have hexpand : Step env (x.put s n c) (.expand n _) _ := .expand (x.put_course_self s n c) rfl rfl hexpansion
    rw [Session.put_put] at hexpand
    have hbegun : Run env x [.start n page, .expand n _] (x.put s n loading) := hstart.snoc hexpand
    cases delivered with
    | ok result =>
      -- what is left is passed over, and then the render finishes
      obtain ⟨r, hok, herrors⟩ := hresult
      obtain ⟨inner, hrun, hinner⟩ := run_told env (x.put_course_self s n loading)
        (ends ++ rest.map fun tag => (tag, none)) [] (by simp [loading, Function.comp_def])
        (htold.append (told_passed rest t))
      rw [Session.put_put] at hrun
      have hfinish : Step env _ (.finish n (errorsOf n t)) _ :=
        .finish (x.put_course_self t n { loading with owed := some [] }) rfl rfl
      refine ⟨.expand n _ :: inner, _, _, (hbegun.trans hrun).snoc hfinish, ?_, hstate.symm, ?_⟩
      · exact List.forall_mem_cons.2 ⟨rfl, hinner⟩
      · rw [hok]
        exact congrArg (Event.finish n) herrors.symm
    | error e =>
      obtain ⟨inner, hrun, hinner⟩ := run_told env (x.put_course_self s n loading) ends rest rfl htold
      rw [Session.put_put] at hrun
      have hbreak : Step env _ (.breakOff n) _ :=
        .breakOff (x.put_course_self t n { loading with owed := some rest }) rfl
      refine ⟨.expand n _ :: inner, _, _, (hbegun.trans hrun).snoc hbreak, ?_, hstate.symm, ?_⟩
      · exact List.forall_mem_cons.2 ⟨rfl, hinner⟩
      · rw [hresult]
  · have hwork : Step env (x.put s n c) .work ⟨t, _⟩ := .work hkeeps
    have hbreak : Step env ⟨t, (x.put s n c).course⟩ (.breakOff n) _ := .breakOff (x.put_course_self s n c) rfl
    refine ⟨[.work], .breakOff n, _, (hstart.snoc hwork).snoc hbreak, by simp [Event.inner], hstate.symm, ?_⟩
    rw [hresult]

end

end

end PageAssembly.Overlap
