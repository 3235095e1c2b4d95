/-
  PageAssembly/Proofs/Assembly/Replacing.lean
  ===========================================
  **A page is put together as if its directives were replaced one by one.**

  Two assemblies splice a page at the offsets of its directives: placeholders go in for what is
  answered later, and outcomes for includes.  Both give what replacing one directive at a time
  gives, from the last to the first (`assembled_replaceEach`).

  For the placeholders this is said of the directives as their three readers find them, each in a
  reading of its own.  The conversion keeps exactly these, and in the order of their places, since
  no directive is read in two ways.  For includes it is said of any content for each key, and
  `outcomes_by_key` adds that the outcomes of a document are of this form.
-/
import PageAssembly.Directive.Placeholder
import PageAssembly.Proofs.Directive.Grammar
import PageAssembly.Proofs.Inclusion.Work
import PageAssembly.Proofs.Text.Backwards

namespace PageAssembly

/-! ### The directives that are answered later -/

namespace Conversion

/-- The directives that ask for chunks, as the readers of chunk and continuation directives find
    them. -/
def askingForChunks (s : Text) : List (Located Progressive) :=
  (Directive.chunks s).map (Located.map .chunk) ++
    (Directive.continuations s).map (Located.map .continuation)

/-- The directives that are answered later, as the readers of their kinds find them. -/
def answeredLater (s : Text) : List (Located Deferred) :=
  (askingForChunks s).map (Located.map .progressive) ++
    (Directive.renders s).map (Located.map .render)

/-- The directives that a conversion keeps. -/
def kept (c : Conversion) : List (Located Deferred) :=
  c.progressive.map (Located.map .progressive) ++ c.renders.map (Located.map .render)

end Conversion

namespace Directive

variable {α β γ : Type}

theorem map_collect (f : Directive → Option α) (g : α → β) (s : Text) :
    (collect f s).map (Located.map g) = collect (fun d => (f d).map g) s := by
  rw [collect, collect, List.map_filterMap]
  refine List.filterMap_congr fun m _ => ?_
  rw [Located.filterMap, Located.filterMap, Option.map_map, Option.map_map]
  rfl

/-- What a reader finds that tries two others, of which at most one finds something. -/
theorem collect_or_perm {f g : Directive → Option α} (h : ∀ d, (f d).isSome → g d = none)
    (s : Text) : (collect (fun d => (f d).or (g d)) s).Perm (collect f s ++ collect g s) := by
  have hor : Located.filterMap (fun d => (f d).or (g d)) =
      fun m => (Located.filterMap f m).or (Located.filterMap g m) := by
    funext m
    cases hf : f m.value with
    | none => simp only [Located.filterMap, hf, Option.none_or, Option.map_none]
    | some a => simp only [Located.filterMap, hf, Option.some_or, Option.map_some]
  rw [collect, hor]
  refine filterMap_or_perm (fun m hm => ?_) (find s)
  rw [Located.filterMap, Option.isSome_map] at hm
  rw [Located.filterMap, h m.value hm, Option.map_none]

theorem stand_collect (f : Directive → Option α) (s : Text) : Located.Stand s (collect f s) :=
  (Located.stand_find pattern s).filterMap f

theorem progressive?_eq (d : Directive) :
    d.progressive? = (d.chunk?.map Progressive.chunk).or (d.continuation?.map .continuation) := by
  unfold progressive?
  cases d.chunk? <;> rfl

theorem deferred?_eq (d : Directive) :
    d.deferred? = (d.progressive?.map Deferred.progressive).or (d.render?.map .render) := by
  unfold deferred?
  cases d.progressive? <;> rfl

theorem kind_of_chunk? {d : Directive} (h : d.chunk?.isSome) : d.kind = .chunk := by
  obtain ⟨c, hc⟩ := Option.isSome_iff_exists.1 h
  exact (chunk?_eq_some_iff.1 hc).1

theorem continuation?_of_chunk? {d : Directive} (h : d.chunk?.isSome) : d.continuation? = none := by
  rw [continuation?, if_neg (by rw [kind_of_chunk? h]; decide)]

theorem render?_of_progressive? {d : Directive} (h : d.progressive?.isSome) : d.render? = none := by
  rw [render?]
  split
  · next hkind =>
    have hchunk : d.chunk? = none := by rw [chunk?, if_neg (by rw [hkind]; decide)]
    have hcontinuation : d.continuation? = none := by
      rw [continuation?, if_neg (by rw [hkind]; decide)]
    rw [progressive?, hchunk, hcontinuation] at h
    cases h
  · rfl

end Directive

namespace Conversion

theorem progressive_perm (s : Text) :
    (Directive.collect Directive.progressive? s).Perm (askingForChunks s) := by
  rw [askingForChunks, Directive.chunks, Directive.continuations, Directive.map_collect,
    Directive.map_collect, funext Directive.progressive?_eq]
  refine Directive.collect_or_perm (fun d hd => ?_) s
  rw [Option.isSome_map] at hd
  rw [Directive.continuation?_of_chunk? hd, Option.map_none]

theorem deferred_perm_kept (s : Text) : (deferred s).Perm (ofText s).kept := by
  have hkept : (ofText s).kept =
      (Directive.collect Directive.progressive? s).map (Located.map .progressive) ++
        (Directive.renders s).map (Located.map .render) := rfl
  rw [hkept, Directive.renders, Directive.map_collect, Directive.map_collect, deferred,
    funext Directive.deferred?_eq]
  refine Directive.collect_or_perm (fun d hd => ?_) s
  rw [Option.isSome_map] at hd
  rw [Directive.render?_of_progressive? hd, Option.map_none]

theorem kept_perm (s : Text) : (ofText s).kept.Perm (answeredLater s) :=
  ((progressive_perm s).map _).append_right _

theorem deferred_eq (s : Text) : deferred s = Located.byStart (answeredLater s) :=
  Located.eq_byStart (Directive.stand_collect _ s).pairwise_starts
    ((deferred_perm_kept s).trans (kept_perm s)).symm

theorem progressive_eq (s : Text) :
    (ofText s).progressive = Located.byStart (askingForChunks s) :=
  Located.eq_byStart (Directive.stand_collect _ s).pairwise_starts (progressive_perm s).symm

end Conversion

/-! ### The includes of a document -/

namespace Resolution

variable {ω τ : Type}

/-- Includes with one key have one outcome. -/
theorem outcomes_by_key (one : Planned → Work ω τ Outcome) (known : OrderedMap Text Outcome)
    (ps : List Planned) :
    Yields (fun _ => True)
      (fun os _ => ∃ f : Text → Outcome, (∀ key o, known.get? key = some o → f key = o) ∧
        os = ps.map fun p => (p, f p.key))
      (outcomes one known ps) := by
  induction ps generalizing known with
  | nil =>
    refine Yields.pure fun _ _ => ⟨fun key => (known.get? key).getD ⟨[], false, false⟩, ?_, rfl⟩
    intro key o ho
    simp only [ho, Option.getD_some]
  | cons p ps ih =>
    -- once the outcome of `p` is known, the rest agrees with it
    have hrest : ∀ o, (∀ o', known.get? p.key = some o' → o' = o) →
        Yields (fun _ => True)
          (fun os _ => ∃ f : Text → Outcome, (∀ key o, known.get? key = some o → f key = o) ∧
            os = (p :: ps).map fun p => (p, f p.key))
          (do let os ← outcomes one (known.insert p.key o) ps; Pure.pure ((p, o) :: os)) := by
      intro o hagree
      refine Yields.bind (ih (known.insert p.key o)) fun os => Yields.pure fun _ hos => ?_
      obtain ⟨f, hf, rfl⟩ := hos
      have hp : f p.key = o := hf p.key o (by rw [OrderedMap.get?_insert, if_pos rfl])
      refine ⟨f, fun key o' ho' => ?_, by rw [List.map_cons, hp]⟩
      by_cases hkey : p.key = key
      · subst hkey
        rw [hp, hagree o' ho']
      · exact hf key o' (by rw [OrderedMap.get?_insert, if_neg hkey, ho'])
    unfold outcomes
    cases h : known.get? p.key with
    | some o =>
      refine hrest o fun o' ho' => ?_
      rw [h] at ho'
      exact (Option.some.inj ho').symm
    | none =>
      refine Yields.bind (R := fun _ _ => True) (fun _ _ _ _ => trivial) fun o => ?_
      exact hrest o fun o' ho' => absurd (h.symm.trans ho') (by simp)

/-- The content of a document is that of its includes, each replaced in its place. -/
theorem assemble_replaceEach (s contract : Text) (aliases : Aliases) (blocks : List Verbatim.Block)
    (f : Text → Outcome) :
    let planned := (Directive.inclusions s).map (plan contract aliases)
    (assemble s blocks (planned.map fun p => (p, f p.key))).content =
      Verbatim.restore blocks (s.replaceEach (planned.map fun p => edit (p, f p.key))) := by
  intro planned
  have hsplice := (Directive.stand_collect Directive.inclusion? s).splice
    (fun m => edit (plan contract aliases m, f (plan contract aliases m).key)) fun _ => ⟨rfl, rfl⟩
  have hplanned : planned.map (fun p => edit (p, f p.key)) = (Directive.inclusions s).map
      (fun m => edit (plan contract aliases m, f (plan contract aliases m).key)) := List.map_map
  have hedits : (planned.map fun p => (p, f p.key)).map edit =
      planned.map fun p => edit (p, f p.key) := List.map_map
  rw [assemble, hedits, hplanned]
  exact congrArg (Verbatim.restore blocks) hsplice

section Fresh

variable [Sub τ] [LT τ] [DecidableLT τ]

/-- The outcomes that a document is put together from go by the keys of its includes. -/
theorem resolveMasked_assembles (document : Document ω τ) (env : Setting ω τ) (t s contract : Text)
    (above : List Text) (aliases : Aliases) :
    Yields (fun _ => True)
      (fun r _ => ∃ f : Text → Outcome, r = assemble (Alias.strip (Verbatim.mask t s))
        (Verbatim.blocks t s) ((plans t s contract aliases).map fun p => (p, f p.key)))
      (resolveMasked document env t s contract above aliases) := by
  unfold resolveMasked
  refine Yields.bind (outcomes_by_key _ _ _) fun os => Yields.pure fun _ hos => ?_
  obtain ⟨f, -, hf⟩ := hos
  exact ⟨f, by rw [hf]⟩

end Fresh

end Resolution

/-! ### One by one -/

/-- Putting a page together replaces its directives one by one, from the last to the first.
    A conversion replaces the chunk, continuation and render directives by their placeholders, and
    keeps them, in order and with their offsets in the text as it was; a document with any outcome
    for each key is its text with the includes replaced, and a resolution gives such a document. -/
theorem assembled_replaceEach :
    (∀ s : Text,
      (Conversion.ofText s).content =
        s.replaceEach ((Located.byStart (Conversion.answeredLater s)).map Conversion.edit) ∧
      (Conversion.ofText s).progressive = Located.byStart (Conversion.askingForChunks s) ∧
      (Conversion.ofText s).renders = Directive.renders s ∧
      (Conversion.ofText s).kept.Perm (Conversion.answeredLater s) ∧
      ∀ d ∈ (Conversion.ofText s).kept,
        d.start < d.stop ∧ d.stop ≤ s.length ∧ d.source = s.slice d.start d.stop) ∧
    (∀ (s contract : Text) (aliases : Aliases) (blocks : List Verbatim.Block)
      (f : Text → Resolution.Outcome),
      let planned := (Directive.inclusions s).map (Resolution.plan contract aliases)
      (Resolution.assemble s blocks (planned.map fun p => (p, f p.key))).content =
        Verbatim.restore blocks
          (s.replaceEach (planned.map fun p => Resolution.edit (p, f p.key)))) ∧
    ∀ {ω τ : Type} [Sub τ] [LT τ] [DecidableLT τ] (document : Resolution.Document ω τ)
      (env : Resolution.Setting ω τ) (t s contract : Text) (above : List Text) (aliases : Aliases),
      Resolution.Yields (fun _ => True)
        (fun r _ => ∃ f : Text → Resolution.Outcome,
          r = Resolution.assemble (Alias.strip (Verbatim.mask t s)) (Verbatim.blocks t s)
            ((Resolution.plans t s contract aliases).map fun p => (p, f p.key)))
        (Resolution.resolveMasked document env t s contract above aliases) := by
  refine ⟨fun s => ⟨?_, Conversion.progressive_eq s, rfl, Conversion.kept_perm s, fun d hd => ?_⟩,
    Resolution.assemble_replaceEach, Resolution.resolveMasked_assembles⟩
  · rw [← Conversion.deferred_eq]
    exact (Directive.stand_collect Directive.deferred? s).splice Conversion.edit fun _ => ⟨rfl, rfl⟩
  · have hmem : d ∈ Conversion.deferred s := (Conversion.deferred_perm_kept s).mem_iff.2 hd
    exact (Directive.stand_collect Directive.deferred? s).placed d hmem

end PageAssembly
