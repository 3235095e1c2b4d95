/-
  PageAssembly/Proofs/Assembly/Stages.lean
  ========================================
  **A protected text through all stages of an assembly.**

  The text of a page goes through three stages: includes are resolved, chunks are put in, or only
  marked, and then pages for paths are put in.  Protection is from the first of them: a block is
  masked while includes are resolved, and what was in it stands in the page when the
  other two begin.  To these it is text like any other.

  So what is said of the later stages is said of the page with the text in it, between what the
  first stage made of the two parts around it (`front`, `back`).  The stages leave the text alone if
  they have nothing to do in it and their searches pass over it (`Undisturbed`): chunks are then put
  into each of the two parts (`Undisturbed.staged_between`), pages too (`Undisturbed.fillAll_staged`), and the
  text stands between them as it was (`page_protected`).
-/
import PageAssembly.Assembly
import PageAssembly.Proofs.Inclusion.Settled
import PageAssembly.Proofs.Waterfall.Joining
import PageAssembly.Proofs.Waterfall.Loads

namespace PageAssembly

open Delivery (Serves AtRest)
open Rendering (Between draft exactPage shown surroundings sought wanted)

/-! ### Chunks that are only marked -/

/-- A page whose chunks are only marked is one for which nothing was loaded. -/
theorem Rendering.exactPage_marked (known : Text → Option ChunkCounts) (page : Text) :
    exactPage (fun _ => none) known true page = (Conversion.ofText page).content := by
  have hmarked : ∀ d, shown (fun _ => none) known true d = d.placeholder := by
    intro d
    rcases d.kinds with ⟨c, rfl⟩ | ⟨c, rfl⟩ | ⟨r, rfl⟩
    · rfl
    · simp [shown, Rendering.stretch, Deferred.placeholder, Progressive.placeholder]
    · rfl
  rw [exactPage_eq, funext hmarked, ← text_draft, Draft.shownAs_placeholder]
  exact fun _ _ => Draft.source_ofPieces

namespace Assembly

variable {ω τ : Type}

/-! ### What the later stages do -/

/-- What stands for a text when its chunks were put in, or only marked. -/
def staged (env : Setting ω τ) (store : Store) (known : Text → Option ChunkCounts) (t : Text) : Text :=
  if env.progressive then exactPage (fun k => some (store.content k)) known false t else (Conversion.ofText t).content

/-- The ids that are searched for when the chunks of a page are put in. -/
def searched (env : Setting ω τ) (page : Text) : Set Text := {id | env.progressive = true ∧ id ∈ sought page}

/-- The paths that are searched for when pages are put in. -/
def pathsOf (loads : List (Text × Text)) : Set Text := {path | path ∈ loads.map Prod.fst}

/-- The contents that are put into a page. -/
def brought (env : Setting ω τ) (store : Store) (known : Text → Option ChunkCounts) (page : Text) : List Text :=
  if env.progressive then (wanted known page).map fun tag => store.content tag.value.key else []

/-- The stages behind the first have nothing to do in the text between two parts of a page: no
    directive is answered later in it or over its ends, and no search for a placeholder
    finds anything in it, nor takes anything of it along with what it finds around it. -/
structure Undisturbed (env : Setting ω τ) (store : Store) (known : Text → Option ChunkCounts)
    (loads : List (Text × Text)) (p x s : Text) : Prop where
  between : Between p x s
  inner : Placeholder.Passes (searched env (p ++ x ++ s)) x ∧ Waterfall.Passes (pathsOf loads) x
  front : ∀ t ∈ surroundings p,
    Placeholder.Passes (searched env (p ++ x ++ s)) t ∧ Waterfall.Passes (pathsOf loads) t
  back : ∀ t ∈ (surroundings s).dropLast, Placeholder.Passes (searched env (p ++ x ++ s)) t
  last : ∀ t ∈ (surroundings s).getLast?, Placeholder.Ends (searched env (p ++ x ++ s)) t
  chunks : ∀ t ∈ brought env store known (p ++ x ++ s),
    Placeholder.Passes (searched env (p ++ x ++ s)) t ∧ Waterfall.Passes (pathsOf loads) t
  pages : ∀ f ∈ loads, Waterfall.Whole (pathsOf loads) f.2

/-- Chunks can be loaded, and nothing aborts it: the host serves them from a store, and the loader is at
    rest. -/
structure Ready (env : Setting ω τ) (store : Store) (known : Text → Option ChunkCounts) (st : State ω τ) : Prop where
  serves : Serves env.delivering store known
  width : 0 < env.delivering.concurrency ∧ 0 < env.delivering.batch
  stops : ∀ loaded total, env.delivering.stops loaded total = false
  rest : AtRest store st.delivery.loader
  going : st.delivery.loader.aborted = false

theorem Ready.of_delivery {env : Setting ω τ} {store : Store} {known : Text → Option ChunkCounts} {st st' : State ω τ}
    (h : Ready env store known st) (heq : st'.delivery = st.delivery) : Ready env store known st' :=
  ⟨h.serves, h.width, h.stops, heq ▸ h.rest, heq ▸ h.going⟩

namespace Undisturbed

variable {env : Setting ω τ} {store : Store} {known : Text → Option ChunkCounts} {loads : List (Text × Text)}
  {p x s : Text}

/-- Chunks are put into the two parts, and the text stays. -/
theorem staged_between (h : Undisturbed env store known loads p x s) :
    staged env store known (p ++ x ++ s) = staged env store known p ++ x ++ staged env store known s := by
  unfold staged
  split
  · exact Rendering.exactPage_between h.between _ known false
  · rw [← Rendering.exactPage_marked known, ← Rendering.exactPage_marked known, ← Rendering.exactPage_marked known]
    exact Rendering.exactPage_between h.between _ known true

/-- The part in front of the text takes nothing along of what stands behind it. -/
theorem whole_staged (h : Undisturbed env store known loads p x s) :
    Waterfall.Whole (pathsOf loads) (staged env store known p) := by
  have hmade : Draft.Made (Waterfall.Passes (pathsOf loads)) (Waterfall.Passes (pathsOf loads)) (draft p) :=
    Draft.made_of_gaps (fun _ _ => Draft.source_ofPieces) (fun t ht => (h.front t (List.dropLast_subset _ ht)).2)
      fun t ht => (h.front t (List.mem_of_getLast? ht)).2
  unfold staged
  split
  · next hprogressive =>
    -- only the contents that the part asks for are known to be passed over
    let asked : ChunkKey → Option Text := fun k =>
      if k ∈ (wanted known p).map (fun tag => tag.value.key) then some (store.content k) else none
    have hasked : ∀ k t, asked k = some t → Waterfall.Passes (pathsOf loads) t := by
      intro k t hk
      obtain ⟨hmem, hcontent⟩ := Option.ite_none_right_eq_some.1 hk
      obtain ⟨tag, htag, rfl⟩ := List.mem_map.1 hmem
      obtain rfl : store.content tag.value.key = t := Option.some.inj hcontent
      refine (h.chunks _ ?_).2
      rw [brought, if_pos hprogressive]
      exact List.mem_map.2 ⟨tag, (h.between.wanted_prefix known).subset htag, rfl⟩
    have hsame : exactPage (fun k => some (store.content k)) known false p = exactPage asked known false p :=
      Rendering.exactPage_congr false fun tag htag => (if_pos (List.mem_map_of_mem htag)).symm
    rw [hsame, ← Rendering.text_rendered]
    exact ⟨_, Rendering.made_rendered hmade hasked, rfl⟩
  · rw [← Rendering.text_draft]
    exact ⟨_, hmade, rfl⟩

/-- Pages are put into the two parts, and the text stays. -/
theorem fillAll_staged (h : Undisturbed env store known loads p x s) :
    Waterfall.fillAll loads (staged env store known (p ++ x ++ s)) =
      Waterfall.fillAll loads (staged env store known p) ++ x ++ Waterfall.fillAll loads (staged env store known s) := by
  rw [h.staged_between]
  exact Waterfall.fillAll_between h.inner.2 h.whole_staged (fun f hf => ⟨List.mem_map_of_mem hf, h.pages f hf⟩) _

/-- Putting chunks in gives what is to stand for the page. -/
theorem renderChunks_ok (h : Undisturbed env store known loads p x s) {st : State ω τ}
    (hready : Ready env store known st)
    (hok : ∀ tag ∈ wanted known (p ++ x ++ s), ∃ t, store tag.value.key = .ok t) :
    ∃ st', renderChunks env (p ++ x ++ s) st = (.ok (staged env store known (p ++ x ++ s)), st') := by
  unfold renderChunks staged
  split
  · next hprogressive =>
    have hsought : searched env (p ++ x ++ s) = sought (p ++ x ++ s) :=
      Set.ext fun id => ⟨fun hid => hid.2, fun hid => ⟨hprogressive, hid⟩⟩
    have hclear : Draft.Clear (sought (p ++ x ++ s)) (draft (p ++ x ++ s)) :=
      hsought ▸ Rendering.made_between h.between (fun t ht => (h.front t ht).1) h.inner.1 h.back h.last
    have hstore : ∀ tag ∈ wanted known (p ++ x ++ s),
        Placeholder.Passes (sought (p ++ x ++ s)) (store.content tag.value.key) := by
      intro tag htag
      rw [← hsought]
      refine (h.chunks _ ?_).1
      rw [brought, if_pos hprogressive]
      exact List.mem_map_of_mem htag
    obtain ⟨r, d, hrun, hcontent⟩ := Rendering.render_all (s := { st.delivery with exchange := st.desk.exchange })
      hready.serves hready.rest hready.width hready.going hready.stops hclear hok hstore
    rw [hrun]
    exact ⟨_, Prod.ext (congrArg Except.ok hcontent) rfl⟩
  · exact ⟨st, rfl⟩

end Undisturbed

/-! ### One stage after another -/

section

variable [Sub τ] [LT τ] [DecidableLT τ] {env : Setting ω τ} {store : Store} {known : Text → Option ChunkCounts}
  {x raw content : Text} {st st₁ st₂ : State ω τ}

theorem assemble_eq (env : Setting ω τ) (page : Text) (st : State ω τ) :
    assemble env page st = match resolve env page st with
      | (.error e, st') => (.error e, st')
      | (.ok r, st') => renderChunks env r.content st' := by
  unfold assemble
  simp only [bind, StateT.bind]
  rcases resolve env page st with ⟨e | r, st'⟩
  · rfl
  · rfl

/-- The signs of the page behind the first stage. -/
def settled (env : Setting ω τ) (page : Text) (st : State ω τ) : Signs :=
  Resolution.settled env.resolving page env.contract OrderedMap.empty st.desk env.depth

/-- What the first stage makes of the part of a page in front of a block. -/
def front (env : Setting ω τ) (page : Text) (st : State ω τ) (n : Nat) (x : Text) : Text :=
  ((settled env page st).front (.block n x)).bare

/-- What the first stage makes of the part of a page behind a block. -/
def back (env : Setting ω τ) (page : Text) (st : State ω τ) (n : Nat) (x : Text) : Text :=
  ((settled env page st).back (.block n x)).bare

/-- The block of the page with this number and the text `x` in it: no include and no alias directive
    reaches over it, and no text is taken for its mask. -/
structure Protected (env : Setting ω τ) (page : Text) (st : State ω τ) (n : Nat) (x : Text) : Prop where
  spared : Resolution.Spared (env.resolving.token st.desk.drawn) page n x
  fresh : ¬ env.resolving.token st.desk.drawn <:+: (settled env page st).bare

/-- A page with a protected block is assembled with the block's text in it, unless its includes
    cannot be resolved. -/
theorem Protected.assemble_ok {loads : List (Text × Text)} {n : Nat} (h : Protected env raw st n x)
    (hlater : Undisturbed env store known loads (front env raw st n x) x (back env raw st n x))
    (hready : Ready env store known st) (hok : ∀ k, ∃ t, store k = .ok t) :
    (∃ e st', (resolve env raw st).1 = .error e ∧ assemble env raw st = (.error e, st')) ∨
      ∃ st', assemble env raw st =
        (.ok (staged env store known (front env raw st n x ++ x ++ back env raw st n x)), st') := by
  have hdelivery : (resolve env raw st).2.delivery = st.delivery := rfl
  rw [assemble_eq]
  rcases hresolve : resolve env raw st with ⟨e | r, st'⟩
  · exact .inl ⟨e, st', rfl, rfl⟩
  · have hcontent : r.content = front env raw st n x ++ x ++ back env raw st n x :=
      Resolution.content_of_spared h.spared h.fresh (congrArg Prod.fst hresolve)
    rw [hresolve] at hdelivery
    simp only [hcontent]
    exact .inr (hlater.renderChunks_ok (hready.of_delivery hdelivery) fun tag _ => hok tag.value.key)

/-- The pages that are put into a page of the contract, in order, each with its path. -/
def loads (env : Setting ω τ) (limits : Option Waterfall.Limits) (func path : Option Text) (st : State ω τ) :
    List (Text × Text) :=
  match limits, fetchPage env func path st with
  | some l, (.ok raw, st) =>
    match assemble env raw st with
    | (.ok content, st) => Waterfall.loads (source env) l content st
    | _ => []
  | _, _ => []

theorem loads_of_assemble {l : Waterfall.Limits} {func path : Option Text}
    (hfetch : fetchPage env func path st = (.ok raw, st₁)) (hassemble : assemble env raw st₁ = (.ok content, st₂)) :
    loads env (some l) func path st = Waterfall.loads (source env) l content st₂ := by
  simp only [loads, hfetch, hassemble]

theorem page_of_assemble {limits : Option Waterfall.Limits} {func path : Option Text}
    (hplain : (source env).Plain) (hfetch : fetchPage env func path st = (.ok raw, st₁))
    (hassemble : assemble env raw st₁ = (.ok content, st₂)) :
    ∃ c, (page env limits func path st).1 = .ok c ∧
      c.content = Waterfall.fillAll (loads env limits func path st) content := by
  cases limits with
  | none =>
    have hpage : page env none func path st = (.ok (Waterfall.completed (Waterfall.start content) false), st₂) := by
      unfold page
      simp only [bind, StateT.bind, hfetch, hassemble]
      rfl
    rw [hpage]
    exact ⟨_, rfl, rfl⟩
  | some l =>
    have hpage : page env (some l) func path st = Waterfall.run (source env) l content st₂ := by
      unfold page
      simp only [bind, StateT.bind, hfetch, hassemble]
    obtain ⟨c, st', hrun, hcontent⟩ := Waterfall.run_plain hplain l content st₂
    rw [hpage, loads_of_assemble hfetch hassemble]
    exact ⟨c, congrArg Prod.fst hrun, hcontent⟩

theorem page_of_error {limits : Option Waterfall.Limits} {func path : Option Text} {e : Failure}
    (hfetch : fetchPage env func path st = (.ok raw, st₁)) (hassemble : assemble env raw st₁ = (.error e, st₂)) :
    page env limits func path st = (.error e, st₂) := by
  unfold page
  simp only [bind, StateT.bind, hfetch, hassemble]
  rfl

/-- The text in a protected block of a page reaches the assembled page as it is, between what becomes
    of the parts around it, if the stages behind the first have nothing to do in it; a page whose
    includes cannot be resolved is not assembled. -/
theorem page_protected {limits : Option Waterfall.Limits} {func path : Option Text} {n : Nat}
    (hplain : (source env).Plain) (hfetch : fetchPage env func path st = (.ok raw, st₁)) (h : Protected env raw st₁ n x)
    (hlater : Undisturbed env store known (loads env limits func path st) (front env raw st₁ n x) x
      (back env raw st₁ n x))
    (hready : Ready env store known st₁) (hok : ∀ k, ∃ t, store k = .ok t) :
    (∃ e, (resolve env raw st₁).1 = .error e ∧ (page env limits func path st).1 = .error e) ∨
      ∃ c, (page env limits func path st).1 = .ok c ∧
        c.content = Waterfall.fillAll (loads env limits func path st) (staged env store known (front env raw st₁ n x)) ++
          x ++ Waterfall.fillAll (loads env limits func path st) (staged env store known (back env raw st₁ n x)) := by
  rcases h.assemble_ok hlater hready hok with ⟨e, st₂, hresolve, hassemble⟩ | ⟨st₂, hassemble⟩
  · exact .inl ⟨e, hresolve, congrArg Prod.fst (page_of_error hfetch hassemble)⟩
  · obtain ⟨c, hpage, hcontent⟩ := page_of_assemble hplain hfetch hassemble
    exact .inr ⟨c, hpage, hcontent.trans hlater.fillAll_staged⟩

/-- Where calls for pages fail remotely or not at all, continuations are loaded from a plain source. -/
theorem plain_source (hremote : ∀ path x e,
      (Waterfall.askFor env.resolving.host env.contract env.resolving.viewer path x).1 = .error e →
        ∃ f, e = .remote f) :
    (source env).Plain where
  fetch path st e h := hremote path st.desk.exchange e h
  process path raw st h := by
    have hprocess : ((source env).process path raw st).1 = (assemble env raw st).1.map some := rfl
    rw [hprocess] at h
    cases hassemble : (assemble env raw st).1 with
    | error e =>
      rw [hassemble] at h
      cases h
    | ok content =>
      rw [hassemble] at h
      cases h

end

end Assembly
end PageAssembly
