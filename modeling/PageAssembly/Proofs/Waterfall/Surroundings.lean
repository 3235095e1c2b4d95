/-
  PageAssembly/Proofs/Waterfall/Surroundings.lean
  ===============================================
  **What stands around the directives of a page.**

  A page is completed in steps, and each of them searches the whole document: once for every
  chunk, once for every id of a continuation, and once for every path for which a page
  comes in.  `completedPage` says directive by directive what is to stand in the page at the end,
  and leaves all other text alone.

  The steps give this page if no search matches in the texts around the directives, nor across the
  end of one of them (`render_completed`).  A directive in the value of an attribute is an end that
  a match goes across: the opening tag around it is taken for that of the placeholder, and goes
  away with it (`render_attribute`).
-/
import PageAssembly.Proofs.Chunk.Untouched
import PageAssembly.Proofs.Waterfall.Passing

namespace PageAssembly

open Pattern

/-! ### Putting pages in -/

namespace Draft

variable {ps : Draft} {paths : Set Text} {fills : List (Text × Text)}

/-- What pages have for a placeholder: the first one for its path. -/
def pageFill (fills : List (Text × Text)) (d : Located Deferred) : Option Text :=
  d.value.path?.bind fun path => List.lookup path fills

theorem pageFill_cons (path content : Text) (d : Located Deferred) :
    pageFill ((path, content) :: fills) d =
      (if d.value.path? = some path then some content else none).or (pageFill fills d) := by
  cases hd : d.value.path? with
  | none => simp [pageFill, hd]
  | some p =>
    by_cases hp : p = path
    · simp [pageFill, hd, hp]
    · have hne : (p == path) = false := beq_eq_false_iff_ne.2 hp
      simp [pageFill, hd, hp, List.lookup_cons, hne]

theorem fill_text {path : Text} (hpath : path ∈ paths) (content : Text)
    (h : Made (Waterfall.Ends paths) (Waterfall.Passes paths) ps) :
    Waterfall.fill path content (text ps) =
      text (put false (fun d => if d.value.path? = some path then some content else none) ps) := by
  rw [text_put]
  induction h with
  | @last t h =>
    rw [text_plain, Waterfall.fill_last (h path hpath), List.flatMap_map]
    exact (List.flatMap_singleton' t).symm
  | @stretch t ps h _ ih =>
    rw [text_append, text_plain, h.fill_append hpath, ih, List.flatMap_append,
      List.flatMap_map]
    exact congrArg (· ++ _) (List.flatMap_singleton' t).symm
  | @placeholder d ps _ ih =>
    rw [text_hit, Waterfall.fill_placeholder, ih, List.flatMap_cons]
    congr 1
    by_cases hd : d.value.path? = some path <;> simp [hd]

/-- Putting pages in one after another fills each placeholder with the first page for its path. -/
theorem fills_text (hfills : ∀ f ∈ fills, f.1 ∈ paths ∧ Waterfall.Passes paths f.2)
    (h : Made (Waterfall.Ends paths) (Waterfall.Passes paths) ps) :
    Waterfall.fillAll fills (text ps) = text (put false (pageFill fills) ps) := by
  unfold Waterfall.fillAll
  induction fills generalizing ps with
  | nil =>
    have hnone : ∀ d, pageFill [] d = none := fun d => by simp [pageFill]
    rw [put_none hnone]
    rfl
  | cons f fills ih =>
    obtain ⟨path, content⟩ := f
    obtain ⟨hpath, hcontent⟩ := hfills (path, content) List.mem_cons_self
    have hmade : Made (Waterfall.Ends paths) (Waterfall.Passes paths)
        (put false (fun d => if d.value.path? = some path then some content else none) ps) := by
      refine made_put h fun d _ t ht => ?_
      split at ht
      · cases ht
        exact hcontent
      · cases ht
    rw [List.foldl_cons, fill_text hpath content h, ih (fun f hf => hfills f (List.mem_cons_of_mem _ hf)) hmade,
      put_put fun hkeeps => absurd hkeeps Bool.false_ne_true]
    congr 2
    funext d
    exact (pageFill_cons path content d).symm

end Draft

namespace Rendering

open Delivery

/-! ### The rendered page as a draft -/

section

variable {found : ChunkKey → Option Text} {known : Text → Option ChunkCounts} {aborted : Bool} {page : Text}
  {paths : Set Text} {fills : List (Text × Text)}

/-- What was loaded for a placeholder, if it is that of a chunk. -/
def chunkText (found : ChunkKey → Option Text) (d : Located Deferred) : Option Text :=
  match d.value with
  | .progressive (.chunk c) => found c.key
  | _ => none

/-- What was loaded for a placeholder, if it is that of a continuation. -/
def stretchText (found : ChunkKey → Option Text) (known : Text → Option ChunkCounts) (d : Located Deferred) :
    Option Text :=
  match d.value with
  | .progressive (.continuation c) => some (stretch found known c)
  | _ => none

/-- The rendered page, with the placeholders that are left in it. -/
def rendered (found : ChunkKey → Option Text) (known : Text → Option ChunkCounts) (aborted : Bool) (page : Text) :
    Draft :=
  Draft.put aborted (stretchText found known) (Draft.put false (chunkText found) (draft page))

/-- What stands in a page for a directive when pages were put in, too. -/
def standsFor (found : ChunkKey → Option Text) (known : Text → Option ChunkCounts) (aborted : Bool)
    (fills : List (Text × Text)) (d : Deferred) : Text :=
  (d.path?.bind fun path => List.lookup path fills).getD (shown found known aborted d)

/-- The page with every directive that is answered later replaced by what stands for it; all other
    text stays. -/
def completedPage (found : ChunkKey → Option Text) (known : Text → Option ChunkCounts) (aborted : Bool)
    (fills : List (Text × Text)) (page : Text) : Text :=
  Directive.pattern.substitute
    (fun source d => (d.deferred?.map (standsFor found known aborted fills)).getD source) page

theorem completedPage_eq : completedPage found known aborted fills page =
    Draft.shownAs (standsFor found known aborted fills) (draft page) := by
  rw [draft, Draft.shownAs_ofPieces, completedPage, substitute]
  apply List.flatMap_congr
  intro x _
  cases x <;> rfl

theorem made_rendered {ends : Text → Prop} (h : Draft.Made ends (Waterfall.Passes paths) (draft page))
    (hfound : ∀ k t, found k = some t → Waterfall.Passes paths t) :
    Draft.Made ends (Waterfall.Passes paths) (rendered found known aborted page) := by
  refine Draft.made_put (Draft.made_put h fun d _ t ht => ?_) fun d _ t ht => ?_
  · unfold chunkText at ht
    split at ht
    · exact hfound _ t ht
    · cases ht
  · unfold stretchText at ht
    split at ht
    · cases ht
      refine Waterfall.passes_flatMap fun i _ => ?_
      cases hi : found ⟨_, i⟩ with
      | none => exact Waterfall.passes_of_not_mem List.not_mem_nil
      | some t => exact hfound _ t hi
    · cases ht

/-- Putting pages into the rendered page completes it. -/
theorem text_completed : Draft.text (Draft.put false (Draft.pageFill fills) (rendered found known aborted page)) =
    completedPage found known aborted fills page := by
  rw [completedPage_eq, Draft.text_put, rendered, Draft.put, Draft.put, List.flatMap_assoc, List.flatMap_assoc]
  apply List.flatMap_congr
  intro x hx
  cases x with
  | plain c => rfl
  | hit w d =>
    obtain rfl := Draft.source_ofPieces hx
    rcases d.value.kinds with ⟨c, hvalue⟩ | ⟨c, hvalue⟩ | ⟨r, hvalue⟩
    · cases hfound : found c.key with
      | some t => simp [Draft.filled, chunkText, hvalue, hfound, standsFor, shown, Deferred.path?, List.flatMap_map]
      | none =>
        simp [Draft.filled, chunkText, stretchText, Draft.pageFill, hvalue, hfound, standsFor, shown, Deferred.path?,
          Deferred.placeholder, Progressive.placeholder]
    · cases aborted with
      | true =>
        simp [Draft.filled, chunkText, stretchText, Draft.pageFill, hvalue, standsFor, shown, Deferred.path?,
          Deferred.placeholder, Progressive.placeholder, List.flatMap_map]
      | false =>
        simp [Draft.filled, chunkText, stretchText, hvalue, standsFor, shown, Deferred.path?, List.flatMap_map]
    · simp [Draft.filled, chunkText, stretchText, Draft.pageFill, hvalue, standsFor, shown, Deferred.placeholder]

theorem text_rendered : Draft.text (rendered found known aborted page) = exactPage found known aborted page := by
  have hcompleted : Draft.text (Draft.put false (Draft.pageFill []) (rendered found known aborted page)) =
      completedPage found known aborted [] page := text_completed
  have hnone : ∀ d, Draft.pageFill [] d = none := fun d => by simp [Draft.pageFill]
  have hshown : standsFor found known aborted [] = shown found known aborted := by
    funext d
    simp [standsFor]
  rw [Draft.put_none hnone, completedPage, hshown] at hcompleted
  exact hcompleted

end

/-! ### Completing a page -/

/-- The texts of a page around the directives that are answered later: one in front of each, and
    one behind the last. -/
def surroundings (page : Text) : List Text := Draft.gaps (draft page)

section

variable {ω : Type} {env : Setting ω} {store : Store} {known : Text → Option ChunkCounts} {page : Text}
  {s : State ω} {fills : List (Text × Text)}

/-- Rendering a page and then putting pages in replaces each directive by what stands for it, and
    leaves all other text of the page as it is: whatever that text is, if no search matches in it
    or across its end, and for all contents without angle brackets. -/
theorem render_completed (hserves : Serves env store known) (hrest : AtRest store s.loader)
    (hfront : ∀ t ∈ (surroundings page).dropLast,
      Placeholder.Passes (sought page) t ∧ Waterfall.Passes {path | path ∈ fills.map Prod.fst} t)
    (hback : ∀ t ∈ (surroundings page).getLast?,
      Placeholder.Ends (sought page) t ∧ Waterfall.Ends {path | path ∈ fills.map Prod.fst} t)
    (hstore : ∀ k t, store k = .ok (some t) → '<' ∉ t) (hfills : ∀ f ∈ fills, '<' ∉ f.2) :
    ∃ r s', (render env page).run s = (.ok r, s') ∧
      Waterfall.fillAll fills r.content =
        completedPage (loadedFrom store r.chunks) known s'.loader.aborted fills page ∧
      Delivery.Brings env store (requested env (wanted known page)) s.loader s'.loader r.chunks := by
  have hsource : ∀ w d, .hit w d ∈ draft page → w = d.value.placeholder := fun _ _ => Draft.source_ofPieces
  have hclear : Draft.Clear (sought page) (draft page) :=
    Draft.made_of_gaps hsource (fun t ht => (hfront t ht).1) fun t ht => (hback t ht).1
  obtain ⟨r, s', hrun, hcontent, hbrings⟩ := render_clear hserves hrest hclear fun k _ t ht =>
    Placeholder.passes_of_not_mem (hstore k t ht)
  have hfound : ∀ k t, loadedFrom store r.chunks k = some t →
      Waterfall.Passes {path | path ∈ fills.map Prod.fst} t := fun k t ht =>
    of_loadedFrom (Waterfall.passes_of_not_mem List.not_mem_nil)
      (fun c _ t ht => Waterfall.passes_of_not_mem (hstore c.key t ht)) ht
  have hmade : Draft.Made (Waterfall.Ends {path | path ∈ fills.map Prod.fst})
      (Waterfall.Passes {path | path ∈ fills.map Prod.fst}) (draft page) :=
    Draft.made_of_gaps hsource (fun t ht => (hfront t ht).2) fun t ht => (hback t ht).2
  refine ⟨r, s', hrun, ?_, hbrings⟩
  rw [hcontent, ← text_rendered, Draft.fills_text _ (made_rendered hmade hfound), text_completed]
  exact fun f hf => ⟨List.mem_map_of_mem hf, Waterfall.passes_of_not_mem (hfills f hf)⟩

end

/-! ### A directive between tags, and one inside a tag -/

def taggedPage : Text :=
  "<div title=\"t\">\x7b\x7bchunk collection=a index=0\x7d\x7d</div><p>\x7b\x7brender path=q\x7d\x7d</p>".toList

theorem render_completed_tagged :
    ∃ r s', (render (pairSetting "hi".toList) taggedPage).run (.start 8 ⟨(), []⟩) = (.ok r, s') ∧
      Waterfall.fillAll [("q".toList, "done".toList)] r.content = "<div title=\"t\">hi</div><p>done</p>".toList := by
  have hids : (Conversion.ofText taggedPage).progressive.map (fun p => p.value.id) = ["chunk-a-0".toList] := by
    decide +kernel
  have hclosed : ∀ t ∈ surroundings taggedPage, Markup.Closed Text.sameLetter t := by decide +kernel
  have hnames : ∀ t ∈ surroundings taggedPage, ∀ id ∈ ["chunk-a-0".toList],
      Markup.Lacks Text.sameLetter (Placeholder.Names id) t := by decide +kernel
  have hpoints : ∀ t ∈ surroundings taggedPage, Markup.Lacks Text.sameLetter (Waterfall.Points "q".toList) t := by
    decide +kernel
  have hfront : ∀ t ∈ (surroundings taggedPage).dropLast, Placeholder.Passes (sought taggedPage) t ∧
      Waterfall.Passes {path | path ∈ [("q".toList, "done".toList)].map Prod.fst} t := by
    intro t ht
    have ht := List.dropLast_subset _ ht
    refine ⟨fun id hid => ⟨(hclosed t ht).exact, (hnames t ht id (mem_of_sought hids hid)).exact⟩, fun path hpath => ?_⟩
    obtain rfl := List.mem_singleton.1 hpath
    exact ⟨hclosed t ht, Waterfall.apart_of_lacks (hclosed t ht) (hpoints t ht)⟩
  have hback : ∀ t ∈ (surroundings taggedPage).getLast?, Placeholder.Ends (sought taggedPage) t ∧
      Waterfall.Ends {path | path ∈ [("q".toList, "done".toList)].map Prod.fst} t := by
    have hlast : (surroundings taggedPage).getLast? = some "</p>".toList := by decide +kernel
    rw [hlast]
    rintro t ⟨rfl⟩
    refine ⟨fun id hid => ?_, fun path hpath => ?_⟩
    · obtain rfl := List.mem_singleton.1 (mem_of_sought hids hid)
      decide +kernel
    · obtain rfl := List.mem_singleton.1 hpath
      decide +kernel
  have hstore : ∀ k t, pairStore "hi".toList k = .ok (some t) → '<' ∉ t := by
    intro k t h
    unfold pairStore at h
    split_ifs at h <;> cases h <;> decide
  have hrest : AtRest (pairStore "hi".toList) (State.start 8 ⟨(), []⟩ : State Unit).loader :=
    ⟨rfl, by decide, fun e he => absurd he List.not_mem_nil⟩
  have hserves : Serves (pairSetting "hi".toList) (pairStore "hi".toList) fun _ => none := serves_hostOf rfl
  obtain ⟨r, s', hrun, hcontent, hbrings⟩ := render_completed hserves hrest hfront hback hstore (by decide)
  have hgoing : s'.loader.aborted = false := going_of_brings hbrings rfl fun _ _ => rfl
  refine ⟨r, s', hrun, ?_⟩
  rw [hcontent, hgoing, hbrings.all hgoing]
  decide +kernel

/-- A directive in the value of an attribute takes the tag around it along. -/
theorem render_attribute :
    ((render (pairSetting "hi".toList) "<div title=\"\x7b\x7bchunk collection=a index=0\x7d\x7d\">x</div>".toList).run
        (.start 8 ⟨(), []⟩)).1.toOption.map Rendering.content = some "hi\">x</div>".toList ∧
      completedPage (fun k => some ((pairStore "hi".toList).content k)) (fun _ => none) false []
        "<div title=\"\x7b\x7bchunk collection=a index=0\x7d\x7d\">x</div>".toList =
          "<div title=\"hi\">x</div>".toList := by
  decide +kernel

end Rendering
end PageAssembly
