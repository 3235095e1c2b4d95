/-
  PageAssembly/Proofs/Chunk/Untouched.lean
  ========================================
  **The text of a chunk stays as it came.**

  Chunks are put in one after another, and every search goes over the document as it is by
  then, with the contents of earlier chunks in it.  A content is left alone by the later
  searches if it leaves no opening tag of a division open, and holds none that names an id which
  the page's directives ask for (`Placeholder.Passes`).  Then a page without angle brackets is
  rendered to the page with every chunk in its place (`render_untouched`).  A content that
  leaves a tag open takes the next placeholder for the end of its own tag, and both are
  replaced together (`render_swallowed`).
-/
import PageAssembly.Proofs.Chunk.Rendering

namespace PageAssembly

open Pattern

theorem Draft.shownAs_congr {h h' : Deferred → Text} {ps : Draft} (heq : ∀ d ∈ values ps, h d.value = h' d.value) :
    shownAs h ps = shownAs h' ps := by
  apply List.flatMap_congr
  intro x hx
  cases x with
  | plain c => rfl
  | hit w d => exact heq d (List.mem_filterMap.2 ⟨_, hx, rfl⟩)

namespace Rendering

open Delivery

section

variable {found found' : ChunkKey → Option Text} {known : Text → Option ChunkCounts} {page : Text}

/-- A directive asks for nothing but the chunks that it stands for. -/
theorem shown_congr (aborted : Bool) {p : Located Progressive}
    (h : ∀ tag ∈ expansion known p, found tag.value.key = found' tag.value.key) :
    shown found known aborted (.progressive p.value) = shown found' known aborted (.progressive p.value) := by
  obtain ⟨start, stop, source, c | c⟩ := p
  · have hkey : found c.key = found' c.key := h ⟨start, stop, source, c⟩ (List.mem_singleton_self _)
    exact congrArg (fun content => content.getD c.placeholder) hkey
  · have hstretch : stretch found known c = stretch found' known c := by
      apply List.flatMap_congr
      intro i hi
      exact congrArg (fun content => content.getD []) (h _ (List.mem_map_of_mem hi))
    exact congrArg (· ++ if aborted then c.placeholder else []) hstretch

/-- A page asks for nothing but the chunks that its directives stand for. -/
theorem exactPage_congr (aborted : Bool) (h : ∀ tag ∈ wanted known page, found tag.value.key = found' tag.value.key) :
    exactPage found known aborted page = exactPage found' known aborted page := by
  rw [exactPage_eq, exactPage_eq]
  apply Draft.shownAs_congr
  rw [values_draft]
  intro d hd
  rcases hvalue : d.value with p | r
  · let here : Located Progressive := ⟨d.start, d.stop, d.source, p⟩
    have hmem : here ∈ (Conversion.ofText page).progressive := by
      rw [progressive_ofText]
      refine List.mem_filterMap.2 ⟨d, hd, ?_⟩
      rw [Located.filterMap, hvalue]
      rfl
    exact shown_congr aborted (p := here) fun tag htag => h tag (List.mem_flatMap.2 ⟨here, hmem, htag⟩)
  · rfl

end

section

variable {ω : Type} {env : Setting ω} {store : Store} {known : Text → Option ChunkCounts} {page : Text} {s : State ω}

/-- Every chunk that the page asks for was loaded, if no call fails and nobody aborts. -/
theorem loadedFrom_all {l l' : Loader} {cs : List Delivered}
    (hbrings : Brings env store (requested env (wanted known page)) l l' cs)
    (hwidth : 0 < env.concurrency ∧ 0 < env.batch) (hgoing : l'.aborted = false)
    (hok : ∀ tag ∈ wanted known page, ∃ t, store tag.value.key = .ok t) :
    ∀ tag ∈ wanted known page, loadedFrom store cs tag.value.key = some (store.content tag.value.key) := by
  intro tag htag
  let brought : Delivered := ⟨tag.value.key, store.content tag.value.key⟩
  refine if_pos (List.mem_map.2 ⟨brought, ?_, rfl⟩)
  rw [hbrings.all hgoing, requested, if_pos hwidth]
  refine List.mem_filterMap.2 ⟨tag.value.key, List.mem_map_of_mem htag, ?_⟩
  obtain ⟨t, ht⟩ := hok tag htag
  rw [Store.delivered?, ht]

/-- Without failures and aborts, a page is rendered to the page with every chunk in its place, if
    the searches pass over its text and over the contents. -/
theorem render_all (hserves : Serves env store known) (hrest : AtRest store s.loader)
    (hwidth : 0 < env.concurrency ∧ 0 < env.batch) (hgoing : s.loader.aborted = false)
    (hstops : ∀ loaded total, env.stops loaded total = false) (hclear : Draft.Clear (sought page) (draft page))
    (hok : ∀ tag ∈ wanted known page, ∃ t, store tag.value.key = .ok t)
    (hstore : ∀ tag ∈ wanted known page, Placeholder.Passes (sought page) (store.content tag.value.key)) :
    ∃ r s', (render env page).run s = (.ok r, s') ∧
      r.content = exactPage (fun k => some (store.content k)) known false page := by
  have hcontents : ∀ k ∈ requested env (wanted known page), ∀ t, store k = .ok (some t) →
      Placeholder.Passes (sought page) t := by
    intro k hk t ht
    rw [requested, if_pos hwidth] at hk
    obtain ⟨tag, htag, rfl⟩ := List.mem_map.1 hk
    have hcontent : store.content tag.value.key = t := by rw [Store.content, ht]
    exact hcontent ▸ hstore tag htag
  obtain ⟨r, s', hrun, hcontent, hbrings⟩ := render_clear hserves hrest hclear hcontents
  have hstill : s'.loader.aborted = false := going_of_brings hbrings hgoing hstops
  refine ⟨r, s', hrun, ?_⟩
  rw [hcontent, hstill]
  exact exactPage_congr false (loadedFrom_all hbrings hwidth hstill hok)

/-- Whatever the contents are, a page without angle brackets is rendered to the page with every
    chunk in its place, unless a content leaves an opening tag of a division open, or has one
    that names an id which the page's directives ask for. -/
theorem render_untouched (hserves : Serves env store known) (hrest : AtRest store s.loader)
    (hwidth : 0 < env.concurrency ∧ 0 < env.batch) (hgoing : s.loader.aborted = false)
    (hstops : ∀ loaded total, env.stops loaded total = false) (hpage : '<' ∉ page)
    (hok : ∀ tag ∈ wanted known page, ∃ t, store tag.value.key = .ok t)
    (hstore : ∀ tag ∈ wanted known page, Placeholder.Passes (sought page) (store.content tag.value.key)) :
    ∃ r s', (render env page).run s = (.ok r, s') ∧
      r.content = exactPage (fun k => some (store.content k)) known false page :=
  render_all hserves hrest hwidth hgoing hstops (clear_draft hpage) hok hstore

end

/-! ### Tags that are closed, and one that is not -/

/-- A first chunk with this content, and a second one. -/
def pairStore (content : Text) : Store := fun k =>
  if k = ⟨"a".toList, 0⟩ then .ok (some content)
  else if k = ⟨"a".toList, 1⟩ then .ok (some "x".toList)
  else .ok none

def pairSetting (content : Text) : Setting Unit :=
  ⟨hostOf (pairStore content) fun _ => none, "store".toList, 2, 2, fun _ _ => false⟩

def pairPage : Text := "\x7b\x7bchunk collection=a index=0\x7d\x7d\x7b\x7bchunk collection=a index=1\x7d\x7d".toList

/-- Text of all kinds: a directive, a division, and a placeholder with an id that the page does not ask for. -/
def markupContent : Text :=
  "\x7b\x7bchunk collection=a index=1\x7d\x7d<div>".toList ++
  "<div class=\"stitchdown-progressive-placeholder\" data-progressive-id=\"chunk-a-7\"></div>".toList

theorem render_untouched_pair :
    ∃ r s', (render (pairSetting markupContent) pairPage).run (.start 8 ⟨(), []⟩) = (.ok r, s') ∧
      r.content = markupContent ++ "x".toList := by
  have hcontent : ∀ k, (pairStore markupContent).content k ∈ [markupContent, "x".toList, []] := by
    intro k
    unfold Store.content pairStore
    split_ifs <;> simp
  have hids : (Conversion.ofText pairPage).progressive.map (fun p => p.value.id) =
      ["chunk-a-0".toList, "chunk-a-1".toList] := by decide +kernel
  have hpasses : ∀ t ∈ [markupContent, "x".toList, []], Placeholder.Passes (sought pairPage) t := by
    have hall : ∀ t ∈ [markupContent, "x".toList, []], ∀ id ∈ ["chunk-a-0".toList, "chunk-a-1".toList],
        Markup.Closed (· == ·) t ∧ Markup.Lacks (· == ·) (Placeholder.Names id) t := by decide +kernel
    exact fun t ht id hid => hall t ht id (mem_of_sought hids hid)
  have hok : ∀ k, ∃ t, pairStore markupContent k = .ok t := by
    intro k
    unfold pairStore
    split_ifs <;> exact ⟨_, rfl⟩
  have hrest : AtRest (pairStore markupContent) (State.start 8 ⟨(), []⟩ : State Unit).loader :=
    ⟨rfl, by decide, fun e he => absurd he List.not_mem_nil⟩
  have hserves : Serves (pairSetting markupContent) (pairStore markupContent) fun _ => none := serves_hostOf rfl
  have hwidth : 0 < (pairSetting markupContent).concurrency ∧ 0 < (pairSetting markupContent).batch := by decide
  have hpage : '<' ∉ pairPage := by decide +kernel
  obtain ⟨r, s', hrun, hrendered⟩ := render_untouched hserves hrest hwidth rfl (fun _ _ => rfl) hpage
    (fun tag _ => hok tag.value.key) fun tag _ => hpasses _ (hcontent tag.value.key)
  refine ⟨r, s', hrun, hrendered.trans ?_⟩
  decide +kernel

/-- A content that ends inside an opening tag is lost, with the chunk behind it. -/
theorem render_swallowed :
    ((render (pairSetting "<div".toList) pairPage).run (.start 8 ⟨(), []⟩)).1.toOption.map Rendering.content =
        some "x".toList ∧
      exactPage (fun k => some ((pairStore "<div".toList).content k)) (fun _ => none) false pairPage =
        "<divx".toList := by
  decide +kernel

end Rendering
end PageAssembly
