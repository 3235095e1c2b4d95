/-
  PageAssembly/Proofs/CommandLine/Protected.lean
  ==============================================
  **Protected text in a printed page.**

  The `render` command assembles a page of a site.  The files of a site do not change while it
  works, its loader starts empty, and nobody aborts it, so the text in a protected block is printed as
  it is when the stages behind the first leave it alone (`renderSite_protected`).  They do not
  if they find something in it: the block protects from includes only, and a directive that is
  answered later is answered in it as anywhere else (`renderSite_marked`).
-/
import PageAssembly.CommandLine.Render
import PageAssembly.Proofs.Assembly.Stages
import PageAssembly.Proofs.Site.Confinement
import PageAssembly.Proofs.Site.Store

namespace PageAssembly.CommandLine

open Assembly

section

variable {token : Nat → Text} {site : Site} {o : RenderOptions} {raw x : Text} {n : Nat}

/-- The assembly when the page's text has come. -/
def fetched (token : Nat → Text) (site : Site) (o : RenderOptions) : State Unit Int :=
  (fetchPage (o.setting token site.host) o.func o.path startState).2

/-- What is printed for a part of the page when its includes were resolved. -/
def finished (token : Nat → Text) (site : Site) (o : RenderOptions) (t : Text) : Text :=
  Waterfall.fillAll (loads (o.setting token site.host) o.limits o.func o.path startState)
    (staged (o.setting token site.host) (site.store o.contract) (site.known o.contract) t)

theorem renderSite_of_error {e : Failure}
    (h : (page (o.setting token site.host) o.limits o.func o.path startState).1 = .error e) :
    (renderSite token site o).exit = 1 ∧ (renderSite token site o).output = [] := by
  unfold renderSite
  rcases hpage : page (o.setting token site.host) o.limits o.func o.path startState with ⟨r, st⟩
  obtain rfl : r = .error e := (congrArg Prod.fst hpage).symm.trans h
  exact ⟨rfl, rfl⟩

theorem renderSite_of_ok {c : Waterfall.Completed}
    (h : (page (o.setting token site.host) o.limits o.func o.path startState).1 = .ok c) :
    (renderSite token site o).exit = 0 ∧ (renderSite token site o).output = c.content ++ ['\n'] := by
  unfold renderSite
  rcases hpage : page (o.setting token site.host) o.limits o.func o.path startState with ⟨r, st⟩
  obtain rfl : r = .ok c := (congrArg Prod.fst hpage).symm.trans h
  exact ⟨rfl, rfl⟩

theorem forPage_fetch (o : RenderOptions) :
    Site.ForPage ⟨o.contract, some (renderFunction o.func), .plain o.path o.viewer⟩ := by
  obtain ⟨f, hf⟩ := Site.renderFunction_eq o.func
  rw [hf]
  refine ⟨fun h => ?_, fun h => ?_⟩
  · cases h
  · cases h

theorem forPage_pageCall (contract : Text) (viewer : Option Text) (path : Text) :
    Site.ForPage (Waterfall.pageCall contract viewer path) :=
  ⟨by change "render".toList ≠ _; decide, by change "render".toList ≠ _; decide⟩

/-- If the page's text comes, the contract has a directory. -/
theorem holds_of_fetch
    (h : (fetchPage (o.setting token site.host) o.func o.path startState).1 = .ok raw) : site.Holds o.contract := by
  have hfetch : (fetchPage (o.setting token site.host) o.func o.path startState).1 =
      Host.content ⟨o.contract, some (renderFunction o.func), .plain o.path o.viewer⟩
        (site.answer ⟨o.contract, some (renderFunction o.func), .plain o.path o.viewer⟩) := rfl
  rcases Site.content_page site (forPage_fetch o) with ⟨t, -, hholds⟩ | ⟨e, he⟩
  · exact hholds
  · rw [hfetch, he] at h
    cases h

theorem plain_source_site (token : Nat → Text) (site : Site) (o : RenderOptions) :
    (source (o.setting token site.host)).Plain := by
  refine plain_source fun path y e h => ?_
  have hask : (Waterfall.askFor site.host o.contract o.viewer path y).1 =
      Host.content (Waterfall.pageCall o.contract o.viewer path)
        (site.answer (Waterfall.pageCall o.contract o.viewer path)) := rfl
  have h : (Waterfall.askFor site.host o.contract o.viewer path y).1 = .error e := h
  rcases Site.content_page site (forPage_pageCall o.contract o.viewer path) with ⟨t, ht, -⟩ | ⟨f, hf⟩
  · rw [hask, ht] at h
    cases h
  · rw [hask, hf] at h
    cases h
    exact ⟨f, rfl⟩

theorem ready_fetched (token : Nat → Text) (site : Site) (o : RenderOptions) :
    Ready (o.setting token site.host) (site.store o.contract) (site.known o.contract) (fetched token site o) where
  serves := Site.serves_host rfl
  width := ⟨(by decide : (0 : Int) < 2), (by decide : (0 : Int) < 3)⟩
  stops _ _ := rfl
  rest := ⟨rfl, (by decide : (0 : Int) ≤ 256), fun e he => absurd he List.not_mem_nil⟩
  going := rfl

/-- The text in a protected block of a page is printed as it is, at the place of the block, in each
    combination of the options, if the stages behind the first have nothing to do in it.  Around it
    is printed what becomes of the two parts of the page: includes are resolved, chunks are put in or
    marked, and the pages that the run loads are put in.  A page whose includes cannot be resolved is
    not printed. -/
theorem renderSite_protected
    (hfetch : (fetchPage (o.setting token site.host) o.func o.path startState).1 = .ok raw)
    (h : Protected (o.setting token site.host) raw (fetched token site o) n x)
    (hlater : Undisturbed (o.setting token site.host) (site.store o.contract) (site.known o.contract)
      (loads (o.setting token site.host) o.limits o.func o.path startState)
      (front (o.setting token site.host) raw (fetched token site o) n x) x
      (back (o.setting token site.host) raw (fetched token site o) n x)) :
    (∃ e, (resolve (o.setting token site.host) raw (fetched token site o)).1 = .error e ∧
        (renderSite token site o).exit = 1 ∧ (renderSite token site o).output = []) ∨
      (renderSite token site o).exit = 0 ∧ (renderSite token site o).output =
        finished token site o (front (o.setting token site.host) raw (fetched token site o) n x) ++ x ++
          finished token site o (back (o.setting token site.host) raw (fetched token site o) n x) ++ ['\n'] := by
  have hok : ∀ k, ∃ t, site.store o.contract k = .ok t := by
    intro k
    rw [Site.store, if_pos (holds_of_fetch hfetch)]
    exact ⟨_, rfl⟩
  rcases page_protected (plain_source_site token site o) (Prod.ext hfetch rfl) h hlater (ready_fetched token site o) hok
    with ⟨e, hresolve, hpage⟩ | ⟨c, hpage, hcontent⟩
  · exact .inl ⟨e, hresolve, renderSite_of_error hpage⟩
  · obtain ⟨hexit, houtput⟩ := renderSite_of_ok hpage
    exact .inr ⟨hexit, houtput.trans (congrArg (· ++ ['\n']) hcontent)⟩

end

/-! ### A block between a chunk and a continuation, and one with a directive in it -/

/-- A root with the contract `site` that has this page, a chunk, and a page for the path `q`. -/
def siteWith (page : Text) : Site where
  tree := {
    files := [
      (["site".toList, "render.md".toList], (String.ofList page).toUTF8.toList),
      (["site".toList, "chunks".toList, "a".toList, "0.md".toList], "hi".toUTF8.toList),
      (["site".toList, "render".toList, "q.md".toList], "done".toUTF8.toList)]
    folders := [] }
  root := .inside []

def boldFront : Text := "<p>\x7b\x7bchunk collection=a index=0\x7d\x7d</p>".toList

def boldInner : Text := "<b>\x7b\x7binclude contract=site\x7d\x7d</b>".toList

def boldBack : Text := "<p>\x7b\x7brender path=q\x7d\x7d</p>".toList

def boldPage : Text :=
  boldFront ++ "\x7b\x7bNoParse\x7d\x7d".toList ++ boldInner ++ "\x7b\x7b/NOPARSE\x7d\x7d".toList ++ boldBack

def boldOptions : RenderOptions := { contract := "site".toList }

def boldSetting : Setting Unit Int := boldOptions.setting Verbatim.token (siteWith boldPage).host

def boldFetched : State Unit Int := fetched Verbatim.token (siteWith boldPage) boldOptions

/-- The page before pages for paths are put in. -/
def boldContent : Text := "<p>hi</p>".toList ++ boldInner ++ (Conversion.ofText boldBack).content

def boldRound : Except Failure Waterfall × State Unit Int × List (Text × Text) :=
  Waterfall.round (source boldSetting).logged ⟨100, 2, Nat.two_pos⟩ (Waterfall.start boldContent)
    ((assemble boldSetting boldPage boldFetched).2, [])

theorem fetchPage_bold : fetchPage boldSetting boldOptions.func boldOptions.path startState = (.ok boldPage, boldFetched) :=
  have hraw : (fetchPage boldSetting boldOptions.func boldOptions.path startState).1 = .ok boldPage := by decide +kernel
  Prod.ext hraw rfl

theorem settled_bold : settled boldSetting boldPage boldFetched =
    boldFront.map .letter ++ .block 0 boldInner :: boldBack.map .letter := by decide +kernel

theorem protected_bold : Protected boldSetting boldPage boldFetched 0 boldInner where
  spared := .of_parts (Verbatim.isToken_token 0) (by decide +kernel)
  fresh := by
    rw [settled_bold]
    decide +kernel

/-- One page is put in, in one round. -/
theorem loads_bold : loads boldSetting boldOptions.limits boldOptions.func boldOptions.path startState =
    [("q".toList, "done".toList)] := by
  obtain ⟨hcontent, hunseen, hdone⟩ : (assemble boldSetting boldPage boldFetched).1 = .ok boldContent ∧
      (Waterfall.start boldContent).unseen ≠ [] ∧ boldRound.1.toOption.map Waterfall.unseen = some [] ∧
        boldRound.2.2 = [("q".toList, "done".toList)] := by decide +kernel
  have hlimits : boldOptions.limits = some ⟨100, 2, Nat.two_pos⟩ := rfl
  rcases hassemble : assemble boldSetting boldPage boldFetched with ⟨r, st⟩
  rw [hassemble] at hcontent
  obtain rfl : r = .ok boldContent := hcontent
  rw [hlimits, loads_of_assemble fetchPage_bold hassemble]
  rcases hround : boldRound with ⟨e | w, st', log⟩
  · rw [hround] at hdone
    cases hdone.1
  · rw [hround] at hdone
    rw [boldRound, hassemble] at hround
    exact (Waterfall.loads_of_round hunseen (by decide) hround (Option.some.inj hdone.1)).trans hdone.2

theorem undisturbed_bold : Undisturbed boldSetting ((siteWith boldPage).store "site".toList)
    ((siteWith boldPage).known "site".toList) [("q".toList, "done".toList)] boldFront boldInner boldBack := by
  obtain ⟨hids, hfront, hback, hbrought, hidle, hlast⟩ :
      (Conversion.ofText (boldFront ++ boldInner ++ boldBack)).progressive.map (fun p => p.value.id) =
          ["chunk-a-0".toList] ∧
        Rendering.surroundings boldFront = ["<p>".toList, "</p>".toList] ∧
        Rendering.surroundings boldBack = ["<p>".toList, "</p>".toList] ∧
        brought boldSetting ((siteWith boldPage).store "site".toList) ((siteWith boldPage).known "site".toList)
          (boldFront ++ boldInner ++ boldBack) = ["hi".toList] ∧
        Conversion.deferred boldInner = [] ∧ (Placeholder.withId "chunk-a-0".toList).find "</p>".toList = [] := by
    decide +kernel
  have hpasses : ∀ t ∈ [boldInner, "<p>".toList, "</p>".toList, "hi".toList, "done".toList],
      Placeholder.Passes (searched boldSetting (boldFront ++ boldInner ++ boldBack)) t ∧
        Waterfall.Passes (pathsOf [("q".toList, "done".toList)]) t := by
    have hall : ∀ t ∈ [boldInner, "<p>".toList, "</p>".toList, "hi".toList, "done".toList],
        Markup.Closed Text.sameLetter t ∧ Markup.Lacks Text.sameLetter (Placeholder.Names "chunk-a-0".toList) t ∧
          Markup.Lacks Text.sameLetter (Waterfall.Points "q".toList) t := by decide +kernel
    intro t ht
    obtain ⟨hclosed, hnames, hpoints⟩ := hall t ht
    refine ⟨fun id hid => ?_, fun path hpath => ?_⟩
    · obtain rfl := List.mem_singleton.1 (Rendering.mem_of_sought hids hid.2)
      exact ⟨hclosed.exact, hnames.exact⟩
    · obtain rfl := List.mem_singleton.1 hpath
      exact ⟨hclosed, Waterfall.apart_of_lacks hclosed hpoints⟩
  refine ⟨⟨rfl, hidle⟩, hpasses boldInner (by simp), ?_, ?_, ?_, ?_, ?_⟩
  · rw [hfront]
    exact fun t ht => hpasses t (List.mem_cons_of_mem _ (List.mem_append_left ["hi".toList, "done".toList] ht))
  · rw [hback]
    exact fun t ht => (hpasses t (List.mem_cons_of_mem _ (List.mem_append_left _ (List.dropLast_subset _ ht)))).1
  · rw [hback]
    rintro t ⟨rfl⟩ id hid
    obtain rfl := List.mem_singleton.1 (Rendering.mem_of_sought hids hid.2)
    exact hlast
  · rw [hbrought]
    exact fun t ht => hpasses t (by simp_all)
  · intro f hf
    obtain rfl := List.mem_singleton.1 hf
    exact Waterfall.whole_of_passes (hpasses "done".toList (by simp)).2

theorem renderSite_protected_bold :
    (renderSite Verbatim.token (siteWith boldPage) boldOptions).exit = 0 ∧
      (renderSite Verbatim.token (siteWith boldPage) boldOptions).output =
        "<p>hi</p>".toList ++ boldInner ++ "<p>done</p>\n".toList := by
  have hfront : front boldSetting boldPage boldFetched 0 boldInner = boldFront := by
    rw [front, settled_bold]
    decide +kernel
  have hback : back boldSetting boldPage boldFetched 0 boldInner = boldBack := by
    rw [back, settled_bold]
    decide +kernel
  have hlater : Undisturbed boldSetting ((siteWith boldPage).store "site".toList) ((siteWith boldPage).known "site".toList)
      (loads boldSetting boldOptions.limits boldOptions.func boldOptions.path startState)
      (front boldSetting boldPage boldFetched 0 boldInner) boldInner (back boldSetting boldPage boldFetched 0 boldInner) := by
    rw [loads_bold, hfront, hback]
    exact undisturbed_bold
  have hfinished (t : Text) : finished Verbatim.token (siteWith boldPage) boldOptions t =
      Waterfall.fillAll [("q".toList, "done".toList)] (staged boldSetting ((siteWith boldPage).store "site".toList)
        ((siteWith boldPage).known "site".toList) t) :=
    congrArg (fun l => Waterfall.fillAll l _) loads_bold
  rcases renderSite_protected (congrArg Prod.fst fetchPage_bold) protected_bold hlater with
    ⟨e, hresolve, -⟩ | ⟨hexit, houtput⟩
  · have hok : (resolve boldSetting boldPage boldFetched).1.isOk = true := by decide +kernel
    have hresolve : (resolve boldSetting boldPage boldFetched).1 = .error e := hresolve
    rw [hresolve] at hok
    cases hok
  · refine ⟨hexit, houtput.trans ?_⟩
    change finished Verbatim.token (siteWith boldPage) boldOptions (front boldSetting boldPage boldFetched 0 boldInner) ++
      boldInner ++ finished Verbatim.token (siteWith boldPage) boldOptions
        (back boldSetting boldPage boldFetched 0 boldInner) ++ ['\n'] = _
    rw [hfinished, hfinished, hfront, hback]
    decide +kernel

def markedInner : Text := "\x7b\x7bchunk collection=a index=0\x7d\x7d".toList

def markedPage : Text := Verbatim.wrap markedInner

def markedOptions : RenderOptions :=
  { contract := "site".toList, progressive := false, continuations := false }

/-- A directive that is answered later is answered in a protected block, too: here it is only marked,
    and the placeholder stands where the text of the block was. -/
theorem renderSite_marked :
    (fetchPage (markedOptions.setting Verbatim.token (siteWith markedPage).host) markedOptions.func
        markedOptions.path startState).1 = .ok markedPage ∧
      Protected (markedOptions.setting Verbatim.token (siteWith markedPage).host) markedPage
        (fetched Verbatim.token (siteWith markedPage) markedOptions) 0 markedInner ∧
      (renderSite Verbatim.token (siteWith markedPage) markedOptions).exit = 0 ∧
      ¬ markedInner <:+: (renderSite Verbatim.token (siteWith markedPage) markedOptions).output := by
  have hspared : Resolution.Spared (Verbatim.token 0) markedPage 0 markedInner :=
    .of_parts (Verbatim.isToken_token 0) (by decide +kernel)
  exact ⟨by decide +kernel, ⟨hspared, by decide +kernel⟩, by decide +kernel⟩

end PageAssembly.CommandLine
