/-
  PageAssembly/Proofs/Waterfall/Decoding.lean
  ===========================================
  **The placeholders of a page give back the paths of its render directives.**

  A page whose directives have become placeholders is searched for divisions without content, and
  the paths in their attributes are read as markup.  In a page without angle brackets this gives
  the paths of the render directives, in order and as they were written (`paths_ofText`); a
  directive with an empty path is passed over.  The placeholder of a chunk may look like such
  a division, too, but it gives no path, whatever its attributes and its caption hold
  (`paths_placeholder`).
-/
import PageAssembly.Proofs.Chunk.Rendering
import PageAssembly.Proofs.Waterfall.Passing

namespace PageAssembly

open Pattern

/-! ### Paths along a search -/

namespace Waterfall

/-- The path that a piece of a document gives. -/
def pathIn : Piece (Option Text) → List Text
  | .plain _ => []
  | .hit _ o => o.toList

theorem paths_eq (document : Text) :
    paths document = (division.pieces document).flatMap pathIn := by
  have hvalues : ∀ ps : List (Piece (Option Text)),
      (values ps).filterMap id = ps.flatMap pathIn := by
    intro ps
    induction ps with
    | nil => rfl
    | cons x ps ih =>
      cases x with
      | plain c => exact ih
      | hit w o =>
        rw [values_hit, List.flatMap_cons, ← ih]
        cases o <;> rfl
  rw [← hvalues, ← map_value_locate 0, List.filterMap_map]
  rfl

/-- Text in which no placeholder starts gives no path. -/
theorem Passes.paths_append {t : Text} (h : Passes Set.univ t) (r : Text) :
    paths (t ++ r) = paths r := by
  have hletters : ∀ w : Text, (w.flatMap fun c => pathIn (.plain c)) = [] := fun w =>
    List.flatMap_eq_nil_iff.2 fun _ _ => rfl
  rw [paths_eq, paths_eq,
    flatMap_stretch (h [] trivial).1 (fun z hne hz r rest o hread w => ?_), hletters,
    List.nil_append]
  cases o with
  | none => exact (hletters w).symm
  | some path => exact absurd hread ((h path trivial).2 z hne hz r rest)

/-- A placeholder gives the path that its directive asks for, and nothing else. -/
theorem paths_placeholder (d : Deferred) (r : Text) :
    paths (d.placeholder ++ r) = d.path?.toList ++ paths r := by
  cases hd : d.path? with
  | none =>
    have hpasses : Passes Set.univ d.placeholder := by
      apply passes_placeholder
      intro path _
      rw [hd]
      exact nofun
    exact hpasses.paths_append r
  | some path =>
    obtain ⟨e, rfl, hne, rfl⟩ := Deferred.exists_render_of_path? hd
    rw [paths_eq, paths_eq, Deferred.placeholder,
      division.pieces_append (readDivision_render hne r), List.flatMap_cons, pathIn]

end Waterfall

/-! ### Paths of a page -/

namespace Draft

/-- The paths of a draft without further angle brackets are those of its directives. -/
theorem paths_text {ps : Draft} (h : Made (fun t => '<' ∉ t) (fun t => '<' ∉ t) ps) :
    Waterfall.paths (text ps) = (values ps).filterMap fun d => d.value.path? := by
  induction h with
  | @last t ht =>
    have hnone := (Waterfall.passes_of_not_mem ht).paths_append []
    rw [text_plain, values_plain, List.filterMap_nil]
    rwa [List.append_nil] at hnone
  | @stretch t ps ht _ ih =>
    rw [text_append, text_plain, (Waterfall.passes_of_not_mem ht).paths_append, ih, values_append,
      values_plain, List.nil_append]
  | @placeholder d ps _ ih =>
    rw [text_hit, Waterfall.paths_placeholder, ih, values_hit, List.filterMap_cons]
    cases d.value.path? <;> rfl

end Draft

namespace Directive

/-- Of the directives that are answered later, only render directives ask for a path. -/
theorem path?_deferred (d : Directive) :
    d.deferred?.bind Deferred.path? = (d.render?.map Render.path).filter (· ≠ []) := by
  by_cases hkind : d.kind = .render
  · have hprogressive : d.progressive? = none := by
      rw [progressive?, chunk?, continuation?, if_neg (by simp [hkind]), if_neg (by simp [hkind])]
      rfl
    rw [deferred?, hprogressive]
    cases d.render? with
    | none => rfl
    | some r => by_cases hpath : r.path = [] <;> simp [Deferred.path?, hpath, Option.filter]
  · have hrender : d.render? = none := if_neg hkind
    rw [deferred?, hrender]
    cases d.progressive? <;> rfl

end Directive

namespace Conversion

theorem paths_deferred (s : Text) :
    ((deferred s).filterMap fun d => d.value.path?) =
      ((Directive.renders s).map fun r => r.value.path).filter (· ≠ []) := by
  rw [deferred, Directive.renders, Directive.collect, Directive.collect, List.filterMap_filterMap,
    List.map_filterMap, List.filter_filterMap]
  apply List.filterMap_congr
  intro m _
  calc (Located.filterMap Directive.deferred? m).bind (fun d => d.value.path?)
      = m.value.deferred?.bind Deferred.path? := by
        rw [Located.filterMap]
        cases m.value.deferred? <;> rfl
    _ = (m.value.render?.map Render.path).filter (· ≠ []) := Directive.path?_deferred m.value
    _ = ((Located.filterMap Directive.render? m).map fun r => r.value.path).filter (· ≠ []) := by
        rw [Located.filterMap]
        cases m.value.render? <;> rfl

/-- The placeholders of a page without angle brackets give the paths of its render directives that
    are not empty, in order.  Those of chunks and continuations give none, whatever stands
    behind them. -/
theorem paths_ofText {s : Text} (h : '<' ∉ s) :
    Waterfall.paths (ofText s).content =
        ((Directive.renders s).map fun r => r.value.path).filter (· ≠ []) ∧
      ∀ (p : Progressive) (r : Text), Waterfall.paths (p.placeholder ++ r) = Waterfall.paths r := by
  constructor
  · have hmade : Draft.Made (fun t => '<' ∉ t) (fun t => '<' ∉ t) (Rendering.draft s) :=
      Rendering.made_draft List.not_mem_nil (fun _ => id) h
    rw [← Rendering.text_draft, Draft.paths_text hmade, Rendering.values_draft, paths_deferred]
  · intro p r
    exact Waterfall.paths_placeholder (.progressive p) r

/-- Paths with quotes, an entity and a closing bracket; an empty one; and a chunk that says that it
    is of the render type. -/
def quotedPage : Text :=
  ("a > b \x7b\x7brender path='x&amp;\"y\">z'\x7d\x7d \x7b\x7brender path=\"\"\x7d\x7d" ++
    "\x7b\x7bchunk collection='\" data-type=\"render' index=0 data-path=p\x7d\x7d" ++
    "\x7b\x7brender path=q\x7d\x7d").toList

theorem paths_ofText_quoted :
    '<' ∉ quotedPage ∧
      Waterfall.paths (ofText quotedPage).content = ["x&amp;\"y\">z".toList, "q".toList] := by
  have hbracket : '<' ∉ quotedPage := by decide +kernel
  have hpaths : ((Directive.renders quotedPage).map fun r => r.value.path) =
      ["x&amp;\"y\">z".toList, [], "q".toList] := by decide +kernel
  refine ⟨hbracket, (paths_ofText hbracket).1.trans ?_⟩
  rw [hpaths]
  rfl

end Conversion
end PageAssembly
