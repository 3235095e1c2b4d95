/-
  PageAssembly/Proofs/Inclusion/Unseen.lean
  =========================================
  **Which includes are never looked at.**

  A page from which all text between its guarded pairs of brackets is taken is, when masked, the
  page itself (`mask_hollow`).  So no include between such brackets is ever called: resolution
  makes the same calls, keeps the same in the cache and reports the same as if nothing stood there
  (`guarded_unseen`), for the page asked for and for every page that it includes.

  A pair behind an opening bracket that is never closed is not guarded, and what stands in it is
  resolved like any other text (`run_doubled`).
-/
import PageAssembly.Proofs.Inclusion.Chart
import PageAssembly.Proofs.Verbatim.Matching
import PageAssembly.Proofs.Verbatim.Parts

namespace PageAssembly

namespace Verbatim

/-! ### A page with nothing in its blocks -/

/-- The page with nothing left between the brackets of its guarded pairs. -/
def hollow (s : Text) : Text :=
  s.splice ((guarded s).map fun p => ⟨p.opening.stop, p.closing.start, []⟩)

theorem hollow_eq (s : Text) :
    hollow s = s.splice ((spans s).map fun p => ⟨p.innerStart, p.innerStop, []⟩) := by
  rw [spans_eq_guarded, List.map_map]
  rfl

theorem hollow_free {s : Text} (h : spans s = []) : hollow s = s := by
  rw [hollow_eq, h]
  rfl

theorem hollow_part {z o x c : Text} (hz : Stray z) (ho : IsBracket .opening o) (hx : Balanced x)
    (hc : IsBracket .closing c) (r : Text) :
    hollow (z ++ (o ++ x ++ c) ++ r) = z ++ (o ++ [] ++ c) ++ hollow r := by
  have htext : z ++ (o ++ x ++ c) ++ r = (z ++ o) ++ (x ++ (c ++ r)) := by simp
  have hedits : (spans (z ++ (o ++ x ++ c) ++ r)).map (fun p => (⟨p.innerStart, p.innerStop, []⟩ : Edit)) =
      ⟨(z ++ o).length, (z ++ o).length + x.length, []⟩ ::
        (((spans r).map fun p => (⟨p.innerStart, p.innerStop, []⟩ : Edit)).map (Edit.later c.length)).map
          (Edit.later ((z ++ o).length + x.length)) := by
    rw [spans_part hz ho hx hc]
    simp only [List.map_cons, List.map_map, List.length_append, Nat.add_assoc]
    congr 1
    apply List.map_congr_left
    intro p _
    simp only [Function.comp, Span.later, Edit.later, Nat.add_assoc]
  rw [hollow_eq, hedits, htext, Text.splice_cons_later, Text.splice_later, hollow_eq]
  simp

theorem veiled_signsAt_hollow (v : Veil) (s : Text) (k : Nat) :
    (signsAt k (hollow s)).veiled v = (signsAt k s).veiled v := by
  induction parted s generalizing k with
  | free hs => rw [hollow_free hs]
  | block hz ho hx hc _ ih =>
    rw [hollow_part hz ho hx hc, signsAt_part hz ho balanced_nil hc, signsAt_part hz ho hx hc,
      Signs.veiled_append, Signs.veiled_append, Signs.veiled_cons, Signs.veiled_cons, ih]
    rfl

theorem mask_hollow (t s : Text) : mask t (hollow s) = mask t s := by
  rw [mask_eq_veiled, mask_eq_veiled]
  exact veiled_signsAt_hollow (placeholder t) s 0

theorem hasBlocks_hollow (s : Text) : hasBlocks (hollow s) = hasBlocks s := by
  cases parted s with
  | free hs => rw [hollow_free hs]
  | block hz ho hx hc _ =>
    rw [hollow_part hz ho hx hc, hasBlocks, hasBlocks, spans_part hz ho balanced_nil hc,
      spans_part hz ho hx hc]
    rfl

end Verbatim

namespace Resolution

open Verbatim

variable {ω τ : Type} [Sub τ] [LT τ] [DecidableLT τ]

/-- What comes of a page besides its text: whether it includes itself, and the keys in it. -/
def report (result : Except Failure Resolution) : Except Failure (Bool × List Text) :=
  result.map fun r => (r.cyclic, r.keys)

theorem resolveMasked_hollow (document : Document ω τ) (env : Setting ω τ) (t s contract : Text)
    (above : List Text) (aliases : Aliases) (p : Pass ω τ) :
    ((resolveMasked document env t (hollow s) contract above aliases).run p).2 =
        ((resolveMasked document env t s contract above aliases).run p).2 ∧
      report ((resolveMasked document env t (hollow s) contract above aliases).run p).1 =
        report ((resolveMasked document env t s contract above aliases).run p).1 := by
  -- the pages differ in the blocks that are put back at the end only
  have hplans : plans t (hollow s) contract aliases = plans t s contract aliases := by
    rw [plans, plans, mask_hollow]
  rw [resolveMasked, resolveMasked, mask_hollow, hplans, bind_run, bind_run]
  rcases (outcomes (outcome document env above (Aliases.extend aliases (Alias.defined (mask t s))))
    OrderedMap.empty (plans t s contract aliases)).run p with ⟨e | os, q⟩
  · exact ⟨rfl, rfl⟩
  · exact ⟨rfl, rfl⟩

theorem resolve_hollow (env : Setting ω τ) (depth : Nat) (s contract : Text) (above : List Text)
    (aliases : Aliases) (p : Pass ω τ) :
    ((resolve env depth (hollow s) contract above aliases).run p).2 =
        ((resolve env depth s contract above aliases).run p).2 ∧
      report ((resolve env depth (hollow s) contract above aliases).run p).1 =
        report ((resolve env depth s contract above aliases).run p).1 := by
  cases depth with
  | zero => exact ⟨rfl, rfl⟩
  | succ depth =>
    have hdrawn : drawnAfter (hollow s) p.drawn = drawnAfter s p.drawn := by
      rw [drawnAfter, drawnAfter, hasBlocks_hollow]
    have hrun : ∀ u : Text, (resolve env (depth + 1) u contract above aliases).run p =
        (resolveMasked (resolve env depth) env (env.token p.drawn) u contract above aliases).run
          { p with drawn := drawnAfter u p.drawn } :=
      fun u => resolveWith_run (resolve env depth) env u contract above aliases p
    rw [hrun, hrun, hdrawn]
    exact resolveMasked_hollow ..

/-- The blocks of a page are its outermost pairs of brackets in front of all unclosed ones, and so
    all outermost pairs just if none of them stands behind an unclosed bracket.  What stands in a
    block is never looked at, in the page asked for or in a page further down: the work on a page is
    the work on it with empty blocks, with the same calls, the same cache and the same report. -/
theorem guarded_unseen (s : Text) :
    spans s = (guarded s).map Pair.span ∧
      (spans s = (outermostPairs s).map Pair.span ↔
        ∀ p ∈ outermostPairs s, ∀ b ∈ unclosed s, p.opening.start < b.start) ∧
      ∀ (env : Setting ω τ) (depth : Nat) (contract : Text) (above : List Text) (aliases : Aliases)
        (p : Pass ω τ),
        ((resolve env depth s contract above aliases).run p).2 =
            ((resolve env depth (hollow s) contract above aliases).run p).2 ∧
          report ((resolve env depth s contract above aliases).run p).1 =
            report ((resolve env depth (hollow s) contract above aliases).run p).1 := by
  refine ⟨spans_eq_guarded s, spans_eq_outermostPairs_iff s, ?_⟩
  intro env depth contract above aliases p
  obtain ⟨hpass, hreport⟩ := resolve_hollow env depth s contract above aliases p
  exact ⟨hpass.symm, hreport.symm⟩

/-- A pair of brackets around an include, behind an opening bracket that nothing closes. -/
def doubled : Text := "{{noparse}}{{noparse}}{{include contract=A}}{{/noparse}}".toList

def doubledPages : Pages := [(("A".toList, "render".toList), "a".toList)]

/-- The pair is no block, and the include in it is called. -/
theorem run_doubled :
    (outermostPairs doubled).map Pair.span = [⟨11, 22, 44, 56⟩] ∧ spans doubled = [] ∧
      (run doubledPages.setting 2 doubled "C".toList OrderedMap.empty .new).1 =
        .ok ⟨"{{noparse}}{{noparse}}a{{/noparse}}".toList, false, ["A:||".toList]⟩ ∧
      (run doubledPages.setting 2 doubled "C".toList OrderedMap.empty .new).2.exchange.calls.map
        Call.target = ["A".toList] := by
  decide +kernel

end Resolution
end PageAssembly
