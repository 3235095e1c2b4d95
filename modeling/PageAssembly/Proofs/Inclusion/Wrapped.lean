/-
  PageAssembly/Proofs/Inclusion/Wrapped.lean
  ==========================================
  **What comes of a wrapped text.**

  A text in which every closing bracket is answered (`Answered`) resolves to itself when it is
  wrapped, if its opening brackets are closed, too: the whole page is one block, nothing is called,
  and only the number of tokens changes.  An opening bracket that is left open in the text takes
  the closing bracket of the wrapping for itself.  Then the page has no block at all, and its
  text is worked on and keeps the brackets of the wrapping, so that it never comes out as
  it was (`run_wrap`).
-/
import PageAssembly.Proofs.Directive.Grammar
import PageAssembly.Proofs.Inclusion.Inert
import PageAssembly.Proofs.Inclusion.Unseen
import PageAssembly.Proofs.Verbatim.Matching

namespace PageAssembly

theorem Text.replaceFirst_self {w : Text} (hw : w ≠ []) (v : Text) : replaceFirst w v w = v := by
  obtain ⟨c, w, rfl⟩ := List.exists_cons_of_ne_nil hw
  have hwhole : expect (c :: w) (c :: w) = some [] := expect_eq_some_iff.2 (List.append_nil _).symm
  rw [replaceFirst, cut, hwhole]
  exact List.append_nil v

namespace Verbatim

/-! ### Brackets of a wrapped text -/

/-- Every closing bracket of the text closes an opening one. -/
def Answered (s : Text) : Prop :=
  ∀ b ∈ pattern.find s, b.value = .closing → ∃ p ∈ pairs s, p.closing = b

instance (s : Text) : Decidable (Answered s) :=
  inferInstanceAs (Decidable (∀ b ∈ pattern.find s, b.value = .closing →
    ∃ p ∈ pairs s, p.closing = b))

/-- Where every closing bracket closes one, what stays open is counted by the depth. -/
theorem depthAfter_of_answered (stack bs : List (Located Bracket)) (hline : InLine stack bs)
    (h : ∀ b ∈ bs, b.value = .closing → ∃ p ∈ matched stack bs, p.closing = b) :
    depthAfter stack.length (bs.map Located.value) = some (leftOpen stack bs).length := by
  induction stack, bs using brackets_induction with
  | nil => rfl
  | opening stack b bs hb ih =>
    rw [(closings_opening bs stack hb).2.1] at h
    rw [(closings_opening bs stack hb).2.2, List.map_cons, hb]
    exact ih hline.push fun c hc => h c (List.mem_cons_of_mem b hc)
  | stray b bs hb ih =>
    -- the pair that the bracket closes would be closed further on
    obtain ⟨p, hp, hclosing⟩ := h b List.mem_cons_self hb
    rw [(closings_stray bs hb).2.1] at hp
    have hlater := hline.lt_of_mem (hclosing ▸ (mem_of_mem_matched [] bs hp).2)
    exact absurd hlater (Nat.lt_irrefl _)
  | closing o stack b bs hb ih =>
    rw [(closings_closing bs stack hb).2.1] at h
    rw [(closings_closing bs stack hb).2.2, List.map_cons, hb]
    apply ih hline.pop
    intro c hc hvalue
    obtain ⟨p, hp, hclosing⟩ := h c (List.mem_cons_of_mem b hc) hvalue
    rcases List.mem_cons.1 hp with rfl | hp
    · have hlater : b.start < c.start := hline.lt_of_mem hc
      obtain rfl : b = c := hclosing
      exact absurd hlater (Nat.lt_irrefl _)
    · exact ⟨p, hp, hclosing⟩

theorem Answered.depthAfter_eq {s : Text} (h : Answered s) :
    depthAfter 0 ((pattern.find s).map Located.value) = some (unclosed s).length :=
  depthAfter_of_answered [] (pattern.find s) (Pattern.pairwise_starts_find pattern s) h

theorem Answered.balanced {s : Text} (h : Answered s) (hclosed : unclosed s = []) : Balanced s := by
  rw [Balanced, h.depthAfter_eq, hclosed]
  rfl

theorem Balanced.mask_wrap {s : Text} (h : Balanced s) (t : Text) :
    mask t (wrap s) = placeholder t 0 := by
  have hsigns := signs_wrap balanced_nil h []
  rw [List.nil_append, List.append_nil] at hsigns
  rw [mask_eq_veiled, hsigns]
  exact List.append_nil _

theorem Balanced.restore_wrap {s t : Text} (h : Balanced s) (ht : IsToken t) :
    restore (blocks t (wrap s)) (placeholder t 0) = s := by
  have hspans := Verbatim.spans_wrap balanced_nil h []
  rw [List.nil_append, List.append_nil] at hspans
  have hinner : (wrap s).slice 11 (11 + s.length) = s := by
    rw [wrap_eq, List.append_assoc]
    exact Text.slice_append openingTag s closingTag
  have hrestore : restore (blocks t (wrap s)) (placeholder t 0) =
      Text.replaceFirst (placeholder t 0) ((wrap s).slice (0 + 11) (0 + 11 + s.length))
        (placeholder t 0) := by
    rw [blocks, hspans]
    rfl
  rw [hrestore, Nat.zero_add, hinner]
  exact Text.replaceFirst_self ((wordlike_placeholder ht).ne_nil 0) s

/-- The closing bracket around the text closes a bracket in it, and the one in front stays open. -/
theorem Answered.spans_wrap {s : Text} (h : Answered s) (hopen : unclosed s ≠ []) :
    spans (wrap s) = [] := by
  obtain ⟨b, bs, hbs⟩ := List.exists_cons_of_ne_nil hopen
  have hdepth : depthAfter 0 (((pattern.find s).map (later openingTag.length)).map Located.value) =
      some (bs.length + 1) := by
    rw [List.map_map]
    exact h.depthAfter_eq.trans (by rw [hbs, List.length_cons])
  have hfind : pattern.find (wrap s) = ⟨0, openingTag.length, openingTag, .opening⟩ ::
      ((pattern.find s).map (later openingTag.length) ++
        [⟨openingTag.length + s.length, openingTag.length + s.length + closingTag.length,
          closingTag, .closing⟩]) := by
    have hblock := find_block isBracket_openingTag isBracket_closingTag [] s []
    rw [List.nil_append, List.append_nil, ← wrap_eq] at hblock
    have hnil : pattern.find [] = [] := rfl
    simpa [hnil] using hblock
  rw [spans, hfind]
  simp only [outermost]
  rw [outermost_inside _ _ hdepth]
  rfl

end Verbatim

/-! ### Opening brackets that stay -/

namespace Pattern

variable {α : Type}

/-- A search passes over an opening bracket if nothing is read there and matches start with
    braces only. -/
theorem pieces_openingTag {p : Pattern α} (hp : ∀ c s, c ≠ '{' → p.read (c :: s) = none)
    (htag : ∀ u, p.read (Verbatim.openingTag ++ u) = none)
    (htail : ∀ u, p.read (Verbatim.openingTag.tail ++ u) = none) (u : Text) :
    p.pieces (Verbatim.openingTag ++ u) = Verbatim.openingTag.map Piece.plain ++ p.pieces u := by
  let word := "noparse\x7d\x7d".toList
  have hword : '{' ∉ word := by decide
  have hsplit : Verbatim.openingTag = '{' :: '{' :: word := rfl
  have hfirst : p.read ('{' :: '{' :: (word ++ u)) = none := htag u
  have hsecond : p.read ('{' :: (word ++ u)) = none := htail u
  rw [hsplit, List.cons_append, List.cons_append, p.pieces_cons_none hfirst,
    p.pieces_cons_none hsecond, pieces_append_of_not_mem hp hword]
  rfl

end Pattern

theorem Alias.strip_openingTag (u : Text) :
    Alias.strip (Verbatim.openingTag ++ u) = Verbatim.openingTag ++ Alias.strip u := by
  rw [Alias.strip_eq, Alias.strip_eq,
    Pattern.pieces_openingTag Alias.read_eq_none (fun _ => rfl) (fun _ => rfl), List.flatMap_append,
    List.flatMap_map]
  rfl

namespace Resolution

open Verbatim

/-- The page without its alias directives, with the texts in the places of its includes. -/
def filledIn (ts : List Text) (s : Text) : Text :=
  (Pattern.assign Directive.inclusion? (Directive.pattern.pieces (Alias.strip s)) ts).flatMap
    (Pattern.replaced id)

theorem filledIn_openingTag (ts : List Text) (u : Text) :
    filledIn ts (openingTag ++ u) = openingTag ++ filledIn ts u := by
  rw [filledIn, Alias.strip_openingTag,
    Pattern.pieces_openingTag Directive.read_eq_none (fun _ => rfl) (fun _ => rfl),
    Pattern.assign_plain, List.flatMap_append, List.flatMap_map]
  rfl

/-- The page with an opening bracket in front of the text does not come out as the text. -/
theorem filledIn_ne (ts : List Text) (s r : Text) : filledIn ts (openingTag ++ (s ++ r)) ≠ s := by
  -- Infinite descent: the text would start with an opening bracket, and so would what is behind it.
  induction hn : s.length using Nat.strongRecOn generalizing s with
  | ind n ih =>
    intro h
    rw [filledIn_openingTag] at h
    have hlength : openingTag.length + (filledIn ts (s ++ r)).length = s.length := by
      rw [← List.length_append, h]
    have hpos : 0 < openingTag.length := Nat.zero_lt_succ _
    apply ih (filledIn ts (s ++ r)).length (by omega) (filledIn ts (s ++ r)) rfl
    rw [← List.append_assoc, h]

section

variable {ω τ : Type} [Sub τ] [LT τ] [DecidableLT τ] {env : Setting ω τ} {depth : Nat}
  {s contract : Text} {aliases : Aliases} {d : Desk ω τ}

/-- A page without blocks comes out with contents in the places of its includes. -/
theorem exists_filledIn {r : Resolution} (hspans : spans s = [])
    (hrun : (run env (depth + 1) s contract aliases d).1 = .ok r) :
    ∃ ts, r.content = filledIn ts s := by
  rw [run_eq_assembled] at hrun
  generalize env.token d.drawn = t at hrun
  rcases hwork : (ownOutcomes (resolve env depth) env t s contract aliases).run (start s d)
    with ⟨e | os, q⟩
  · rw [hwork] at hrun
    cases hrun
  · rw [hwork] at hrun
    obtain rfl : assemble (Alias.strip (mask t s)) (blocks t s) os = r := Except.ok.inj hrun
    have hedits := edits_ownOutcomes (congrArg Prod.fst hwork)
    refine ⟨os.map fun o => o.2.content, ?_⟩
    rw [mask_eq_self hspans] at hedits
    rw [assemble, hedits, blocks_eq_nil hspans, mask_eq_self hspans]
    exact Pattern.splice_zipWith Directive.pattern Directive.inclusion? (Alias.strip s) _

/-- What is left of a balanced text that is wrapped is a placeholder, without a directive. -/
theorem strip_mask_wrap {t : Text} (ht : IsToken t) (h : Balanced s) :
    Alias.strip (mask t (wrap s)) = placeholder t 0 := by
  have hbrace : '{' ∉ placeholder t 0 := (wordlike_placeholder ht).not_mem (by decide) 0
  have halias : Alias.pattern.find (placeholder t 0) = [] :=
    Pattern.find_of_not_mem Alias.read_eq_none hbrace
  rw [h.mask_wrap, Alias.strip, Alias.find, halias]
  rfl

theorem plans_wrap {t : Text} (ht : IsToken t) (h : Balanced s) :
    plans t (wrap s) contract aliases = [] := by
  have hbrace : '{' ∉ placeholder t 0 := (wordlike_placeholder ht).not_mem (by decide) 0
  rw [plans, strip_mask_wrap ht h, Directive.inclusions, Directive.collect, Directive.find,
    Pattern.find_of_not_mem Directive.read_eq_none hbrace]
  rfl

theorem assemble_wrap {t : Text} (ht : IsToken t) (h : Balanced s) :
    assemble (Alias.strip (mask t (wrap s))) (blocks t (wrap s)) [] = ⟨s, false, []⟩ := by
  have hsplice : (placeholder t 0).splice (List.map edit []) = placeholder t 0 := rfl
  rw [assemble, strip_mask_wrap ht h, hsplice, h.restore_wrap ht]
  rfl

/-- A balanced text that is wrapped comes out as it was, and the work on it does nothing but to
    draw a token. -/
theorem run_wrap_balanced (ht : IsToken (env.token d.drawn)) (h : Balanced s) :
    run env (depth + 1) (wrap s) contract aliases d =
      (.ok ⟨s, false, []⟩, { d with drawn := d.drawn + 1 }) := by
  have hstart := start_wrap balanced_nil h [] d
  rw [List.nil_append, List.append_nil] at hstart
  rw [run_eq_assembled, ownOutcomes, plans_wrap ht h, hstart, ← assemble_wrap ht h]
  rfl

/-- A text in which every closing bracket is answered.  Wrapped, it comes out as it was if its
    opening brackets are closed, too: without a call, and with nothing else at the desk changed
    than the number of tokens.  If one of them is left open, it never comes out as it was. -/
theorem run_wrap (ht : IsToken (env.token d.drawn)) (h : Answered s) :
    (unclosed s = [] →
      run env (depth + 1) (wrap s) contract aliases d =
        (.ok ⟨s, false, []⟩, { d with drawn := d.drawn + 1 })) ∧
    (unclosed s ≠ [] →
      ∀ r, (run env (depth + 1) (wrap s) contract aliases d).1 = .ok r → r.content ≠ s) := by
  constructor
  · intro hclosed
    exact run_wrap_balanced ht (h.balanced hclosed)
  · intro hopen r hrun hcontent
    obtain ⟨ts, hts⟩ := exists_filledIn (h.spans_wrap hopen) hrun
    rw [wrap_eq, List.append_assoc, hcontent] at hts
    exact filledIn_ne ts s closingTag hts.symm

end

/-- A balanced text with an include, a directive, a block and half a bracket at each end. -/
def enclosed : Text :=
  ("noparse\x7d\x7d{{include contract=A}}{{aliases p=A}}" ++
    "{{noparse}}{{chunk collection=c index=0}}{{/noparse}}\x7b\x7b").toList

theorem run_wrap_enclosed :
    unclosed enclosed = [] ∧
      run doubledPages.setting 2 (wrap enclosed) "C".toList OrderedMap.empty .new =
        (.ok ⟨enclosed, false, []⟩, { Desk.new with drawn := 1 }) := by
  have hanswered : Answered enclosed := by decide +kernel
  have hclosed : unclosed enclosed = [] := by decide +kernel
  exact ⟨hclosed, (run_wrap (isToken_token 0) hanswered).1 hclosed⟩

/-- An opening bracket that nothing closes, and an include behind it. -/
def halfOpen : Text := "open {{noparse}}, then {{include contract=A}}".toList

/-- No closing bracket of the text is unanswered, but when it is wrapped its include is called,
    and the brackets around it stay. -/
theorem run_wrap_halfOpen :
    Answered halfOpen ∧
      (run doubledPages.setting 2 (wrap halfOpen) "C".toList OrderedMap.empty .new).1 =
        .ok ⟨"{{noparse}}open {{noparse}}, then a{{/noparse}}".toList, false, ["A:||".toList]⟩ ∧
      (run doubledPages.setting 2 (wrap halfOpen) "C".toList OrderedMap.empty
        .new).2.exchange.calls.map Call.target = ["A".toList] := by
  decide +kernel

end Resolution
end PageAssembly
