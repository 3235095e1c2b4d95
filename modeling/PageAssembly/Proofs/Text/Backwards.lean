/-
  PageAssembly/Proofs/Text/Backwards.lean
  =======================================
  **Editing from the last place to the first.**

  An edit that is done leaves everything in front of it where it was.  So edits whose offsets
  count in the text as it was may be done one at a time, if the last one is done first.
  `splice_eq_replaceEach`: for edits that stand in order and apart, this gives what one walk over
  the text gives.

  Values that several readers find in one text come in several lists.  `eq_byStart` says when the
  lists, put together and sorted by their offsets, are one list that was found in order, and
  `filterMap_or_perm` that a reader which tries two others finds what the two find.
-/
import PageAssembly.Proofs.Text.Matches
import Mathlib.Data.List.Sort

namespace PageAssembly

/-! ### One edit at a time -/

namespace Text

/-- The text with the edits done one at a time, the last of the list first. -/
def replaceEach (s : Text) (es : List Edit) : Text := es.foldr Edit.apply s

/-- Up to the cursor the text is as it was, and from there on all edits are done. -/
theorem take_append_spliceFrom {s : Text} {es : List Edit}
    (hplaced : ∀ e ∈ es, e.start ≤ e.stop ∧ e.stop ≤ s.length)
    (hapart : es.Pairwise fun e f => e.stop ≤ f.start) {cursor : Nat}
    (hcursor : ∀ e ∈ es, cursor ≤ e.start) :
    s.take cursor ++ spliceFrom cursor (s.drop cursor) es = s.replaceEach es := by
  induction es generalizing cursor with
  | nil => exact List.take_append_drop cursor s
  | cons e es ih =>
    obtain ⟨hlater, hrest⟩ := List.pairwise_cons.1 hapart
    obtain ⟨hstart, hstop⟩ := hplaced e List.mem_cons_self
    have hle : cursor ≤ e.start := hcursor e List.mem_cons_self
    -- the later edits are done behind the place of `e`, and leave the text in front of it
    have htail := ih (fun f hf => hplaced f (List.mem_cons_of_mem e hf)) hrest hlater
    have hlength : (s.take e.stop).length = e.stop := List.length_take_of_le hstop
    have hbefore : (s.replaceEach es).take e.start = s.take e.start := by
      rw [← htail, List.take_append_of_le_length (by omega), List.take_take, Nat.min_eq_left hstart]
    have hbehind : (s.replaceEach es).drop e.stop = spliceFrom e.stop (s.drop e.stop) es := by
      rw [← htail, List.drop_left' hlength]
    have hfront : s.take cursor ++ (s.drop cursor).take (e.start - cursor) = s.take e.start := by
      rw [← List.take_add, Nat.add_sub_cancel' hle]
    have hdrop : (s.drop cursor).drop (e.stop - cursor) = s.drop e.stop := by
      rw [List.drop_drop, Nat.add_sub_cancel' (hle.trans hstart)]
    calc s.take cursor ++ spliceFrom cursor (s.drop cursor) (e :: es)
        = s.take e.start ++ e.replacement ++ spliceFrom e.stop (s.drop e.stop) es := by
          rw [spliceFrom, hdrop, ← List.append_assoc, ← List.append_assoc, hfront]
      _ = e.apply (s.replaceEach es) := by rw [Edit.apply, hbefore, hbehind]
      _ = s.replaceEach (e :: es) := rfl

/-- Edits in order and apart may be done in one walk, or one at a time from the last to the
    first. -/
theorem splice_eq_replaceEach {s : Text} {es : List Edit}
    (hplaced : ∀ e ∈ es, e.start ≤ e.stop ∧ e.stop ≤ s.length)
    (hapart : es.Pairwise fun e f => e.stop ≤ f.start) : s.splice es = s.replaceEach es := by
  have hstart := take_append_spliceFrom hplaced hapart fun e _ => Nat.zero_le e.start
  exact hstart

end Text

/-! ### Places in a text -/

namespace Located

variable {α β : Type}

/-- Values that were found in a text, in order: their offsets are those of their sources, and no
    two overlap. -/
structure Stand (s : Text) (ms : List (Located α)) : Prop where
  placed : ∀ m ∈ ms, m.start < m.stop ∧ m.stop ≤ s.length ∧ m.source = s.slice m.start m.stop
  apart : ms.Pairwise fun m n => m.stop ≤ n.start

namespace Stand

variable {s : Text} {ms : List (Located α)}

theorem filterMap (h : Stand s ms) (f : α → Option β) :
    Stand s (ms.filterMap (Located.filterMap f)) := by
  constructor
  · intro n hn
    obtain ⟨m, hm, hvalue⟩ := List.mem_filterMap.1 hn
    obtain ⟨b, -, rfl⟩ := Option.map_eq_some_iff.1 hvalue
    exact h.placed m hm
  · refine h.apart.filterMap _ fun m m' hle n hn n' hn' => ?_
    obtain ⟨b, -, rfl⟩ := Option.map_eq_some_iff.1 hn
    obtain ⟨b', -, rfl⟩ := Option.map_eq_some_iff.1 hn'
    exact hle

theorem pairwise_starts (h : Stand s ms) : ms.Pairwise fun m n => m.start < n.start := by
  refine h.apart.imp_of_mem fun {m n} hm _ hle => ?_
  exact Nat.lt_of_lt_of_le (h.placed m hm).1 hle

/-- Texts put in the places of the values in one walk, or one at a time from the last place to the
    first. -/
theorem splice (h : Stand s ms) (edit : Located α → Edit)
    (hedit : ∀ m, (edit m).start = m.start ∧ (edit m).stop = m.stop) :
    s.splice (ms.map edit) = s.replaceEach (ms.map edit) := by
  apply Text.splice_eq_replaceEach
  · intro e he
    obtain ⟨m, hm, rfl⟩ := List.mem_map.1 he
    obtain ⟨hpos, hstop, -⟩ := h.placed m hm
    rw [(hedit m).1, (hedit m).2]
    exact ⟨Nat.le_of_lt hpos, hstop⟩
  · rw [List.pairwise_map]
    refine h.apart.imp fun {m n} hle => ?_
    rwa [(hedit m).2, (hedit n).1]

end Stand

/-- What a search finds stands in the text. -/
theorem stand_find (p : Pattern α) (s : Text) : Stand s (p.find s) :=
  ⟨(p.scans_find s).placed, (p.scans_find s).apart⟩

/-! ### Several lists in one order -/

/-- The values in the order of the places where they start. -/
def byStart (ms : List (Located α)) : List (Located α) :=
  ms.mergeSort fun m n => decide (m.start ≤ n.start)

/-- A list that is in order already is what any arrangement of it is sorted to. -/
theorem eq_byStart {ms ns : List (Located α)} (h : ms.Pairwise fun m n => m.start < n.start)
    (hperm : ns.Perm ms) : ms = byStart ns := by
  have hsorted : (byStart ns).Pairwise fun m n => m.start ≤ n.start := by
    have hle : (byStart ns).Pairwise fun m n => decide (m.start ≤ n.start) = true := List.pairwise_mergeSort
      (fun _ _ _ hab hbc => decide_eq_true ((of_decide_eq_true hab).trans (of_decide_eq_true hbc)))
      (fun a b => by simpa using Nat.le_total a.start b.start) ns
    exact hle.imp of_decide_eq_true
  have hall : (byStart ns).Perm ms := (List.mergeSort_perm ns _).trans hperm
  have hnodup : (ms.map Located.start).Nodup := by
    rw [List.Nodup, List.pairwise_map]
    exact h.imp Nat.ne_of_lt
  refine hall.symm.eq_of_pairwise (fun m n hm hn hmn hnm => ?_) (h.imp Nat.le_of_lt) hsorted
  -- no two values of the list start at one place
  exact List.inj_on_of_nodup_map hnodup hm (hall.subset hn) (Nat.le_antisymm hmn hnm)

end Located

/-- A reader that tries two others, of which at most one finds something, finds what the two
    find. -/
theorem filterMap_or_perm {α β : Type} {f g : α → Option β} (h : ∀ a, (f a).isSome → g a = none)
    (ms : List α) :
    (ms.filterMap fun a => (f a).or (g a)).Perm (ms.filterMap f ++ ms.filterMap g) := by
  induction ms with
  | nil => exact List.Perm.refl []
  | cons a ms ih =>
    cases hf : f a with
    | some b =>
      have hg : g a = none := h a (by rw [hf]; rfl)
      rw [List.filterMap_cons_some (b := b) (by rw [hf]; rfl), List.filterMap_cons_some hf,
        List.filterMap_cons_none hg]
      exact ih.cons b
    | none =>
      cases hg : g a with
      | some b =>
        rw [List.filterMap_cons_some (b := b) (by rw [hf, hg]; rfl), List.filterMap_cons_none hf,
          List.filterMap_cons_some hg]
        exact (ih.cons b).trans List.perm_middle.symm
      | none =>
        rw [List.filterMap_cons_none (by rw [hf, hg]; rfl), List.filterMap_cons_none hf,
          List.filterMap_cons_none hg]
        exact ih

end PageAssembly
