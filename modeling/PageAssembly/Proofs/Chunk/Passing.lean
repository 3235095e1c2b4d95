/-
  PageAssembly/Proofs/Chunk/Passing.lean
  ======================================
  **Texts that the search for an id passes over.**

  The search for the placeholders of an id goes over the whole document, page text and contents
  that are in place already.  It matches in none of them, nor across their ends, exactly
  if they leave no opening tag of a division open and hold none that names the id
  (`readWithId_none_iff`).  Texts like these may be put one behind the other (`Passes.append`),
  and a text without angle brackets is one for any id.
-/
import PageAssembly.Proofs.Chunk.Placeholders
import PageAssembly.Proofs.Markup.Openings
import PageAssembly.Proofs.Verbatim.Restoring
import Mathlib.Data.Set.Defs

namespace PageAssembly.Placeholder

open Pattern Markup

/-- The opening tag names the id. -/
def Names (id a : Text) : Prop := mentions (idField id) a = true

instance (id : Text) : DecidablePred (Names id) :=
  fun a => inferInstanceAs (Decidable (mentions (idField id) a = true))

/-- The search for these ids passes over the text, whatever stands behind it. -/
def Passes (ids : Set Text) (t : Text) : Prop :=
  ∀ id ∈ ids, Closed (· == ·) t ∧ Lacks (· == ·) (Names id) t

/-- The search for these ids finds nothing in the text. -/
def Ends (ids : Set Text) (t : Text) : Prop := ∀ id ∈ ids, (withId id).find t = []

section

variable {id s t r : Text} {ids : Set Text}

theorem opening_of_readWithId {u : Unit} (h : readWithId id s = some (u, r)) :
    ∃ a, opening? (· == ·) s = some (some a) ∧ Names id a := by
  simp only [readWithId, Option.bind_eq_bind, Option.bind_eq_some_iff] at h
  obtain ⟨i, hi, h⟩ := h
  have hi : Text.expectBy (· == ·) "<div".toList s = some i := hi
  split at h
  · cases h
  · next c v hv =>
    split at h
    · next hnames =>
      refine ⟨i.takeWhile (· != '>'), ?_, hnames⟩
      have hclosed : '>' ∈ i := by
        by_contra hopen
        have hall : i.dropWhile (· != '>') = [] :=
          List.dropWhile_eq_nil_iff.2 fun c hc => bne_iff_ne.2 fun heq => hopen (heq ▸ hc)
        rw [hall] at hv
        cases hv
      rw [opening?, hi]
      exact congrArg some (if_pos hclosed)
    · cases h

theorem readWithId_eq_none_of_opening (h : ∀ a, opening? (· == ·) s = some (some a) → ¬ Names id a) :
    readWithId id s = none := by
  rw [Option.eq_none_iff_forall_ne_some]
  rintro ⟨u, r⟩ hr
  obtain ⟨a, ha, hnames⟩ := opening_of_readWithId hr
  exact h a ha hnames

/-- A division whose opening tag names the id is read, wherever it is closed. -/
theorem exists_read (id : Text) {i : Text} (hclosed : '>' ∈ i) (hnames : Names id (i.takeWhile (· != '>'))) :
    ∃ x, readWithId id ("<div".toList ++ i ++ "</div>".toList) = some x := by
  obtain ⟨x, y, rfl, hx⟩ := List.eq_append_cons_of_mem hclosed
  have hall : ∀ c ∈ x, (c != '>') = true := fun c hc => bne_iff_ne.2 fun heq => hx (heq ▸ hc)
  obtain ⟨before, after, hcut⟩ := Text.cut_append "</div>".toList y []
  rw [List.append_nil] at hcut
  have htake : (x ++ '>' :: y).takeWhile (· != '>') = x := by
    rw [List.takeWhile_append_of_pos hall, List.takeWhile_cons_of_neg (by simp), List.append_nil]
  rw [htake] at hnames
  refine ⟨((), after), ?_⟩
  rw [List.append_assoc, readWithId, Text.expect_append, Option.bind_eq_bind, Option.bind_some, List.append_assoc,
    List.cons_append, List.dropWhile_append_of_pos hall, List.takeWhile_append_of_pos hall,
    List.dropWhile_cons_of_neg (by simp), List.takeWhile_cons_of_neg (by simp), List.append_nil]
  change ite (Names id x) _ none = _
  rw [if_pos hnames, hcut]
  rfl

/-- An opening tag that is left open may still come to name the id. -/
theorem exists_read_open (id : Text) {i : Text} (hopen : '>' ∉ i) :
    ∃ r x, readWithId id ("<div".toList ++ i ++ r) = some x := by
  have hfield : '>' ∉ idField id := by
    have hname : '>' ∉ idName ++ ['='] := by decide
    have hvalue := Markup.not_mem_escapeValue (c := '>') (by decide) id
    intro hmem
    rcases List.mem_append.1 (idField_eq id ▸ hmem) with hmem | hmem
    · exact hname hmem
    · simp [hvalue] at hmem
  have hall : ∀ c ∈ i ++ ' ' :: idField id, (c != '>') = true := by
    intro c hc
    rw [bne_iff_ne]
    rintro rfl
    simp [hopen, hfield] at hc
  have htake : (i ++ ' ' :: idField id ++ ['>']).takeWhile (· != '>') = i ++ ' ' :: idField id := by
    rw [List.takeWhile_append_of_pos hall]
    exact List.append_nil _
  obtain ⟨x, hx⟩ := exists_read id (List.mem_append_right (i ++ ' ' :: idField id) (List.mem_singleton_self '>')) (by
    rw [htake]
    exact mentions_iff.2 ⟨i, ' ', [], by simp, by decide⟩)
  exact ⟨' ' :: (idField id ++ ['>'] ++ "</div>".toList), x, by simpa using hx⟩

/-- Where a search could match if only the text went on in some way, an opening tag is left open
    or names the id. -/
theorem readWithId_none_iff :
    (∀ z, z ≠ [] → z <:+ t → ∀ r, readWithId id (z ++ r) = none) ↔
      Closed (· == ·) t ∧ Lacks (· == ·) (Names id) t := by
  constructor
  · intro h
    refine ⟨closed_of_suffix fun z hz hopen => ?_, lacks_of_suffix fun z a hz ha hnames => ?_⟩
    · have hne : z ≠ [] := by
        rintro rfl
        cases hopen
      have hread : ∃ r x, readWithId id (z ++ r) = some x := by
        rcases cases_of_opening_open hopen with ⟨i, rfl, hi⟩ | ⟨v, hv⟩
        · exact exists_read_open id hi
        · obtain ⟨r, x, hx⟩ := exists_read_open id List.not_mem_nil
          refine ⟨v ++ r, x, ?_⟩
          rw [← List.append_assoc, hv]
          exact hx
      obtain ⟨r, x, hx⟩ := hread
      rw [h z hne hz r] at hx
      cases hx
    · obtain ⟨i, hi, hclosed, rfl⟩ := opening?_eq_some ha
      obtain rfl : z = "<div".toList ++ i := Text.expect_eq_some_iff.1 hi
      obtain ⟨x, hx⟩ := exists_read id hclosed hnames
      rw [h _ (by simp) hz] at hx
      cases hx
  · rintro ⟨hclosed, hlacks⟩ z hne hz r
    refine readWithId_eq_none_of_opening fun a ha => ?_
    rcases hclosed.cases hz hne r with hnone | ⟨b, hb, hsome⟩
    · rw [hnone] at ha
      cases ha
    · rw [hsome] at ha
      cases ha
      exact hlacks.suffix hz hb

theorem pieces_withId_stretch (h : Passes ids t) (hid : id ∈ ids) (r : Text) :
    (withId id).pieces (t ++ r) = t.map Piece.plain ++ (withId id).pieces r :=
  pieces_append_of_none (withId id) fun z hne hz => readWithId_none_iff.2 (h id hid) z hne hz r

theorem Passes.append (hs : Passes ids s) (ht : Passes ids t) : Passes ids (s ++ t) :=
  fun id hid => ⟨(hs id hid).1.append (ht id hid).1, .append (hs id hid).1 (hs id hid).2 (ht id hid).2⟩

theorem passes_of_not_mem (h : '<' ∉ t) : Passes ids t :=
  fun _ _ => ⟨closed_of_not_mem exact_bracket h, lacks_of_not_mem exact_bracket h⟩

theorem passes_flatMap {α : Type} {f : α → Text} {as : List α} (h : ∀ a ∈ as, Passes ids (f a)) :
    Passes ids (as.flatMap f) :=
  Text.of_flatMap (passes_of_not_mem List.not_mem_nil) (fun _ _ => Passes.append) h

end

end PageAssembly.Placeholder
