/-
  PageAssembly/Proofs/Verbatim/Matching.lean
  ==========================================
  **Which pairs of brackets are blocks.**

  A closing bracket closes the nearest bracket in front of it that is still open; this gives the
  pairs of a page (`pairs`), and the opening brackets that nothing closes (`unclosed`).  Blocks are
  found with a counter instead.  The counter comes back to nothing exactly where a pair closes and
  no other bracket is open, so it misses a pair for two reasons: another pair encloses it, or an
  opening bracket in front of it is never closed.  So the blocks are the outermost pairs in front
  of all unclosed brackets (`spans_eq_guarded`), and not the outermost pairs.

  Below, a stack holds the brackets that are open, the last one first.  In front of the brackets
  that are still to come it keeps the order of the page (`InLine`).
-/
import PageAssembly.Proofs.Text.Weaving
import PageAssembly.Verbatim

namespace PageAssembly.Verbatim

/-! ### Matching brackets -/

/-- A closing bracket with the opening bracket that it closes. -/
structure Pair where
  opening : Located Bracket
  closing : Located Bracket
deriving DecidableEq, Repr

namespace Pair

def span (p : Pair) : Span := ⟨p.opening.start, p.opening.stop, p.closing.start, p.closing.stop⟩

/-- The pair `p` stands inside of the pair `q`. -/
def Encloses (q p : Pair) : Prop :=
  q.opening.start < p.opening.start ∧ p.closing.start < q.closing.start

instance (q p : Pair) : Decidable (q.Encloses p) := inferInstanceAs (Decidable (_ ∧ _))

end Pair

/-- The pairs among the brackets, in the order in which they are closed. -/
def matched : List (Located Bracket) → List (Located Bracket) → List Pair
  | _, [] => []
  | stack, b :: bs =>
    match b.value, stack with
    | .opening, stack => matched (b :: stack) bs
    | .closing, [] => matched [] bs
    | .closing, o :: stack => ⟨o, b⟩ :: matched stack bs

/-- The opening brackets that are open at the end. -/
def leftOpen : List (Located Bracket) → List (Located Bracket) → List (Located Bracket)
  | stack, [] => stack
  | stack, b :: bs =>
    match b.value, stack with
    | .opening, stack => leftOpen (b :: stack) bs
    | .closing, [] => leftOpen [] bs
    | .closing, _ :: stack => leftOpen stack bs

/-- The pairs of brackets of a page. -/
def pairs (s : Text) : List Pair := matched [] (pattern.find s)

/-- The opening brackets of a page that nothing closes. -/
def unclosed (s : Text) : List (Located Bracket) := leftOpen [] (pattern.find s)

/-- The pairs that stand in no other pair. -/
def outermostPairs (s : Text) : List Pair :=
  (pairs s).filter fun p => ∀ q ∈ pairs s, ¬ q.Encloses p

/-- The outermost pairs with no unclosed bracket in front of them. -/
def guarded (s : Text) : List Pair :=
  (outermostPairs s).filter fun p => ∀ b ∈ unclosed s, p.opening.start < b.start

/-! ### The stack while a pair closes -/

/-- The pairs among the brackets, each with the brackets that are open around it. -/
def closings : List (Located Bracket) → List (Located Bracket) → List (Pair × List (Located Bracket))
  | _, [] => []
  | stack, b :: bs =>
    match b.value, stack with
    | .opening, stack => closings (b :: stack) bs
    | .closing, [] => closings [] bs
    | .closing, o :: stack => (⟨o, b⟩, stack) :: closings stack bs

section

variable {b o : Located Bracket} (bs stack : List (Located Bracket))

theorem closings_opening (hb : b.value = .opening) :
    closings stack (b :: bs) = closings (b :: stack) bs ∧ matched stack (b :: bs) = matched (b :: stack) bs ∧
      leftOpen stack (b :: bs) = leftOpen (b :: stack) bs := by
  simp [closings, matched, leftOpen, hb]

theorem closings_stray (hb : b.value = .closing) :
    closings [] (b :: bs) = closings [] bs ∧ matched [] (b :: bs) = matched [] bs ∧
      leftOpen [] (b :: bs) = leftOpen [] bs := by
  simp [closings, matched, leftOpen, hb]

theorem closings_closing (hb : b.value = .closing) :
    closings (o :: stack) (b :: bs) = (⟨o, b⟩, stack) :: closings stack bs ∧
      matched (o :: stack) (b :: bs) = ⟨o, b⟩ :: matched stack bs ∧
      leftOpen (o :: stack) (b :: bs) = leftOpen stack bs := by
  simp [closings, matched, leftOpen, hb]

end

/-- What holds of all brackets that are still to come is shown bracket by bracket: one is opened,
    one closes nothing, or one closes the last that is open. -/
theorem brackets_induction {P : List (Located Bracket) → List (Located Bracket) → Prop}
    (nil : ∀ stack, P stack [])
    (opening : ∀ stack b bs, b.value = .opening → P (b :: stack) bs → P stack (b :: bs))
    (stray : ∀ b bs, b.value = .closing → P [] bs → P [] (b :: bs))
    (closing : ∀ o stack b bs, b.value = .closing → P stack bs → P (o :: stack) (b :: bs))
    (stack bs : List (Located Bracket)) : P stack bs := by
  induction bs generalizing stack with
  | nil => exact nil stack
  | cons b bs ih =>
    cases hb : b.value with
    | opening => exact opening stack b bs hb (ih (b :: stack))
    | closing =>
      cases stack with
      | nil => exact stray b bs hb (ih [])
      | cons o stack => exact closing o stack b bs hb (ih stack)

theorem map_fst_closings (stack bs : List (Located Bracket)) :
    (closings stack bs).map Prod.fst = matched stack bs := by
  induction stack, bs using brackets_induction with
  | nil => rfl
  | opening stack b bs hb ih => simp [closings_opening bs stack hb, ih]
  | stray b bs hb ih => simp [closings_stray bs hb, ih]
  | closing o stack b bs hb ih => simp [closings_closing bs stack hb, ih]

/-- The counter finds the pairs around which nothing is open; `opened` is where the first bracket
    on the stack stands. -/
theorem outermost_eq_closings (stack bs : List (Located Bracket)) {opened : Nat × Nat}
    (hopened : ∀ o ∈ stack.getLast?, opened = (o.start, o.stop)) :
    outermost stack.length opened bs =
      ((closings stack bs).filter fun e => e.2 = []).map fun e => e.1.span := by
  induction stack, bs using brackets_induction generalizing opened with
  | nil => rfl
  | opening stack b bs hb ih =>
    rw [(closings_opening bs stack hb).1]
    cases stack with
    | nil =>
      simp only [List.length_nil, outermost, hb]
      exact ih (by simp)
    | cons o stack =>
      simp only [List.length_cons, outermost, hb]
      exact ih (by simpa using hopened)
  | stray b bs hb ih =>
    rw [(closings_stray bs hb).1]
    simp only [List.length_nil, outermost, hb]
    exact ih hopened
  | closing o stack b bs hb ih =>
    rw [(closings_closing bs stack hb).1]
    cases stack with
    | nil =>
      obtain rfl : opened = (o.start, o.stop) := hopened o rfl
      simp only [List.length_cons, List.length_nil, outermost, hb, List.filter_cons]
      exact congrArg (_ :: ·) (ih (by simp))
    | cons o' stack =>
      simp only [List.length_cons, outermost, hb, List.filter_cons]
      exact ih (by simpa using hopened)

/-! ### Open brackets and their places -/

/-- The brackets that are open and those to come stand in the order of the page. -/
def InLine (stack bs : List (Located Bracket)) : Prop :=
  (stack.reverse ++ bs).Pairwise fun a b => a.start < b.start

section

variable {b o : Located Bracket} {bs stack : List (Located Bracket)}

theorem InLine.push (h : InLine stack (b :: bs)) : InLine (b :: stack) bs := by
  rwa [InLine, List.reverse_cons, List.append_assoc]

theorem InLine.skip (h : InLine stack (b :: bs)) : InLine stack bs :=
  h.sublist ((List.sublist_cons_self b bs).append_left _)

theorem InLine.pop (h : InLine (o :: stack) (b :: bs)) : InLine stack bs := by
  have htail := h.skip
  rw [InLine, List.reverse_cons, List.append_assoc] at htail
  exact htail.sublist ((List.sublist_cons_self o bs).append_left _)

theorem InLine.lt_of_mem (h : InLine stack (b :: bs)) {c : Located Bracket} (hc : c ∈ bs) :
    b.start < c.start :=
  (List.pairwise_cons.1 (List.pairwise_append.1 h).2.1).1 c hc

theorem InLine.top_lt (h : InLine (o :: stack) bs) {c : Located Bracket} (hc : c ∈ bs) :
    o.start < c.start :=
  (List.pairwise_append.1 h).2.2 o (by simp) c hc

theorem InLine.lt_top (h : InLine (o :: stack) bs) {a : Located Bracket} (ha : a ∈ stack) :
    a.start < o.start := by
  have hstack := (List.pairwise_append.1 h).1
  rw [List.reverse_cons] at hstack
  exact (List.pairwise_append.1 hstack).2.2 a (List.mem_reverse.2 ha) o List.mem_cons_self

end

/-- A bracket that is open is closed later, or never. -/
theorem mem_leftOpen_or_matched (stack bs : List (Located Bracket)) {a : Located Bracket}
    (ha : a ∈ stack) : a ∈ leftOpen stack bs ∨ ∃ c ∈ bs, ⟨a, c⟩ ∈ matched stack bs := by
  induction stack, bs using brackets_induction with
  | nil => exact Or.inl ha
  | opening stack b bs hb ih =>
    rw [(closings_opening bs stack hb).2.1, (closings_opening bs stack hb).2.2]
    rcases ih (List.mem_cons_of_mem b ha) with hopen | ⟨c, hc, hpair⟩
    · exact Or.inl hopen
    · exact Or.inr ⟨c, List.mem_cons_of_mem b hc, hpair⟩
  | stray b bs hb ih => cases ha
  | closing o stack b bs hb ih =>
    rw [(closings_closing bs stack hb).2.1, (closings_closing bs stack hb).2.2]
    rcases List.mem_cons.1 ha with rfl | ha
    · exact Or.inr ⟨b, List.mem_cons_self, List.mem_cons_self⟩
    · rcases ih ha with hopen | ⟨c, hc, hpair⟩
      · exact Or.inl hopen
      · exact Or.inr ⟨c, List.mem_cons_of_mem b hc, List.mem_cons_of_mem _ hpair⟩

theorem mem_of_mem_matched (stack bs : List (Located Bracket)) {p : Pair} (hp : p ∈ matched stack bs) :
    (p.opening ∈ stack ∨ p.opening ∈ bs) ∧ p.closing ∈ bs := by
  induction stack, bs using brackets_induction with
  | nil => cases hp
  | opening stack b bs hb ih =>
    rw [(closings_opening bs stack hb).2.1] at hp
    obtain ⟨hopening, hclosing⟩ := ih hp
    refine ⟨?_, List.mem_cons_of_mem b hclosing⟩
    rcases hopening with hopening | hopening
    · rcases List.mem_cons.1 hopening with heq | hopening
      · exact Or.inr (heq ▸ List.mem_cons_self)
      · exact Or.inl hopening
    · exact Or.inr (List.mem_cons_of_mem b hopening)
  | stray b bs hb ih =>
    rw [(closings_stray bs hb).2.1] at hp
    obtain ⟨hopening, hclosing⟩ := ih hp
    exact ⟨hopening.imp_right (List.mem_cons_of_mem b), List.mem_cons_of_mem b hclosing⟩
  | closing o stack b bs hb ih =>
    rw [(closings_closing bs stack hb).2.1] at hp
    rcases List.mem_cons.1 hp with rfl | hp
    · exact ⟨Or.inl List.mem_cons_self, List.mem_cons_self⟩
    · obtain ⟨hopening, hclosing⟩ := ih hp
      exact ⟨hopening.imp (List.mem_cons_of_mem o) (List.mem_cons_of_mem b),
        List.mem_cons_of_mem b hclosing⟩

theorem mem_of_mem_leftOpen (stack bs : List (Located Bracket)) {a : Located Bracket}
    (ha : a ∈ leftOpen stack bs) : a ∈ stack ∨ a ∈ bs := by
  induction stack, bs using brackets_induction with
  | nil => exact Or.inl ha
  | opening stack b bs hb ih =>
    rw [(closings_opening bs stack hb).2.2] at ha
    rcases ih ha with ha | ha
    · rcases List.mem_cons.1 ha with rfl | ha
      · exact Or.inr List.mem_cons_self
      · exact Or.inl ha
    · exact Or.inr (List.mem_cons_of_mem b ha)
  | stray b bs hb ih =>
    rw [(closings_stray bs hb).2.2] at ha
    exact (ih ha).imp_right (List.mem_cons_of_mem b)
  | closing o stack b bs hb ih =>
    rw [(closings_closing bs stack hb).2.2] at ha
    exact (ih ha).imp (List.mem_cons_of_mem o) (List.mem_cons_of_mem b)

/-! ### Around which pairs nothing is open -/

/-- A bracket that is open around a pair belongs to a pair that encloses it, or is never closed. -/
theorem enclosed_or_leftOpen {stack bs : List (Located Bracket)} (h : InLine stack bs)
    {e : Pair × List (Located Bracket)} (he : e ∈ closings stack bs) {a : Located Bracket}
    (ha : a ∈ e.2) :
    (∃ q ∈ matched stack bs, q.Encloses e.1) ∨
      ∃ x ∈ leftOpen stack bs, x.start < e.1.opening.start := by
  induction stack, bs using brackets_induction with
  | nil => cases he
  | opening stack b bs hb ih =>
    rw [(closings_opening bs stack hb).1] at he
    rw [(closings_opening bs stack hb).2.1, (closings_opening bs stack hb).2.2]
    exact ih h.push he
  | stray b bs hb ih =>
    rw [(closings_stray bs hb).1] at he
    rw [(closings_stray bs hb).2.1, (closings_stray bs hb).2.2]
    exact ih h.skip he
  | closing o stack b bs hb ih =>
    rw [(closings_closing bs stack hb).1] at he
    rw [(closings_closing bs stack hb).2.1, (closings_closing bs stack hb).2.2]
    rcases List.mem_cons.1 he with rfl | he
    · -- the pair closes here, and the bracket stays open around it
      have hstart : a.start < o.start := h.lt_top ha
      rcases mem_leftOpen_or_matched stack bs ha with hopen | ⟨c, hc, hpair⟩
      · exact Or.inr ⟨a, hopen, hstart⟩
      · exact Or.inl ⟨⟨a, c⟩, List.mem_cons_of_mem _ hpair, hstart, h.lt_of_mem hc⟩
    · rcases ih h.pop he with ⟨q, hq, hencloses⟩ | hopen
      · exact Or.inl ⟨q, List.mem_cons_of_mem _ hq, hencloses⟩
      · exact Or.inr hopen

/-- Where nothing is open around a pair, no pair encloses it, and no bracket in front of it is left
    open. -/
theorem outermost_of_nil {stack bs : List (Located Bracket)} (h : InLine stack bs)
    {e : Pair × List (Located Bracket)} (he : e ∈ closings stack bs) (hnil : e.2 = []) :
    (∀ q ∈ matched stack bs, ¬ q.Encloses e.1) ∧ ∀ x ∈ leftOpen stack bs, e.1.opening.start < x.start := by
  induction stack, bs using brackets_induction with
  | nil => cases he
  | opening stack b bs hb ih =>
    rw [(closings_opening bs stack hb).1] at he
    rw [(closings_opening bs stack hb).2.1, (closings_opening bs stack hb).2.2]
    exact ih h.push he
  | stray b bs hb ih =>
    rw [(closings_stray bs hb).1] at he
    rw [(closings_stray bs hb).2.1, (closings_stray bs hb).2.2]
    exact ih h.skip he
  | closing o stack b bs hb ih =>
    rw [(closings_closing bs stack hb).1] at he
    rw [(closings_closing bs stack hb).2.1, (closings_closing bs stack hb).2.2]
    rcases List.mem_cons.1 he with rfl | he
    · -- all that comes later stands behind this pair
      obtain rfl : stack = [] := hnil
      constructor
      · intro q hq hencloses
        rcases List.mem_cons.1 hq with rfl | hq
        · exact Nat.lt_irrefl _ hencloses.1
        · rcases (mem_of_mem_matched [] bs hq).1 with hstack | hbs
          · cases hstack
          · exact Nat.lt_asymm hencloses.1 (h.skip.top_lt hbs)
      · intro x hx
        rcases mem_of_mem_leftOpen [] bs hx with hstack | hbs
        · cases hstack
        · exact h.skip.top_lt hbs
    · obtain ⟨hpairs, hopen⟩ := ih h.pop he
      refine ⟨?_, hopen⟩
      intro q hq hencloses
      rcases List.mem_cons.1 hq with rfl | hq
      · -- this pair is closed in front of the other
        have hmem : e.1 ∈ matched stack bs := map_fst_closings stack bs ▸ List.mem_map_of_mem he
        exact Nat.lt_asymm hencloses.2 (h.lt_of_mem (mem_of_mem_matched stack bs hmem).2)
      · exact hpairs q hq hencloses

/-- Nothing is open around a pair of a page exactly if it is guarded. -/
theorem nil_iff_guarded {s : Text} {e : Pair × List (Located Bracket)}
    (he : e ∈ closings [] (pattern.find s)) :
    e.2 = [] ↔ (∀ q ∈ pairs s, ¬ q.Encloses e.1) ∧ ∀ x ∈ unclosed s, e.1.opening.start < x.start := by
  have hline : InLine [] (pattern.find s) := Pattern.pairwise_starts_find pattern s
  constructor
  · exact outermost_of_nil hline he
  · rintro ⟨hpairs, hopen⟩
    apply List.eq_nil_iff_forall_not_mem.2
    intro a ha
    rcases enclosed_or_leftOpen hline he ha with ⟨q, hq, hencloses⟩ | ⟨x, hx, hstart⟩
    · exact hpairs q hq hencloses
    · exact Nat.lt_asymm hstart (hopen x hx)

/-- The blocks of a page are the outermost pairs in front of all unclosed brackets. -/
theorem spans_eq_guarded (s : Text) : spans s = (guarded s).map Pair.span := by
  have hcounter : spans s = ((closings [] (pattern.find s)).filter fun e => e.2 = []).map fun e => e.1.span :=
    outermost_eq_closings [] (pattern.find s) (by simp)
  have hguarded : guarded s =
      ((closings [] (pattern.find s)).filter fun e => e.2 = []).map Prod.fst := by
    rw [guarded, outermostPairs, List.filter_filter, pairs, ← map_fst_closings, List.filter_map]
    congr 1
    apply List.filter_congr
    intro e he
    apply Bool.eq_iff_iff.2
    rw [Function.comp, Bool.and_eq_true, decide_eq_true_iff, decide_eq_true_iff, decide_eq_true_iff,
      nil_iff_guarded he, map_fst_closings]
    exact and_comm
  rw [hcounter, hguarded, List.map_map]
  rfl

/-- All outermost pairs are blocks exactly if each stands in front of all unclosed brackets. -/
theorem spans_eq_outermostPairs_iff (s : Text) :
    spans s = (outermostPairs s).map Pair.span ↔
      ∀ p ∈ outermostPairs s, ∀ b ∈ unclosed s, p.opening.start < b.start := by
  rw [spans_eq_guarded]
  constructor
  · intro h
    have hlength := congrArg List.length h
    rw [List.length_map, List.length_map] at hlength
    have hall := List.filter_sublist.eq_of_length hlength
    intro p hp
    simpa using List.filter_eq_self.1 hall p hp
  · intro h
    have hall : guarded s = outermostPairs s := List.filter_eq_self.2 fun p hp => by simpa using h p hp
    rw [hall]

end PageAssembly.Verbatim
