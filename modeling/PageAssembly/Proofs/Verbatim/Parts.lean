/-
  PageAssembly/Proofs/Verbatim/Parts.lean
  =======================================
  **A page, block by block.**

  A page is stray text, a block, and so on, and at last stray text in which no block stands
  (`parted`).  The stray text in front of a block holds closing brackets only, so nothing is
  open behind it; the stray text at the end may open what it never closes.

  What is said of all pages is proved along these parts: one case for the text at the end, and
  one for a block with the parts behind it.  The first such statement is that nothing is left to
  protect where the blocks are veiled (`spans_veiled`).
-/
import PageAssembly.Proofs.Verbatim.Stretches
import PageAssembly.Proofs.Verbatim.Wrapping

namespace PageAssembly

/-! ### Edits behind a text -/

/-- The edit, further back by `k`. -/
def Edit.later (k : Nat) (e : Edit) : Edit := { e with start := k + e.start, stop := k + e.stop }

namespace Text

theorem spliceFrom_later (k cursor : Nat) (s : Text) (es : List Edit) :
    spliceFrom (k + cursor) s (es.map (Edit.later k)) = spliceFrom cursor s es := by
  induction es generalizing cursor s with
  | nil => rfl
  | cons e es ih =>
    simp only [List.map_cons, spliceFrom, Edit.later, Nat.add_sub_add_left]
    rw [← ih e.stop]

theorem splice_later (a s : Text) (es : List Edit) :
    splice (a ++ s) (es.map (Edit.later a.length)) = a ++ splice s es := by
  cases es with
  | nil => rfl
  | cons e es =>
    simp only [splice, List.map_cons, spliceFrom, Edit.later, Nat.sub_zero, List.take_length_add_append,
      List.drop_length_add_append, spliceFrom_later, List.append_assoc]

/-- An edit, and others behind the place of it. -/
theorem splice_cons_later (a b s t : Text) (es : List Edit) :
    splice (a ++ (b ++ s)) (⟨a.length, a.length + b.length, t⟩ :: es.map (Edit.later (a.length + b.length))) =
      a ++ (t ++ splice s es) := by
  have hdrop : (a ++ (b ++ s)).drop (a.length + b.length) = s := by
    rw [List.drop_length_add_append, List.drop_left]
  have hrest := spliceFrom_later (a.length + b.length) 0 s es
  rw [Nat.add_zero] at hrest
  simp only [splice, spliceFrom, Nat.sub_zero, List.take_left, hdrop, hrest, List.append_assoc]

end Text

namespace Verbatim

open Pattern (values locate)

/-! ### Cutting a page at a bracket -/

/-- A page is cut around a bracket into texts whose pieces are those on either side. -/
theorem exists_cut {s w : Text} {b : Bracket} {ps qs : List (Piece Bracket)}
    (h : pattern.pieces s = ps ++ .hit w b :: qs) :
    ∃ z r, s = z ++ (w ++ r) ∧ IsBracket b w ∧ pattern.pieces z = ps ∧ pattern.pieces r = qs := by
  induction ps generalizing s with
  | nil =>
    rcases Pattern.pieces_eq_cons h with ⟨c, r, hpiece, -⟩ | ⟨w', b', r, hpiece, hs, hread, hqs⟩
    · cases hpiece
    · cases hpiece
      obtain ⟨u, hu, hs'⟩ := exists_isBracket hread
      obtain rfl : w = u := List.append_cancel_right (hs.symm.trans hs')
      exact ⟨[], r, hs, hu, rfl, hqs⟩
  | cons x ps ih =>
    rcases Pattern.pieces_eq_cons h with ⟨c, s', rfl, rfl, hread, hs'⟩ | ⟨u, a, s', rfl, rfl, hread, hs'⟩
    · obtain ⟨z, r, rfl, hw, rfl, rfl⟩ := ih hs'
      refine ⟨c :: z, r, rfl, hw, ?_, rfl⟩
      -- nothing is read at the character, and the bracket behind it does not matter
      obtain ⟨n, -, rfl⟩ := hw
      have hjoint := readBracket_append_opening (List.cons_ne_nil c z) (b.slash ++ n ++ ['}', '}'] ++ r)
      have hnone : readBracket (c :: z) = none := Option.map_eq_none_iff.1 (hjoint.symm.trans hread)
      exact pattern.pieces_cons_none hnone
    · obtain ⟨z, r, rfl, hw, rfl, rfl⟩ := ih hs'
      refine ⟨u ++ z, r, by rw [List.append_assoc], hw, ?_, rfl⟩
      obtain ⟨v, hv, htext⟩ := exists_isBracket hread
      obtain rfl : u = v := List.append_cancel_right htext
      exact pattern.pieces_append (hv.read z)

theorem balanced_of_values {s : Text} (h : depthAfter 0 (values (pattern.pieces s)) = some 0) :
    Balanced s := by
  rw [Balanced, Pattern.find, Pattern.map_value_locate]
  exact h

/-! ### The first block -/

/-- Inside of a block, either the bracket that closes it is found, or there is no further block. -/
theorem exists_closing (ps : List (Piece Bracket)) (d : Nat) :
    (∀ offset opened, outermost (d + 1) opened (locate offset ps) = []) ∨
      ∃ ms c qs, ps = ms ++ .hit c .closing :: qs ∧ depthAfter d (values ms) = some 0 := by
  induction ps generalizing d with
  | nil => exact Or.inl fun _ _ => rfl
  | cons x ps ih =>
    cases x with
    | plain ch =>
      rcases ih d with hnone | ⟨ms, c, qs, rfl, hms⟩
      · exact Or.inl fun offset opened => hnone (offset + 1) opened
      · exact Or.inr ⟨.plain ch :: ms, c, qs, rfl, hms⟩
    | hit w b =>
      cases b with
      | opening =>
        rcases ih (d + 1) with hnone | ⟨ms, c, qs, rfl, hms⟩
        · exact Or.inl fun offset opened => hnone (offset + w.length) opened
        · exact Or.inr ⟨.hit w .opening :: ms, c, qs, rfl, hms⟩
      | closing =>
        cases d with
        | zero => exact Or.inr ⟨[], w, ps, rfl, rfl⟩
        | succ d =>
          rcases ih d with hnone | ⟨ms, c, qs, rfl, hms⟩
          · exact Or.inl fun offset opened => hnone (offset + w.length) opened
          · exact Or.inr ⟨.hit w .closing :: ms, c, qs, rfl, hms⟩

/-- Either there is no block, or the first one stands behind closing brackets. -/
theorem exists_first (ps : List (Piece Bracket)) :
    (∀ offset opened, outermost 0 opened (locate offset ps) = []) ∨
      ∃ zs o ms c qs, ps = zs ++ .hit o .opening :: (ms ++ .hit c .closing :: qs) ∧
        (∀ b ∈ values zs, b = .closing) ∧ depthAfter 0 (values ms) = some 0 := by
  induction ps with
  | nil => exact Or.inl fun _ _ => rfl
  | cons x ps ih =>
    cases x with
    | plain ch =>
      rcases ih with hnone | ⟨zs, o, ms, c, qs, rfl, hzs, hms⟩
      · exact Or.inl fun offset opened => hnone (offset + 1) opened
      · exact Or.inr ⟨.plain ch :: zs, o, ms, c, qs, rfl, hzs, hms⟩
    | hit w b =>
      cases b with
      | opening =>
        rcases exists_closing ps 0 with hnone | ⟨ms, c, qs, rfl, hms⟩
        · exact Or.inl fun offset _ => hnone (offset + w.length) (offset, offset + w.length)
        · exact Or.inr ⟨[], w, ms, c, qs, rfl, by simp [values], hms⟩
      | closing =>
        rcases ih with hnone | ⟨zs, o, ms, c, qs, rfl, hzs, hms⟩
        · exact Or.inl fun offset opened => hnone (offset + w.length) opened
        · refine Or.inr ⟨.hit w .closing :: zs, o, ms, c, qs, rfl, ?_, hms⟩
          rw [Pattern.values_hit, List.forall_mem_cons]
          exact ⟨rfl, hzs⟩

/-- The text holds no block, and nothing is open behind it. -/
structure Stray (z : Text) : Prop where
  settled : Settled z
  spans_eq : spans z = []

theorem stray_of_closings {z : Text} (h : ∀ b ∈ values (pattern.pieces z), b = .closing) : Stray z := by
  have hsettled : ∀ bs : List Bracket, (∀ b ∈ bs, b = .closing) → openAfter 0 bs = 0 := by
    intro bs hbs
    induction bs with
    | nil => rfl
    | cons b bs ih =>
      obtain ⟨rfl, htail⟩ := List.forall_mem_cons.1 hbs
      exact ih htail
  have hspans : ∀ (ps : List (Piece Bracket)) (offset : Nat), (∀ b ∈ values ps, b = .closing) →
      outermost 0 (0, 0) (locate offset ps) = [] := by
    intro ps
    induction ps with
    | nil => exact fun _ _ => rfl
    | cons x ps ih =>
      intro offset hps
      cases x with
      | plain ch => exact ih (offset + 1) hps
      | hit w b =>
        rw [Pattern.values_hit] at hps
        obtain ⟨rfl, htail⟩ := List.forall_mem_cons.1 hps
        exact ih (offset + w.length) htail
  constructor
  · rw [Settled, Pattern.find, Pattern.map_value_locate]
    exact hsettled _ h
  · exact hspans _ 0 h

/-! ### All blocks -/

/-- A page as its parts: stray text in front of each block, and text without a block at the end. -/
inductive Parted : Text → Prop where
  | free {s : Text} (hs : spans s = []) : Parted s
  | block {z o x c r : Text} (hz : Stray z) (ho : IsBracket .opening o) (hx : Balanced x)
      (hc : IsBracket .closing c) (hr : Parted r) : Parted (z ++ (o ++ x ++ c) ++ r)

theorem parted (s : Text) : Parted s := by
  -- Strong induction on the length: what stands behind the first block is shorter.
  induction hn : s.length using Nat.strongRecOn generalizing s with
  | ind n ih =>
    rcases exists_first (pattern.pieces s) with hnone | ⟨zs, o, ms, c, qs, hps, hzs, hms⟩
    · exact .free (hnone 0 (0, 0))
    · obtain ⟨z, y, rfl, ho, rfl, hy⟩ := exists_cut hps
      obtain ⟨x, r, rfl, hc, rfl, -⟩ := exists_cut hy
      have hpos : 0 < o.length := List.length_pos_iff.2 ho.ne_nil
      have hr : Parted r := ih r.length (by simp only [List.length_append] at hn; omega) r rfl
      have hparts := Parted.block (stray_of_closings hzs) ho (balanced_of_values hms) hc hr
      rwa [show z ++ (o ++ (x ++ (c ++ r))) = z ++ (o ++ x ++ c) ++ r by simp]

theorem signsAt_free {s : Text} (h : spans s = []) (k : Nat) : signsAt k s = s.map .letter := by
  rw [signsAt, h]
  rfl

theorem signsAt_part {z o x c : Text} (hz : Stray z) (ho : IsBracket .opening o) (hx : Balanced x)
    (hc : IsBracket .closing c) (r : Text) (k : Nat) :
    signsAt k (z ++ (o ++ x ++ c) ++ r) = z.map .letter ++ .block k x :: signsAt (k + 1) r := by
  rw [signsAt_block hz.settled ho hx hc, signsAt_free hz.spans_eq, hz.spans_eq]
  rfl

theorem spans_part {z o x c : Text} (hz : Stray z) (ho : IsBracket .opening o) (hx : Balanced x)
    (hc : IsBracket .closing c) (r : Text) :
    spans (z ++ (o ++ x ++ c) ++ r) =
      ⟨z.length, z.length + o.length, z.length + o.length + x.length,
          z.length + o.length + x.length + c.length⟩ ::
        (spans r).map (Span.later (z.length + o.length + x.length + c.length)) := by
  rw [spans_block hz.settled ho hx hc, hz.spans_eq]
  rfl

/-! ### Spans of the parts -/

theorem pairwise_spans (s : Text) : (spans s).Pairwise fun p q => p.stop ≤ q.start := by
  induction parted s with
  | free hs => simp [hs]
  | @block z o x c r hz ho hx hc _ ih =>
    rw [spans_part hz ho hx hc, List.pairwise_cons]
    constructor
    · intro q hq
      obtain ⟨p, -, rfl⟩ := List.mem_map.1 hq
      exact Nat.le_add_right _ _
    · rw [List.pairwise_map]
      exact ih.imp fun hpq => Nat.add_le_add_left hpq _

/-- A span of a page reaches from an opening bracket to a closing one, around balanced text. -/
theorem framed_of_mem_spans {s : Text} {p : Span} (h : p ∈ spans s) :
    p.start < p.stop ∧ p.stop ≤ s.length ∧ Balanced (inner s p) ∧
      ∃ o c, IsBracket .opening o ∧ IsBracket .closing c ∧
        s.slice p.start p.stop = o ++ inner s p ++ c := by
  induction parted s generalizing p with
  | free hs =>
    rw [hs] at h
    cases h
  | @block z o x c r hz ho hx hc _ ih =>
    have hpos : 0 < o.length := List.length_pos_iff.2 ho.ne_nil
    have hlength : (z ++ (o ++ x ++ c)).length = z.length + o.length + x.length + c.length := by
      simp only [List.length_append, Nat.add_assoc]
    rw [spans_part hz ho hx hc, List.mem_cons] at h
    rcases h with rfl | h
    · have hslice := Text.slice_append z (o ++ x ++ c) r
      rw [← List.append_assoc, ← List.length_append, hlength] at hslice
      refine ⟨by simp only; omega, ?_, ?_, o, c, ho, hc, ?_⟩
      · rw [List.length_append, hlength]
        exact Nat.le_add_right _ _
      · rwa [inner_block]
      · rw [hslice, inner_block]
    · obtain ⟨q, hq, rfl⟩ := List.mem_map.1 h
      obtain ⟨hstart, hstop, hbalanced, o', c', ho', hc', htext⟩ := ih hq
      refine ⟨Nat.add_lt_add_left hstart _, ?_, ?_, o', c', ho', hc', ?_⟩
      · rw [List.length_append, hlength]
        exact Nat.add_le_add_left hstop _
      · rwa [← hlength, inner_later]
      · rw [← hlength, inner_later, ← htext]
        exact Text.slice_later _ r q.start q.stop

/-! ### Nothing is left to protect -/

theorem read_eq_none (c : Char) (s : Text) (h : c ≠ '{') : pattern.read (c :: s) = none := by
  apply Option.eq_none_iff_forall_ne_some.2
  rintro ⟨b, r⟩ hread
  obtain ⟨u, hs, -⟩ := suffix_of_readBracket hread
  exact h (List.cons.inj hs).1

/-- No bracket holds a low line. -/
theorem readBracket_append_bar (z r : Text) :
    readBracket (z ++ '_' :: r) = (readBracket z).map fun m => (m.1, m.2 ++ '_' :: r) := by
  apply Option.ext
  rintro ⟨b, u⟩
  simp only [Option.map_eq_some_iff, Prod.exists, Prod.mk.injEq]
  constructor
  · intro h
    obtain ⟨w, hw, hs⟩ := exists_isBracket h
    have hbar : '_' ∉ w := by
      obtain ⟨n, hn, rfl⟩ := hw
      have hword : '_' ∉ n := hn.not_mem (by decide)
      have hslash : '_' ∉ b.slash := by cases b <;> decide
      simp [hword, hslash]
    obtain ⟨y, rfl, hu⟩ := Text.exists_append_of_not_mem hbar hs
    exact ⟨b, y, hw.read y, rfl, hu.symm⟩
  · rintro ⟨b, v, hv, rfl, rfl⟩
    obtain ⟨w, hw, rfl⟩ := exists_isBracket hv
    rw [List.append_assoc]
    exact hw.read _

/-- A word of placeholder characters is passed over by the search for brackets. -/
theorem pieces_append_wordlike {v : Veil} (hv : v.Wordlike) (z r : Text) (n : Nat) :
    pattern.pieces (z ++ (v n ++ r)) = pattern.pieces z ++ ((v n).map Piece.plain ++ pattern.pieces r) := by
  have hbrace : '{' ∉ v n := hv.not_mem (by decide) n
  rw [← Pattern.pieces_append_of_not_mem read_eq_none hbrace]
  obtain ⟨w, hw, -⟩ := hv n
  rw [hw]
  exact pattern.pieces_append_of_read (fun y _ => readBracket_append_bar y (w ++ r)) z

/-- Where every block is shown as a word, no block is left. -/
theorem spans_veiled {v : Veil} (hv : v.Wordlike) (s : Text) (k : Nat) :
    spans ((signsAt k s).veiled v) = [] := by
  induction parted s generalizing k with
  | free hs => rwa [signsAt_free hs, Signs.veiled_letters]
  | @block z o x c r hz ho hx hc _ ih =>
    rw [signsAt_part hz ho hx hc, Signs.veiled_append, Signs.veiled_letters, Signs.veiled_cons,
      Sign.veiled]
    have hlocate : locate (z.length + (v k).length) (pattern.pieces ((signsAt (k + 1) r).veiled v)) =
        (pattern.find ((signsAt (k + 1) r).veiled v)).map (later (z.length + (v k).length)) :=
      locate_later _ 0 _
    have hstray : outermost 0 (0, 0) (locate 0 (pattern.pieces z)) = [] := hz.spans_eq
    have hrest : outermost 0 (0, 0) (pattern.find ((signsAt (k + 1) r).veiled v)) = [] := ih (k + 1)
    have hbehind := outermost_append (0, 0)
      (z.length + (v k).length + 0, z.length + (v k).length + 0)
      ((pattern.find ((signsAt (k + 1) r).veiled v)).map (later (z.length + (v k).length))) hz.settled
    rw [outermost_later _ _ 0 (0, 0), hrest] at hbehind
    rw [spans, Pattern.find, pieces_append_wordlike hv, Pattern.locate_append, length_sources,
      Nat.zero_add, Pattern.locate_plain, hlocate]
    exact hbehind.trans (by rw [Pattern.find, hstray]; rfl)

end Verbatim
end PageAssembly
