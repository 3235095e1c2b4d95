/-
  PageAssembly/Proofs/Verbatim/Wrapping.lean
  ==========================================
  **The signs around a wrapped text.**

  A text is balanced if its brackets close all that they open, and nothing else; it is settled
  if nothing is open behind it.  In a page `p ++ (o ++ x ++ c) ++ s` with `p` settled, `x` balanced
  and the brackets `o` and `c` around it, this is one block of the page, whatever brackets `s`
  holds (`signsAt_block`): behind the signs of `p` stands the block with the inner text `x`, and
  behind it the signs of `s`.  So it is with a text that was wrapped (`signs_wrap`).

  No bracket reaches over the joints: a bracket has its opening braces at its front only, so
  one that starts in front of a pair of opening braces ends there, too
  (`pieces_append_opening`).
-/
import PageAssembly.Proofs.Text.Weaving
import PageAssembly.Proofs.Verbatim.Signs

namespace PageAssembly

namespace Text

theorem expectBy_eq_some_iff {same : Char → Char → Bool} {w s r : Text} :
    expectBy same w s = some r ↔ ∃ n, expectBy same w n = some [] ∧ s = n ++ r := by
  induction w generalizing s with
  | nil =>
    constructor
    · intro h
      exact ⟨[], rfl, Option.some.inj h⟩
    · rintro ⟨n, hn, rfl⟩
      rw [Option.some.inj hn]
      rfl
  | cons a w ih =>
    constructor
    · intro h
      cases s with
      | nil => cases h
      | cons c s =>
        simp only [expectBy] at h
        split at h
        · next hc =>
          obtain ⟨n, hn, rfl⟩ := ih.1 h
          exact ⟨c :: n, by rwa [expectBy, if_pos hc], rfl⟩
        · cases h
    · rintro ⟨n, hn, rfl⟩
      cases n with
      | nil => cases hn
      | cons c n =>
        simp only [expectBy, List.cons_append] at hn ⊢
        split at hn
        · next hc =>
          rw [if_pos hc]
          exact ih.2 ⟨n, hn, rfl⟩
        · cases hn

theorem not_mem_of_expectBy {same : Char → Char → Bool} {w n : Text} {c : Char}
    (hw : ∀ a ∈ w, same a c = false) (h : expectBy same w n = some []) : c ∉ n := by
  induction w generalizing n with
  | nil =>
    rw [Option.some.inj h]
    exact List.not_mem_nil
  | cons a w ih =>
    cases n with
    | nil => exact List.not_mem_nil
    | cons d n =>
      obtain ⟨ha, hw⟩ := List.forall_mem_cons.1 hw
      simp only [expectBy] at h
      split at h
      · next hd =>
        rw [List.mem_cons, not_or]
        refine ⟨?_, ih hw h⟩
        rintro rfl
        rw [ha] at hd
        cases hd
      · cases h

/-- A word that does not hold the character `d` ends in front of it. -/
theorem exists_append_of_not_mem {w u z r : Text} {d : Char} (hd : d ∉ w) (h : z ++ d :: r = w ++ u) :
    ∃ y, z = w ++ y ∧ u = y ++ d :: r := by
  rcases List.append_eq_append_iff.1 h with ⟨y, hy, hr⟩ | hy
  · cases y with
    | nil => exact ⟨[], by simpa using hy.symm, by simpa using hr.symm⟩
    | cons e y =>
      obtain ⟨rfl, -⟩ := List.cons.inj hr
      rw [hy] at hd
      exact absurd (by simp) hd
  · exact hy

end Text

namespace Verbatim

/-! ### Brackets across a joint -/

/-- The word in brackets, in any letter case. -/
def IsWord (n : Text) : Prop := Text.expectCaseless "noparse".toList n = some []

/-- What stands in front of the word. -/
def Bracket.slash : Bracket → Text
  | .opening => []
  | .closing => ['/']

theorem IsWord.not_mem {n : Text} (hn : IsWord n) {c : Char}
    (hc : ∀ a ∈ "noparse".toList, Text.sameLetter a c = false) : c ∉ n :=
  Text.not_mem_of_expectBy hc hn

theorem readBracket_eq_some_iff {s r : Text} {b : Bracket} : readBracket s = some (b, r) ↔
    ∃ n, IsWord n ∧ s = '{' :: '{' :: (b.slash ++ n ++ '}' :: '}' :: r) := by
  constructor
  · intro h
    simp only [readBracket, Option.bind_eq_bind, Option.bind_eq_some_iff, Option.pure_def,
      Option.some.injEq, Prod.mk.injEq] at h
    obtain ⟨t, ht, u, hu, v, hv, rfl, rfl⟩ := h
    rw [Text.expect_eq_some_iff.1 ht]
    obtain ⟨n, hn, hs⟩ := Text.expectBy_eq_some_iff.1 hu
    refine ⟨n, hn, ?_⟩
    rw [Text.expect_eq_some_iff.1 hv] at hs
    split at hs <;> simp_all [Directive.opening, Directive.closing, Bracket.slash]
  · rintro ⟨n, hn, rfl⟩
    have hread : Text.expectCaseless "noparse".toList (n ++ '}' :: '}' :: r) = some ('}' :: '}' :: r) :=
      Text.expectBy_eq_some_iff.2 ⟨n, hn, rfl⟩
    have hclosing : Text.expect Directive.closing ('}' :: '}' :: r) = some r := rfl
    cases b with
    | closing =>
      have hopening : Text.expect Directive.opening
          ('{' :: '{' :: (Bracket.closing.slash ++ n ++ '}' :: '}' :: r)) =
          some ('/' :: (n ++ '}' :: '}' :: r)) := rfl
      simp only [readBracket, hopening, Option.bind_eq_bind, Option.bind_some, hread, hclosing,
        Option.pure_def]
    | opening =>
      have hopening : Text.expect Directive.opening
          ('{' :: '{' :: (Bracket.opening.slash ++ n ++ '}' :: '}' :: r)) =
          some (n ++ '}' :: '}' :: r) := rfl
      have hslash : ∀ t, n ++ '}' :: '}' :: r ≠ '/' :: t := by
        intro t ht
        cases n with
        | nil => cases hn
        | cons c n =>
          obtain ⟨rfl, -⟩ := List.cons.inj ht
          exact hn.not_mem (by decide) List.mem_cons_self
      simp only [readBracket, hopening, Option.bind_eq_bind, Option.bind_some, hread, hclosing,
        Option.pure_def]

/-- A text in front of a pair of opening braces is read as it would be read alone. -/
theorem readBracket_append_opening {z : Text} (hz : z ≠ []) (r : Text) :
    readBracket (z ++ '{' :: '{' :: r) =
      (readBracket z).map fun m => (m.1, m.2 ++ '{' :: '{' :: r) := by
  have hbrace : ∀ n, IsWord n → '{' ∉ n := fun n hn => hn.not_mem (by decide)
  refine Option.ext fun m => ?_
  obtain ⟨b, u⟩ := m
  simp only [Option.map_eq_some_iff, Prod.exists, Prod.mk.injEq]
  constructor
  · intro h
    obtain ⟨n, hn, hs⟩ := readBracket_eq_some_iff.1 h
    have hword : '{' ∉ b.slash ++ n ++ ['}', '}'] := by
      have hslash : '{' ∉ b.slash := by cases b <;> decide
      simp [hslash, hbrace n hn]
    obtain ⟨d, t, hdt⟩ : ∃ d t, b.slash ++ n ++ ['}', '}'] = d :: t :=
      List.exists_cons_of_ne_nil (by simp)
    have hbracket : b.slash ++ n ++ '}' :: '}' :: u = d :: t ++ u := by
      rw [← hdt]
      simp
    rw [hbracket] at hs
    rw [hdt] at hword
    obtain ⟨c, z, rfl⟩ := List.exists_cons_of_ne_nil hz
    cases z with
    | nil =>
      -- the bracket would go on with an opening brace
      obtain ⟨-, rfl, -⟩ : c = '{' ∧ '{' = d ∧ r = t ++ u := by simpa using hs
      exact absurd List.mem_cons_self hword
    | cons e z =>
      obtain ⟨rfl, rfl, hjoint⟩ : c = '{' ∧ e = '{' ∧ z ++ '{' :: '{' :: r = d :: t ++ u := by
        simpa using hs
      -- the rest of the bracket holds no opening brace, so it ends in front of the joint
      obtain ⟨y, hy, hu⟩ := Text.exists_append_of_not_mem hword hjoint
      refine ⟨b, y, readBracket_eq_some_iff.2 ⟨n, hn, ?_⟩, rfl, hu.symm⟩
      rw [hy, ← hdt]
      simp
  · rintro ⟨b, v, hv, rfl, rfl⟩
    obtain ⟨n, hn, rfl⟩ := readBracket_eq_some_iff.1 hv
    exact readBracket_eq_some_iff.2 ⟨n, hn, by simp⟩

/-- No bracket reaches over the front of a pair of opening braces. -/
theorem pieces_append_opening (z r : Text) :
    pattern.pieces (z ++ '{' :: '{' :: r) = pattern.pieces z ++ pattern.pieces ('{' :: '{' :: r) :=
  pattern.pieces_append_of_read (fun _ hz => readBracket_append_opening hz r) z

/-- The text is a bracket, and nothing else. -/
def IsBracket (b : Bracket) (w : Text) : Prop :=
  ∃ n, IsWord n ∧ w = '{' :: '{' :: (b.slash ++ n ++ ['}', '}'])

theorem IsBracket.read {b : Bracket} {w : Text} (h : IsBracket b w) (r : Text) :
    readBracket (w ++ r) = some (b, r) := by
  obtain ⟨n, hn, rfl⟩ := h
  exact readBracket_eq_some_iff.2 ⟨n, hn, by simp⟩

theorem exists_isBracket {s r : Text} {b : Bracket} (h : readBracket s = some (b, r)) :
    ∃ w, IsBracket b w ∧ s = w ++ r := by
  obtain ⟨n, hn, rfl⟩ := readBracket_eq_some_iff.1 h
  exact ⟨_, ⟨n, hn, rfl⟩, by simp⟩

theorem IsBracket.ne_nil {b : Bracket} {w : Text} (h : IsBracket b w) : w ≠ [] := by
  obtain ⟨n, -, rfl⟩ := h
  exact List.cons_ne_nil _ _

/-- A bracket is found wherever it stands. -/
theorem pieces_bracket {b : Bracket} {w : Text} (h : IsBracket b w) (z r : Text) :
    pattern.pieces (z ++ (w ++ r)) = pattern.pieces z ++ .hit w b :: pattern.pieces r := by
  rw [← pattern.pieces_append (h.read r)]
  obtain ⟨n, -, rfl⟩ := h
  exact pieces_append_opening z _

theorem pieces_block {o c : Text} (ho : IsBracket .opening o) (hc : IsBracket .closing c)
    (p x s : Text) :
    pattern.pieces (p ++ (o ++ x ++ c) ++ s) =
      pattern.pieces p ++ .hit o .opening :: (pattern.pieces x ++ .hit c .closing :: pattern.pieces s) := by
  have htext : p ++ (o ++ x ++ c) ++ s = p ++ (o ++ (x ++ (c ++ s))) := by simp
  rw [htext, pieces_bracket ho, pieces_bracket hc]

/-- The brackets that `wrap` puts around a text. -/
def openingTag : Text := Directive.opening ++ "noparse".toList ++ Directive.closing

def closingTag : Text := Directive.opening ++ "/noparse".toList ++ Directive.closing

theorem isBracket_openingTag : IsBracket .opening openingTag := ⟨"noparse".toList, rfl, rfl⟩

theorem isBracket_closingTag : IsBracket .closing closingTag := ⟨"noparse".toList, rfl, rfl⟩

theorem wrap_eq (x : Text) : wrap x = openingTag ++ x ++ closingTag := by
  simp [wrap, openingTag, closingTag]

/-! ### Balanced texts -/

/-- How many brackets are open behind the given ones; none if one closes what is not open. -/
def depthAfter : Nat → List Bracket → Option Nat
  | depth, [] => some depth
  | depth, .opening :: bs => depthAfter (depth + 1) bs
  | 0, .closing :: _ => none
  | depth + 1, .closing :: bs => depthAfter depth bs

/-- The brackets of the text close all that they open, and nothing else. -/
def Balanced (s : Text) : Prop := depthAfter 0 ((pattern.find s).map Located.value) = some 0

instance (s : Text) : Decidable (Balanced s) := inferInstanceAs (Decidable (_ = _))

theorem balanced_nil : Balanced [] := rfl

/-- How many brackets are open behind the given ones, when a bracket that closes nothing is
    passed over. -/
def openAfter : Nat → List Bracket → Nat
  | depth, [] => depth
  | depth, .opening :: bs => openAfter (depth + 1) bs
  | depth, .closing :: bs => openAfter (depth - 1) bs

/-- Nothing is open behind the text. -/
def Settled (s : Text) : Prop := openAfter 0 ((pattern.find s).map Located.value) = 0

instance (s : Text) : Decidable (Settled s) := inferInstanceAs (Decidable (_ = _))

theorem openAfter_of_depthAfter {bs : List Bracket} {d e : Nat} (h : depthAfter d bs = some e) :
    openAfter d bs = e := by
  induction bs generalizing d with
  | nil => exact Option.some.inj h
  | cons b bs ih =>
    cases b with
    | opening => exact ih h
    | closing =>
      cases d with
      | zero => cases h
      | succ d => exact ih h

theorem Balanced.settled {s : Text} (h : Balanced s) : Settled s := openAfter_of_depthAfter h

/-- Where nothing is open it does not matter what was opened last. -/
theorem outermost_opened (opened opened' : Nat × Nat) (bs : List (Located Bracket)) :
    outermost 0 opened bs = outermost 0 opened' bs := by
  induction bs with
  | nil => rfl
  | cons b bs ih =>
    unfold outermost
    cases b.value with
    | opening => rfl
    | closing => exact ih

/-- Inside of a block, balanced brackets are passed over. -/
theorem outermost_inside {bs : List (Located Bracket)} {d e : Nat} (opened : Nat × Nat)
    (rest : List (Located Bracket)) (h : depthAfter d (bs.map Located.value) = some e) :
    outermost (d + 1) opened (bs ++ rest) = outermost (e + 1) opened rest := by
  induction bs generalizing d with
  | nil =>
    obtain rfl : d = e := Option.some.inj h
    rfl
  | cons b bs ih =>
    rw [List.map_cons] at h
    cases hb : b.value with
    | opening =>
      rw [hb, depthAfter] at h
      simp only [List.cons_append, outermost, hb]
      exact ih h
    | closing =>
      rw [hb] at h
      cases d with
      | zero => cases h
      | succ d =>
        simp only [List.cons_append, outermost, hb]
        exact ih h

/-- Where nothing is open, the search for blocks starts anew. -/
theorem outermost_append {bs : List (Located Bracket)} {d : Nat} (opened opened' : Nat × Nat)
    (rest : List (Located Bracket)) (h : openAfter d (bs.map Located.value) = 0) :
    outermost d opened (bs ++ rest) = outermost d opened bs ++ outermost 0 opened' rest := by
  induction bs generalizing d opened with
  | nil =>
    obtain rfl : d = 0 := h
    exact outermost_opened _ _ _
  | cons b bs ih =>
    rw [List.map_cons] at h
    cases hb : b.value with
    | opening =>
      rw [hb, openAfter] at h
      cases d with
      | zero =>
        simp only [List.cons_append, outermost, hb]
        exact ih _ h
      | succ d =>
        simp only [List.cons_append, outermost, hb]
        exact ih _ h
    | closing =>
      rw [hb, openAfter] at h
      match d, h with
      | 0, h =>
        simp only [List.cons_append, outermost, hb]
        exact ih _ h
      | 1, h =>
        simp only [List.cons_append, outermost, hb]
        rw [ih _ h]
      | d + 2, h =>
        simp only [List.cons_append, outermost, hb]
        exact ih _ h

/-! ### Blocks in their place -/

/-- The bracket, further back by `k`. -/
def later (k : Nat) (b : Located Bracket) : Located Bracket :=
  { b with start := k + b.start, stop := k + b.stop }

def Span.later (k : Nat) (p : Span) : Span :=
  ⟨k + p.start, k + p.innerStart, k + p.innerStop, k + p.stop⟩

theorem locate_later (k offset : Nat) (ps : List (Piece Bracket)) :
    Pattern.locate (k + offset) ps = (Pattern.locate offset ps).map (later k) := by
  induction ps generalizing offset with
  | nil => rfl
  | cons x ps ih =>
    cases x with
    | plain c => exact ih (offset + 1)
    | hit w a =>
      have htail := ih (offset + w.length)
      simp only [Pattern.locate, List.map_cons, later, Nat.add_assoc] at htail ⊢
      rw [htail]

theorem outermost_later (k : Nat) (bs : List (Located Bracket)) (d : Nat) (opened : Nat × Nat) :
    outermost d (k + opened.1, k + opened.2) (bs.map (later k)) =
      (outermost d opened bs).map (Span.later k) := by
  induction bs generalizing d opened with
  | nil => rfl
  | cons b bs ih =>
    rw [List.map_cons]
    unfold outermost
    have hvalue : (later k b).value = b.value := rfl
    rw [hvalue]
    cases b.value with
    | opening =>
      cases d with
      | zero => exact ih 1 (b.start, b.stop)
      | succ d => exact ih (d + 2) opened
    | closing =>
      match d with
      | 0 => exact ih 0 opened
      | 1 => exact congrArg (_ :: ·) (ih 0 opened)
      | d + 2 => exact ih (d + 1) opened

theorem length_sources (s : Text) : ((pattern.pieces s).flatMap Piece.source).length = s.length := by
  rw [pattern.sources_pieces]

theorem find_block {o c : Text} (ho : IsBracket .opening o) (hc : IsBracket .closing c)
    (p x s : Text) :
    pattern.find (p ++ (o ++ x ++ c) ++ s) =
      pattern.find p ++
        ⟨p.length, p.length + o.length, o, .opening⟩ ::
        ((pattern.find x).map (later (p.length + o.length)) ++
          ⟨p.length + o.length + x.length, p.length + o.length + x.length + c.length, c, .closing⟩ ::
          (pattern.find s).map (later (p.length + o.length + x.length + c.length))) := by
  rw [Pattern.find, pieces_block ho hc, Pattern.locate_append, length_sources, Nat.zero_add,
    Pattern.locate, Pattern.locate_append, length_sources, Pattern.locate]
  have hx := locate_later (p.length + o.length) 0 (pattern.pieces x)
  have hs := locate_later (p.length + o.length + x.length + c.length) 0 (pattern.pieces s)
  rw [Nat.add_zero] at hx hs
  rw [hx, hs]
  rfl

theorem spans_block {p o x c : Text} (hp : Settled p) (ho : IsBracket .opening o) (hx : Balanced x)
    (hc : IsBracket .closing c) (s : Text) :
    spans (p ++ (o ++ x ++ c) ++ s) =
      spans p ++
        ⟨p.length, p.length + o.length, p.length + o.length + x.length,
          p.length + o.length + x.length + c.length⟩ ::
        (spans s).map (Span.later (p.length + o.length + x.length + c.length)) := by
  have hinside : depthAfter 0 (((pattern.find x).map (later (p.length + o.length))).map Located.value) =
      some 0 := by
    rw [List.map_map]
    exact hx
  rw [spans, find_block ho hc, outermost_append (0, 0) (0, 0) _ hp]
  simp only [outermost]
  rw [outermost_inside _ _ hinside]
  simp only [outermost]
  rw [spans, spans, ← outermost_later _ (pattern.find s) 0 (0, 0)]
  congr 2
  exact outermost_opened _ _ _

theorem spans_wrap {p x : Text} (hp : Balanced p) (hx : Balanced x) (s : Text) :
    spans (p ++ wrap x ++ s) =
      spans p ++
        ⟨p.length, p.length + 11, p.length + 11 + x.length, p.length + 11 + x.length + 12⟩ ::
        (spans s).map (Span.later (p.length + 11 + x.length + 12)) := by
  rw [wrap_eq]
  exact spans_block hp.settled isBracket_openingTag hx isBracket_closingTag s

/-! ### Signs of a page, part by part -/

/-- The signs of a page whose blocks are numbered from `k` on. -/
def signsAt (k : Nat) (s : Text) : Signs := signsFrom s 0 s ((spans s).zipIdx k)

/-- The spans follow one another, from offset `cursor` up to offset `stop`. -/
def InOrder (stop : Nat) : Nat → List Span → Prop
  | cursor, [] => cursor ≤ stop
  | cursor, p :: ps =>
    cursor ≤ p.start ∧ p.start ≤ p.stop ∧ p.innerStop ≤ p.stop ∧ InOrder stop p.stop ps

theorem InOrder.le {stop cursor : Nat} {ps : List Span} (h : InOrder stop cursor ps) :
    cursor ≤ stop := by
  induction ps generalizing cursor with
  | nil => exact h
  | cons p ps ih =>
    obtain ⟨h₁, h₂, -, h₃⟩ := h
    exact Nat.le_trans h₁ (Nat.le_trans h₂ (ih h₃))

theorem inOrder_outermost (ps : List (Piece Bracket)) {offset cursor d : Nat} {opened : Nat × Nat}
    (hcursor : cursor ≤ offset)
    (hopened : 0 < d → cursor ≤ opened.1 ∧ opened.1 ≤ opened.2 ∧ opened.2 ≤ offset) :
    InOrder (offset + (ps.flatMap Piece.source).length) cursor
      (outermost d opened (Pattern.locate offset ps)) := by
  induction ps generalizing offset cursor d opened with
  | nil => exact hcursor
  | cons x ps ih =>
    rw [List.flatMap_cons, List.length_append, ← Nat.add_assoc]
    cases x with
    | plain c =>
      refine ih (Nat.le_succ_of_le hcursor) fun hd => ?_
      obtain ⟨h₁, h₂, h₃⟩ := hopened hd
      exact ⟨h₁, h₂, Nat.le_succ_of_le h₃⟩
    | hit w b =>
      have hstep : cursor ≤ offset + w.length := Nat.le_trans hcursor (Nat.le_add_right _ _)
      have hlater : 0 < d → cursor ≤ opened.1 ∧ opened.1 ≤ opened.2 ∧ opened.2 ≤ offset + w.length := by
        intro hd
        obtain ⟨h₁, h₂, h₃⟩ := hopened hd
        exact ⟨h₁, h₂, Nat.le_trans h₃ (Nat.le_add_right _ _)⟩
      cases b with
      | opening =>
        cases d with
        | zero => exact ih hstep fun _ => ⟨hcursor, Nat.le_add_right _ _, Nat.le_refl _⟩
        | succ d => exact ih hstep fun _ => hlater (Nat.succ_pos d)
      | closing =>
        match d with
        | 0 => exact ih hstep fun h => absurd h (Nat.lt_irrefl 0)
        | 1 =>
          obtain ⟨h₁, h₂, h₃⟩ := hlater Nat.one_pos
          refine ⟨h₁, Nat.le_trans h₂ h₃, Nat.le_add_right _ _, ?_⟩
          exact ih (Nat.le_refl _) fun h => absurd h (Nat.lt_irrefl 0)
        | d + 2 => exact ih hstep fun _ => hlater (Nat.succ_pos _)

theorem inOrder_spans (s : Text) : InOrder s.length 0 (spans s) := by
  have h := @inOrder_outermost (pattern.pieces s) 0 0 0 (0, 0) (Nat.le_refl 0)
    fun h => absurd h (Nat.lt_irrefl 0)
  rwa [Nat.zero_add, pattern.sources_pieces] at h

theorem inner_later (a s : Text) (p : Span) : inner (a ++ s) (p.later a.length) = inner s p :=
  Text.slice_later a s p.innerStart p.innerStop

theorem inner_block (p o x c s : Text) (start stop : Nat) :
    inner (p ++ (o ++ x ++ c) ++ s) ⟨start, p.length + o.length, p.length + o.length + x.length, stop⟩ =
      x := by
  have htext : p ++ (o ++ x ++ c) ++ s = (p ++ o) ++ (x ++ (c ++ s)) := by simp
  have hslice := Text.slice_append (p ++ o) x (c ++ s)
  rwa [List.length_append, ← htext] at hslice

/-- Text in front of a page does not matter to the signs behind it. -/
theorem signsFrom_later (a s : Text) (cursor : Nat) (rest : Text) (ps : List Span) (k : Nat) :
    signsFrom (a ++ s) (a.length + cursor) rest ((ps.map (Span.later a.length)).zipIdx k) =
      signsFrom s cursor rest (ps.zipIdx k) := by
  induction ps generalizing cursor rest k with
  | nil => rfl
  | cons p ps ih =>
    have hstart : (p.later a.length).start - (a.length + cursor) = p.start - cursor :=
      Nat.add_sub_add_left _ _ _
    have hstop : (p.later a.length).stop - (a.length + cursor) = p.stop - cursor :=
      Nat.add_sub_add_left _ _ _
    simp only [List.map_cons, List.zipIdx_cons, signsFrom, inner_later, hstart, hstop]
    rw [← ih p.stop]
    rfl

/-- The signs of a page up to a block that stands behind the text `a`. -/
theorem signsFrom_append (a b : Text) {cursor : Nat} {ps : List Span}
    (hps : InOrder a.length cursor ps) {p : Span} (hstart : p.start = a.length)
    (hstop : a.length ≤ p.stop) (k n : Nat) (qs : List (Span × Nat)) :
    signsFrom (a ++ b) cursor (a.drop cursor ++ b) (ps.zipIdx k ++ (p, n) :: qs) =
      signsFrom a cursor (a.drop cursor) (ps.zipIdx k) ++
        signsFrom (a ++ b) a.length b ((p, n) :: qs) := by
  induction ps generalizing cursor k with
  | nil =>
    have hcursor : cursor ≤ a.length := hps
    have htake : (a.drop cursor ++ b).take (a.length - cursor) = a.drop cursor := by
      rw [← List.length_drop, List.take_left]
    have hdrop : (a.drop cursor ++ b).drop (p.stop - cursor) = b.drop (p.stop - a.length) := by
      rw [List.drop_append, List.drop_of_length_le (by simp; omega), List.length_drop,
        List.nil_append]
      congr 1
      omega
    simp only [List.zipIdx_nil, List.nil_append, signsFrom, htake, hdrop, hstart, Nat.sub_self,
      List.take_zero, List.map_nil]
  | cons q ps ih =>
    obtain ⟨h₁, h₂, h₃, h₄⟩ := hps
    have hle := h₄.le
    have hinner : inner (a ++ b) q = inner a q := by
      rw [inner, inner, Text.slice, Text.slice, List.take_append_of_le_length (Nat.le_trans h₃ hle)]
    have htake : (a.drop cursor ++ b).take (q.start - cursor) = (a.drop cursor).take (q.start - cursor) :=
      List.take_append_of_le_length (by rw [List.length_drop]; omega)
    have hdrop : (a.drop cursor).drop (q.stop - cursor) = a.drop q.stop := by
      rw [List.drop_drop]
      congr 1
      omega
    have hdrop' : (a.drop cursor ++ b).drop (q.stop - cursor) = a.drop q.stop ++ b := by
      rw [List.drop_append_of_le_length (by rw [List.length_drop]; omega), hdrop]
    simp only [List.zipIdx_cons, List.cons_append, signsFrom, hinner, htake, hdrop, hdrop', ih h₄,
      List.append_assoc]

/-- Behind a settled text stands a block as a sign of its own. -/
theorem signsAt_block {p o x c : Text} (hp : Settled p) (ho : IsBracket .opening o) (hx : Balanced x)
    (hc : IsBracket .closing c) (s : Text) (k : Nat) :
    signsAt k (p ++ (o ++ x ++ c) ++ s) =
      signsAt k p ++ .block (k + (spans p).length) x :: signsAt (k + (spans p).length + 1) s := by
  let here : Span := ⟨p.length, p.length + o.length, p.length + o.length + x.length,
    p.length + o.length + x.length + c.length⟩
  have hend : (p ++ (o ++ x ++ c)).length = p.length + o.length + x.length + c.length := by
    simp only [List.length_append, Nat.add_assoc]
  have hlength : p.length ≤ here.stop := by
    simp only [here, Nat.add_assoc]
    exact Nat.le_add_right _ _
  have hfront := signsFrom_append p (o ++ x ++ c ++ s) (inOrder_spans p) (p := here) rfl hlength k
    (k + (spans p).length)
    (((spans s).map (Span.later (p.length + o.length + x.length + c.length))).zipIdx
      (k + (spans p).length + 1))
  have hbehind := signsFrom_later (p ++ (o ++ x ++ c)) s 0 s (spans s) (k + (spans p).length + 1)
  have hrest : (o ++ x ++ c ++ s).drop (here.stop - p.length) = s := by
    have hblock : here.stop - p.length = (o ++ x ++ c).length := by
      rw [List.length_append] at hend
      simp only [here]
      omega
    rw [hblock, List.drop_left]
  rw [hend] at hbehind
  rw [signsAt, spans_block hp ho hx hc, List.zipIdx_append, List.zipIdx_cons]
  rw [List.drop_zero, ← List.append_assoc] at hfront
  refine hfront.trans ?_
  rw [signsFrom, inner_block, hrest]
  refine congrArg₂ (· ++ ·) rfl ?_
  simp only [here, Nat.sub_self, List.take_zero, List.map_nil, List.nil_append]
  exact congrArg _ hbehind

theorem signs_wrap {p x : Text} (hp : Balanced p) (hx : Balanced x) (s : Text) :
    signs (p ++ wrap x ++ s) =
      signs p ++ .block (spans p).length x :: signsAt ((spans p).length + 1) s := by
  have h := signsAt_block hp.settled isBracket_openingTag hx isBracket_closingTag s 0
  rwa [Nat.zero_add, ← wrap_eq] at h

end Verbatim
end PageAssembly
