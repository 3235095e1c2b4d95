/-
  PageAssembly/Proofs/Text/Weaving.lean
  =====================================
  **Editing a text at its matches.**

  A page is worked on in two ways.  Includes and alias directives are searched for,
  their offsets are kept, and the text is spliced at these offsets afterwards.  What
  the result *is* shows better piece by piece: every plain character stays, every match
  is replaced or stays.  `splice_find` says that both give the same text, so nothing
  later on has to count characters.

  `pieces_append_of_none` walks over a stretch in which nothing matches, as over a text without
  the character that all matches start with (`pieces_append_of_not_mem`).  Where the texts to
  put in come in a list, one for each match, `splice_zipWith` does what `splice_find` does.
-/
import PageAssembly.Text.Pattern
import PageAssembly.Text.Splice

namespace PageAssembly.Pattern

variable {α β : Type}

/-! ### Searching -/

theorem pieces_append_of_none (p : Pattern α) {w r : Text}
    (h : ∀ z : Text, z ≠ [] → z <:+ w → p.read (z ++ r) = none) :
    p.pieces (w ++ r) = w.map Piece.plain ++ p.pieces r := by
  induction w with
  | nil => rfl
  | cons c w ih =>
    have hc : p.read (c :: (w ++ r)) = none := h (c :: w) (by simp) List.suffix_rfl
    have htail := ih fun z hz hzw => h z hz (hzw.trans (List.suffix_cons c w))
    rw [List.cons_append, pieces_cons_none p hc, htail]
    rfl

/-- Where matches start with the character `d` only, a search passes over a text without it. -/
theorem pieces_append_of_not_mem {p : Pattern α} {d : Char} {w : Text}
    (hp : ∀ c s, c ≠ d → p.read (c :: s) = none) (hw : d ∉ w) (r : Text) :
    p.pieces (w ++ r) = w.map Piece.plain ++ p.pieces r := by
  apply p.pieces_append_of_none
  intro z hne hz
  obtain ⟨c, z, rfl⟩ := List.exists_cons_of_ne_nil hne
  apply hp
  rintro rfl
  exact hw (hz.subset List.mem_cons_self)

theorem pieces_of_not_mem {p : Pattern α} {d : Char} {w : Text}
    (hp : ∀ c s, c ≠ d → p.read (c :: s) = none) (hw : d ∉ w) :
    p.pieces w = w.map Piece.plain := by
  have hall := pieces_append_of_not_mem hp hw []
  rwa [List.append_nil, pieces_nil, List.append_nil] at hall

/-- Where no match reaches over the front of `r`, the search in `r` starts anew. -/
theorem pieces_append_of_read (p : Pattern α) {r : Text}
    (h : ∀ z : Text, z ≠ [] → p.read (z ++ r) = (p.read z).map fun m => (m.1, m.2 ++ r))
    (z : Text) : p.pieces (z ++ r) = p.pieces z ++ p.pieces r := by
  induction z using p.search_induction with
  | nil => rfl
  | plain c z hnone ih =>
    have hread := h (c :: z) (List.cons_ne_nil c z)
    rw [hnone, Option.map_none, List.cons_append] at hread
    rw [List.cons_append, p.pieces_cons_none hread, p.pieces_cons_none hnone, ih, List.cons_append]
  | hit w a u hw hhit ih =>
    have hread := h (w ++ u) (List.append_ne_nil_of_left_ne_nil hw u)
    rw [hhit, Option.map_some, List.append_assoc] at hread
    rw [List.append_assoc, p.pieces_append hread, p.pieces_append hhit, ih, List.cons_append]

/-- How a search begins: with a character at which nothing is read, or with a match. -/
theorem pieces_eq_cons {p : Pattern α} {s : Text} {x : Piece α} {ps : List (Piece α)}
    (h : p.pieces s = x :: ps) :
    (∃ c r, x = .plain c ∧ s = c :: r ∧ p.read s = none ∧ p.pieces r = ps) ∨
      ∃ w a r, x = .hit w a ∧ s = w ++ r ∧ p.read s = some (a, r) ∧ p.pieces r = ps := by
  cases s with
  | nil => cases h
  | cons c s =>
    cases hread : p.read (c :: s) with
    | none =>
      rw [p.pieces_cons_none hread] at h
      obtain ⟨rfl, hps⟩ := List.cons.inj h
      exact Or.inl ⟨c, s, rfl, rfl, rfl, hps⟩
    | some m =>
      obtain ⟨a, r⟩ := m
      obtain ⟨w, -, hs⟩ := p.nonempty hread
      rw [hs] at hread h
      rw [p.pieces_append hread] at h
      obtain ⟨rfl, hps⟩ := List.cons.inj h
      exact Or.inr ⟨w, a, r, rfl, hs, rfl, hps⟩

/-- Where a search finds nothing, the pieces of the text are its characters. -/
theorem pieces_of_find {p : Pattern α} {s : Text} (h : p.find s = []) :
    p.pieces s = s.map Piece.plain := by
  have hplain : ∀ (ps : List (Piece α)) (offset : Nat), locate offset ps = [] →
      ps = (ps.flatMap Piece.source).map Piece.plain := by
    intro ps
    induction ps with
    | nil => exact fun _ _ => rfl
    | cons x ps ih =>
      intro offset hnone
      cases x with
      | plain c => exact congrArg (Piece.plain c :: ·) (ih (offset + 1) hnone)
      | hit w a => cases hnone
  have hpieces := hplain (p.pieces s) 0 h
  rwa [sources_pieces] at hpieces

theorem locate_append (offset : Nat) (ps qs : List (Piece α)) :
    locate offset (ps ++ qs) =
      locate offset ps ++ locate (offset + (ps.flatMap Piece.source).length) qs := by
  induction ps generalizing offset with
  | nil => rfl
  | cons x ps ih =>
    cases x with
    | plain c => simp [locate, ih, Piece.source, Nat.add_assoc, Nat.add_comm 1]
    | hit w a => simp [locate, ih, Piece.source, Nat.add_assoc]

theorem locate_plain (w : Text) (offset : Nat) (ps : List (Piece α)) :
    locate offset (w.map Piece.plain ++ ps) = locate (offset + w.length) ps := by
  induction w generalizing offset with
  | nil => rfl
  | cons c w ih =>
    have htail := ih (offset + 1)
    rwa [Nat.add_assoc, Nat.add_comm 1] at htail

theorem locate_letters (w : Text) (offset : Nat) :
    locate offset (w.map Piece.plain : List (Piece α)) = [] := by
  have hall := locate_plain w offset ([] : List (Piece α))
  rwa [List.append_nil] at hall

theorem find_of_not_mem {p : Pattern α} {d : Char} {w : Text}
    (hp : ∀ c s, c ≠ d → p.read (c :: s) = none) (hw : d ∉ w) : p.find w = [] := by
  rw [find, pieces_of_not_mem hp hw, locate_letters]

theorem hit_of_mem_locate {ps : List (Piece α)} {offset : Nat} {m : Located α}
    (h : m ∈ locate offset ps) : Piece.hit m.source m.value ∈ ps := by
  induction ps generalizing offset with
  | nil => cases h
  | cons x ps ih =>
    cases x with
    | plain c => exact List.mem_cons_of_mem _ (ih h)
    | hit w a =>
      rcases List.mem_cons.1 h with rfl | h
      · exact List.mem_cons_self
      · exact List.mem_cons_of_mem _ (ih h)

theorem le_start_of_mem_locate {ps : List (Piece α)} {offset : Nat} {m : Located α}
    (h : m ∈ locate offset ps) : offset ≤ m.start := by
  induction ps generalizing offset with
  | nil => cases h
  | cons x ps ih =>
    cases x with
    | plain c => exact Nat.le_trans (Nat.le_succ _) (ih h)
    | hit w a =>
      rcases List.mem_cons.1 h with rfl | h
      · exact Nat.le_refl _
      · exact Nat.le_trans (Nat.le_add_right _ _) (ih h)

/-- What a search finds was read somewhere. -/
theorem read_of_hit {p : Pattern α} {s w : Text} {a : α} (h : Piece.hit w a ∈ p.pieces s) :
    ∃ r, p.read (w ++ r) = some (a, r) := by
  induction s using p.search_induction with
  | nil => cases h
  | plain c s hnone ih =>
    rw [pieces_cons_none p hnone] at h
    rcases List.mem_cons.1 h with hc | h
    · cases hc
    · exact ih h
  | hit x b r hx hread ih =>
    rw [pieces_append p hread] at h
    rcases List.mem_cons.1 h with hw | h
    · cases hw
      exact ⟨r, hread⟩
    · exact ih h

theorem pairwise_starts_locate {ps : List (Piece α)} (h : ∀ w a, Piece.hit w a ∈ ps → w ≠ [])
    (offset : Nat) :
    (locate offset ps).Pairwise fun m n => m.start < n.start := by
  induction ps generalizing offset with
  | nil => exact List.Pairwise.nil
  | cons x ps ih =>
    have htail := ih fun w a hmem => h w a (List.mem_cons_of_mem x hmem)
    cases x with
    | plain c => exact htail (offset + 1)
    | hit w a =>
      rw [locate, List.pairwise_cons]
      refine ⟨?_, htail _⟩
      intro m hm
      have hlater := le_start_of_mem_locate hm
      have hpos : 0 < w.length := List.length_pos_iff.2 (h w a List.mem_cons_self)
      exact Nat.lt_of_lt_of_le (Nat.lt_add_of_pos_right hpos) hlater

/-- Matches are found from left to right. -/
theorem pairwise_starts_find (p : Pattern α) (s : Text) :
    (p.find s).Pairwise fun m n => m.start < n.start := by
  apply pairwise_starts_locate
  rintro w a hmem rfl
  obtain ⟨r, hr⟩ := read_of_hit hmem
  obtain ⟨x, hx, hr⟩ := p.nonempty hr
  exact hx (by simpa using hr)

/-- No two matches start at one place. -/
theorem nodup_starts_find (p : Pattern α) (s : Text) : ((p.find s).map Located.start).Nodup := by
  rw [List.Nodup, List.pairwise_map]
  exact (pairwise_starts_find p s).imp Nat.ne_of_lt

/-- The values of the matches, in order. -/
def values (ps : List (Piece α)) : List α :=
  ps.filterMap fun
    | .plain _ => none
    | .hit _ a => some a

theorem map_value_locate (offset : Nat) (ps : List (Piece α)) :
    (locate offset ps).map Located.value = values ps := by
  induction ps generalizing offset with
  | nil => rfl
  | cons x ps ih =>
    cases x with
    | plain c => exact ih (offset + 1)
    | hit w a => exact congrArg (a :: ·) (ih (offset + w.length))

@[simp] theorem values_plain (w : Text) : values (w.map Piece.plain : List (Piece α)) = [] := by
  simp [values]

@[simp] theorem values_hit (w : Text) (a : α) (ps : List (Piece α)) :
    values (.hit w a :: ps) = a :: values ps := rfl

@[simp] theorem values_append (ps qs : List (Piece α)) :
    values (ps ++ qs) = values ps ++ values qs :=
  List.filterMap_append

/-! ### Splicing at the matches -/

/-- The edit that a match asks for, where `f` has something to put in its place. -/
def editAt (f : α → Option Text) (m : Located α) : Option Edit :=
  (f m.value).map fun t => ⟨m.start, m.stop, t⟩

/-- A piece with what `f` puts in its place; it stays where `f` has nothing. -/
def replaced (f : α → Option Text) : Piece α → Text
  | .plain c => [c]
  | .hit w a => (f a).getD w

/-- A splice that is `before.length` characters past its cursor, at the front of the
    pieces `ps`. -/
theorem spliceFrom_locate (f : α → Option Text) (ps : List (Piece α)) (cursor : Nat)
    (before : Text) :
    Text.spliceFrom cursor (before ++ ps.flatMap Piece.source)
        ((locate (cursor + before.length) ps).filterMap (editAt f)) =
      before ++ ps.flatMap (replaced f) := by
  induction ps generalizing cursor before with
  | nil => simp [locate, Text.spliceFrom]
  | cons x ps ih =>
    cases x with
    | plain c =>
      have htail := ih cursor (before ++ [c])
      simp only [List.length_append, List.length_singleton] at htail
      simpa [locate, replaced, Piece.source, Nat.add_assoc] using htail
    | hit w a =>
      cases hf : f a with
      | none =>
        -- the match stays, and joins the text between the cursor and the next edit
        have htail := ih cursor (before ++ w)
        simp only [List.length_append] at htail
        simpa [locate, replaced, editAt, hf, Piece.source, Nat.add_assoc] using htail
      | some t =>
        -- the edit takes what is in front of it along, and the cursor moves behind the match
        have htail := ih (cursor + before.length + w.length) []
        simp only [List.nil_append, List.length_nil, Nat.add_zero] at htail
        have hdrop : cursor + before.length + w.length - cursor = before.length + w.length := by
          omega
        simp only [locate, List.filterMap_cons, editAt, hf, Option.map_some, Text.spliceFrom,
          List.flatMap_cons, Piece.source, replaced, Option.getD_some, hdrop]
        rw [Nat.add_sub_cancel_left, List.take_left, ← List.append_assoc before w,
          ← List.length_append, List.drop_left, htail, List.append_assoc]

/-- Splicing at the matches puts into the place of each what `f` has for it. -/
theorem splice_find (p : Pattern α) (f : α → Option Text) (s : Text) :
    s.splice ((p.find s).filterMap (editAt f)) = (p.pieces s).flatMap (replaced f) := by
  have h := spliceFrom_locate f (p.pieces s) 0 []
  simpa [Text.splice, find, sources_pieces] using h

/-! ### Texts for the matches, one after another -/

/-- The edit that puts a text in the place of a match. -/
def editWith (m : Located β) (t : Text) : Edit := ⟨m.start, m.stop, t⟩

/-- The pieces with the next of the texts for every match in which `f` finds something, as
    long as there are texts. -/
def assign (f : α → Option β) : List (Piece α) → List Text → List (Piece (Option Text))
  | [], _ => []
  | .plain c :: ps, ts => .plain c :: assign f ps ts
  | .hit w a :: ps, ts =>
    match f a, ts with
    | some _, t :: ts => .hit w (some t) :: assign f ps ts
    | _, ts => .hit w none :: assign f ps ts

section

variable {f : α → Option β} {w : Text} {a : α} {ps : List (Piece α)} {ts : List Text}

theorem assign_of_none (h : f a = none) :
    assign f (.hit w a :: ps) ts = .hit w none :: assign f ps ts := by simp [assign, h]

theorem assign_nil : assign f (.hit w a :: ps) [] = .hit w none :: assign f ps [] := by
  simp [assign]

theorem assign_of_some {b : β} (h : f a = some b) (t : Text) :
    assign f (.hit w a :: ps) (t :: ts) = .hit w (some t) :: assign f ps ts := by simp [assign, h]

theorem assign_plain (w : Text) :
    assign f (w.map Piece.plain ++ ps) ts = w.map Piece.plain ++ assign f ps ts := by
  induction w with
  | nil => rfl
  | cons c w ih => exact congrArg (Piece.plain c :: ·) ih

end

theorem sources_assign (f : α → Option β) (ps : List (Piece α)) (ts : List Text) :
    (assign f ps ts).flatMap Piece.source = ps.flatMap Piece.source := by
  induction ps generalizing ts with
  | nil => rfl
  | cons x ps ih =>
    cases x with
    | plain c => exact congrArg (c :: ·) (ih ts)
    | hit w a =>
      unfold assign
      split <;> exact congrArg (w ++ ·) (ih _)

theorem locate_assign (f : α → Option β) (ps : List (Piece α)) (ts : List Text) (offset : Nat) :
    (locate offset (assign f ps ts)).filterMap (editAt id) =
      List.zipWith editWith ((locate offset ps).filterMap (Located.filterMap f)) ts := by
  induction ps generalizing ts offset with
  | nil => rfl
  | cons x ps ih =>
    cases x with
    | plain c => exact ih ts (offset + 1)
    | hit w a =>
      have hskip : (locate offset (.hit w none :: assign f ps ts)).filterMap (editAt id) =
          List.zipWith editWith
            ((locate (offset + w.length) ps).filterMap (Located.filterMap f)) ts := by
        rw [locate, List.filterMap_cons_none rfl, ih]
      cases hf : f a with
      | none =>
        rw [assign_of_none hf, hskip, locate,
          List.filterMap_cons_none (by simp [Located.filterMap, hf])]
      | some b =>
        cases ts with
        | nil => rw [assign_nil, hskip, List.zipWith_nil_right, List.zipWith_nil_right]
        | cons t ts =>
          have hfind : Located.filterMap f ⟨offset, offset + w.length, w, a⟩ =
              some ⟨offset, offset + w.length, w, b⟩ := by simp [Located.filterMap, hf]
          rw [assign_of_some hf, locate, locate, List.filterMap_cons_some hfind,
            List.zipWith_cons_cons, ← ih]
          rfl

/-- Splicing texts at the matches that `f` picks puts them there one after another. -/
theorem splice_zipWith (p : Pattern α) (f : α → Option β) (s : Text) (ts : List Text) :
    s.splice (List.zipWith editWith ((p.find s).filterMap (Located.filterMap f)) ts) =
      (assign f (p.pieces s) ts).flatMap (replaced id) := by
  have h := spliceFrom_locate id (assign f (p.pieces s) ts) 0 []
  simpa [Text.splice, find, sources_assign, sources_pieces, locate_assign] using h

end PageAssembly.Pattern
