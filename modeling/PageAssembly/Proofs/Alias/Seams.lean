/-
  PageAssembly/Proofs/Alias/Seams.lean
  ====================================
  **What taking alias directives out leaves behind.**

  Where a directive is taken out, the text in front of it meets the text behind it: there is a seam.
  A new directive may come together across a seam, so one pass does not always take out all of them.
  But nothing else is left: each directive that the stripped text has and that defines a name reaches
  over a seam (`exists_seam`).  So the stripped text is clear, and another pass changes nothing,
  exactly if no directive reaches over a seam (`clear_strip_iff`).

  A directive that does not reach over a seam stands in a run of pieces that were next to each other in
  the page, too.  There it was not found, so the search was inside of a directive that defines
  nothing.  This one has no closing brace of its own in front of the other (`opening_inside`), and it
  would have to be found in the stripped text, too.
-/
import PageAssembly.Proofs.Alias.Grammar
import PageAssembly.Proofs.Alias.Stripping
import PageAssembly.Proofs.Text.Matches

namespace PageAssembly

namespace Alias

/-! ### Seams -/

/-- Whether the piece is left when the directives that define a name are taken out. -/
def stays : Piece Aliases → Bool
  | .plain _ => true
  | .hit _ a => a.isEmpty

/-- The text of the pieces that are left. -/
def kept (ps : List (Piece Aliases)) : Text := (ps.filter stays).flatMap Piece.source

/-- The offsets in the text that is left at which a piece was taken out; the first piece stands at
    `offset`. -/
def seamsFrom (offset : Nat) : List (Piece Aliases) → List Nat
  | [] => []
  | x :: ps => if stays x then seamsFrom (offset + x.source.length) ps else offset :: seamsFrom offset ps

/-- The offsets in the stripped text at which a directive was taken out. -/
def seams (s : Text) : List Nat := seamsFrom 0 (pattern.pieces s)

/-- The text has no directive that defines a name: none is found, nothing is taken out, and nothing is
    defined. -/
structure Clear (s : Text) : Prop where
  occursIn_eq : occursIn s = false
  strip_eq : strip s = s
  defined_eq : defined s = OrderedMap.empty

theorem kept_cons_of_stays {x : Piece Aliases} (h : stays x = true) (ps : List (Piece Aliases)) :
    kept (x :: ps) = x.source ++ kept ps := by
  rw [kept, List.filter_cons_of_pos h, List.flatMap_cons, kept]

theorem kept_cons_of_not_stays {x : Piece Aliases} (h : stays x = false) (ps : List (Piece Aliases)) :
    kept (x :: ps) = kept ps := by
  rw [kept, List.filter_cons_of_neg (by simp [h]), kept]

theorem kept_append (ps qs : List (Piece Aliases)) : kept (ps ++ qs) = kept ps ++ kept qs := by
  rw [kept, List.filter_append, List.flatMap_append, kept, kept]

theorem kept_of_stays {ps : List (Piece Aliases)} (h : ∀ x ∈ ps, stays x = true) :
    kept ps = ps.flatMap Piece.source := by
  rw [kept, List.filter_eq_self.2 h]

theorem strip_eq_kept (s : Text) : strip s = kept (pattern.pieces s) := by
  rw [strip_eq]
  induction pattern.pieces s with
  | nil => rfl
  | cons x ps ih =>
    rw [List.flatMap_cons, ih]
    cases x with
    | plain c => rfl
    | hit w a =>
      cases ha : a.isEmpty with
      | true =>
        rw [kept_cons_of_stays (show stays (.hit w a) = true from ha)]
        simp [Pattern.replaced, erased, ha, Piece.source]
      | false =>
        rw [kept_cons_of_not_stays (show stays (.hit w a) = false from ha)]
        simp [Pattern.replaced, erased, ha]

theorem clear_iff {s : Text} : Clear s ↔ find s = [] := by
  constructor
  · intro h
    simpa [occursIn] using h.occursIn_eq
  · intro h
    constructor
    · rw [occursIn, h]
      rfl
    · rw [strip, h]
      rfl
    · rw [defined, h]
      rfl

/-! ### Runs of pieces that stay -/

/-- The text of the pieces in front of the first one that is taken out. -/
def run (ps : List (Piece Aliases)) : Text := (ps.takeWhile stays).flatMap Piece.source

theorem kept_eq_run (ps : List (Piece Aliases)) : kept ps = run ps ++ kept (ps.dropWhile stays) := by
  conv_lhs => rw [← List.takeWhile_append_dropWhile (p := stays) (l := ps)]
  rw [kept_append, kept_of_stays fun _ => List.mem_takeWhile_imp, run]

theorem stays_head?_dropWhile (ps : List (Piece Aliases)) :
    ∀ y ∈ (ps.dropWhile stays).head?, stays y = false := by
  intro y hy
  have hhead := List.head?_dropWhile_not stays ps
  rw [Option.mem_def.1 hy] at hhead
  exact hhead

/-- A run ends at a seam, or with the text. -/
theorem end_run_mem_seamsFrom {ps : List (Piece Aliases)} (h : ps.dropWhile stays ≠ []) (offset : Nat) :
    offset + (run ps).length ∈ seamsFrom offset ps := by
  induction ps generalizing offset with
  | nil => exact absurd rfl h
  | cons y ps ih =>
    cases hy : stays y with
    | true =>
      rw [List.dropWhile_cons_of_pos hy] at h
      rw [seamsFrom, if_pos hy, run, List.takeWhile_cons_of_pos hy, List.flatMap_cons,
        List.length_append, ← Nat.add_assoc]
      exact ih h (offset + y.source.length)
    | false =>
      rw [run, List.takeWhile_cons_of_neg (by simp [hy]), seamsFrom, hy]
      exact List.mem_cons_self

section

variable {ps : List (Piece Aliases)} {offset : Nat} {z x rest : Text}

/-- A part of the text that is left, with no seam inside, stands in the first run if it starts there. -/
theorem exists_of_starts_in_run (h : kept ps = z ++ (x ++ rest)) (hz : z.length < (run ps).length)
    (hseams : ∀ j ∈ seamsFrom offset ps, ¬(offset + z.length < j ∧ j < offset + z.length + x.length)) :
    ∃ v, run ps = z ++ (x ++ v) ∧ rest = v ++ kept (ps.dropWhile stays) := by
  have hsplit : run ps ++ kept (ps.dropWhile stays) = z ++ x ++ rest := by
    rw [← kept_eq_run, h, List.append_assoc]
  have hlength : (z ++ x).length ≤ (run ps).length := by
    by_cases hend : ps.dropWhile stays = []
    · have hall : run ps = z ++ x ++ rest := by
        rw [← hsplit, hend]
        exact (List.append_nil _).symm
      rw [hall]
      exact (List.prefix_append (z ++ x) rest).length_le
    · have hout := hseams _ (end_run_mem_seamsFrom hend offset)
      rw [List.length_append]
      omega
  have hprefix : z ++ x <+: run ps :=
    List.prefix_of_prefix_length_le (hsplit ▸ List.prefix_append (z ++ x) rest)
      (List.prefix_append (run ps) _) hlength
  obtain ⟨v, hv⟩ := hprefix
  refine ⟨v, by rw [← hv, List.append_assoc], ?_⟩
  rw [← hv, List.append_assoc] at hsplit
  exact (List.append_cancel_left hsplit).symm

/-- A part of the text that is left, with no seam inside, stands in a run of pieces that all stay.  The
    run starts with the piece in which the part starts, and ends where a piece is taken out. -/
theorem exists_run (h : kept ps = z ++ (x ++ rest)) (hx : x ≠ [])
    (hseams : ∀ j ∈ seamsFrom offset ps, ¬(offset + z.length < j ∧ j < offset + z.length + x.length)) :
    ∃ before y within after u v, ps = before ++ y :: (within ++ after) ∧ stays y = true ∧
      (∀ y' ∈ after.head?, stays y' = false) ∧ (y :: within).flatMap Piece.source = u ++ (x ++ v) ∧
      u.length < y.source.length ∧ z = kept before ++ u ∧ rest = v ++ kept after := by
  induction ps generalizing offset z with
  | nil =>
    obtain ⟨-, hnil⟩ := List.append_eq_nil_iff.1 h.symm
    exact absurd (List.append_eq_nil_iff.1 hnil).1 hx
  | cons y ps ih =>
    cases hy : stays y with
    | false =>
      rw [kept_cons_of_not_stays hy] at h
      rw [seamsFrom, hy] at hseams
      obtain ⟨before, y', within, after, u, v, rfl, hy', hafter, hwithin, hu, rfl, hrest⟩ :=
        ih h fun j hj => hseams j (List.mem_cons_of_mem offset hj)
      refine ⟨y :: before, y', within, after, u, v, rfl, hy', hafter, hwithin, hu, ?_, hrest⟩
      rw [kept_cons_of_not_stays hy]
    | true =>
      by_cases hz : z.length < y.source.length
      · -- the part starts in this piece
        have htake : (y :: ps).takeWhile stays = y :: ps.takeWhile stays := List.takeWhile_cons_of_pos hy
        have hdrop : (y :: ps).dropWhile stays = ps.dropWhile stays := List.dropWhile_cons_of_pos hy
        have hrun : z.length < (run (y :: ps)).length := by
          rw [run, htake, List.flatMap_cons, List.length_append]
          omega
        obtain ⟨v, hv, hrest⟩ := exists_of_starts_in_run h hrun hseams
        rw [run, htake] at hv
        rw [hdrop] at hrest
        refine ⟨[], y, ps.takeWhile stays, ps.dropWhile stays, z, v, ?_, hy, stays_head?_dropWhile ps, hv,
          hz, rfl, hrest⟩
        rw [List.takeWhile_append_dropWhile, List.nil_append]
      · rw [kept_cons_of_stays hy] at h
        obtain ⟨z, rfl⟩ : y.source <+: z :=
          List.prefix_of_prefix_length_le (h ▸ List.prefix_append _ _) (List.prefix_append z (x ++ rest))
            (Nat.le_of_not_lt hz)
        rw [List.append_assoc] at h
        rw [seamsFrom, if_pos hy, List.length_append, ← Nat.add_assoc] at hseams
        obtain ⟨before, y', within, after, u, v, rfl, hy', hafter, hwithin, hu, rfl, hrest⟩ :=
          ih (List.append_cancel_left h) hseams
        refine ⟨y :: before, y', within, after, u, v, rfl, hy', hafter, hwithin, hu, ?_, hrest⟩
        rw [kept_cons_of_stays hy, List.append_assoc]

end

/-! ### A directive inside another one -/

theorem exists_ends {w r : Text} {a : Aliases} (h : readDirective (w ++ r) = some (a, r)) :
    (∃ t, w = '{' :: '{' :: t) ∧ ∃ t, w = t ++ Directive.closing := by
  rcases exists_written h with ⟨body, hform, -⟩ | ⟨span, hform, -⟩
  · cases hform with
    | @intro head lead inner trail head_form =>
      obtain ⟨rest, -, -, rfl⟩ := head_form.exists_rest
      exact ⟨⟨_, rfl⟩, '{' :: '{' :: rest ++ (lead ++ (body ++ trail)), by simp⟩
  · cases hform with
    | @intro head head_form =>
      obtain ⟨rest, -, -, rfl⟩ := head_form.exists_rest
      exact ⟨⟨_, rfl⟩, '{' :: '{' :: rest ++ span, by simp⟩

/-- A directive with its body in braces has two opening braces side by side at its front only. -/
theorem Braced.eq_nil_of_opening {body w u t : Text} (h : Braced body w) (hw : w = u ++ '{' :: '{' :: t) :
    u = [] := by
  cases h with
  | @intro head lead inner trail head_form lead_blank unopened unclosed trail_blank body_eq =>
    obtain ⟨rest, hne, hrest, rfl⟩ := head_form.exists_rest
    have hlead : '{' ∉ lead := Text.not_mem_blanks lead_blank (by decide)
    have htrail : '{' ∉ trail := Text.not_mem_blanks trail_blank (by decide)
    have hfront : '{' ∉ rest ++ lead := by simp [hrest, hlead]
    have hback : '{' ∉ inner ++ '}' :: (trail ++ Directive.closing) := by
      simp [unopened, htrail, Directive.closing]
    have hbraces : u ++ '{' :: '{' :: t =
        '{' :: '{' :: (rest ++ lead ++ '{' :: (inner ++ '}' :: (trail ++ Directive.closing))) := by
      rw [← hw, body_eq]
      simp
    cases u with
    | nil => rfl
    | cons c u =>
      have hbraces := (List.cons.inj hbraces).2
      cases u with
      | nil =>
        -- the head would go on with a third brace
        obtain ⟨d, rest, rfl⟩ := List.exists_cons_of_ne_nil hne
        obtain ⟨rfl, -⟩ := List.cons.inj (List.cons.inj hbraces).2
        exact absurd List.mem_cons_self hrest
      | cons d u =>
        obtain ⟨e, -, he⟩ := Text.exists_append_of_not_mem hfront (List.cons.inj hbraces).2
        cases e with
        | nil =>
          rw [(List.cons.inj he).2] at hback
          exact absurd List.mem_cons_self hback
        | cons f e =>
          rw [(List.cons.inj he).2] at hback
          exact absurd (List.mem_append_right e List.mem_cons_self) hback

/-- Where two opening braces stand side by side inside a directive, its first closing braces are behind
    them and end it. -/
theorem opening_inside {u t r : Text} {a : Aliases} (hu : u ≠ [])
    (h : readDirective (u ++ '{' :: '{' :: t ++ r) = some (a, r)) :
    '}' ∉ u ∧ ∃ k, '}' ∉ k ∧ '{' :: '{' :: t = k ++ Directive.closing := by
  rcases exists_written h with ⟨body, hform, -⟩ | ⟨span, hform, -⟩
  · exact absurd (hform.eq_nil_of_opening rfl) hu
  · generalize hw : u ++ '{' :: '{' :: t = w at hform
    cases hform with
    | @intro head head_form unclosed =>
      have hclosed : '}' ∉ head ++ span := by simp [head_form.unclosed, unclosed]
      rw [← List.append_assoc] at hw
      rcases List.append_eq_append_iff.1 hw with ⟨k, hk, ht⟩ | ⟨k, -, hk⟩
      · rw [hk, List.mem_append, not_or] at hclosed
        exact ⟨hclosed.1, k, hclosed.2, ht⟩
      · have hmem : '{' ∈ Directive.closing := hk ▸ List.mem_append_right k List.mem_cons_self
        exact absurd hmem (by decide)

/-- Where the rest of a directive and a text that starts with two opening braces start alike, the rest
    starts with both braces. -/
theorem exists_opening {u w q t : Text} {a : Aliases} (h : readDirective (u ++ w ++ q) = some (a, q))
    (hw : w ≠ []) (ht : '{' :: '{' :: t = w ++ q) : ∃ t', w = '{' :: '{' :: t' := by
  obtain ⟨-, e, he⟩ := exists_ends h
  obtain ⟨c, w, rfl⟩ := List.exists_cons_of_ne_nil hw
  obtain ⟨rfl, htail⟩ := List.cons.inj ht
  cases w with
  | nil =>
    have hlast := congrArg List.getLast? he
    simp [Directive.closing] at hlast
  | cons d w =>
    obtain rfl : '{' = d := (List.cons.inj htail).1
    exact ⟨w, rfl⟩

/-- The first closing braces of a text that ends in closing braces are in it. -/
theorem exists_behind_closing {k x q r : Text} (hk : '}' ∉ k) (hx : ∃ t, x = t ++ Directive.closing)
    (h : x ++ r = k ++ Directive.closing ++ q) : ∃ x', x = k ++ Directive.closing ++ x' := by
  obtain ⟨t, rfl⟩ := hx
  rcases List.append_eq_append_iff.1 h with ⟨e, he, -⟩ | ⟨e, he, -⟩
  · have hbraces : t ++ '}' :: ('}' :: e) = k ++ Directive.closing := by
      rw [he]
      simp [Directive.closing]
    obtain ⟨f, rfl, hf⟩ := Text.exists_append_of_not_mem hk hbraces
    have hlength := congrArg List.length hf
    simp only [Directive.closing, List.length_cons, List.length_nil, List.length_append] at hlength
    have hnil : e = [] := List.length_eq_zero_iff.1 (by omega)
    have hnil' : f = [] := List.length_eq_zero_iff.1 (by omega)
    exact ⟨[], by rw [hnil', List.append_nil, List.append_nil]⟩
  · exact ⟨e, he⟩

/-- A directive `x` that defines a name is not found where it is read only if the search is inside of a
    directive that defines nothing.  That one holds no closing brace in front of `x`, and it is read in
    front of `x` whatever is behind. -/
theorem read_around {u x r : Text} {y : Piece Aliases} {qs : List (Piece Aliases)} {a : Aliases}
    (hpieces : pattern.pieces (u ++ (x ++ r)) = y :: qs) (hy : stays y = true)
    (hu : u.length < y.source.length) (hread : readDirective (x ++ r) = some (a, r))
    (ha : a.isEmpty = false) :
    '}' ∉ u ∧ u ≠ [] ∧ ∀ r', (readDirective (u ++ (x ++ r'))).isSome := by
  rcases Pattern.pieces_eq_cons hpieces with ⟨c, q, rfl, hs, hnone, -⟩ | ⟨w, b, q, rfl, hs, hhit, -⟩
  · have hnil : u = [] := List.length_eq_zero_iff.1 (Nat.lt_one_iff.1 hu)
    rw [hnil] at hnone
    exact absurd (hnone.symm.trans hread) (by simp)
  · obtain ⟨w, rfl⟩ : u <+: w :=
      List.prefix_of_prefix_length_le (List.prefix_append u (x ++ r)) (hs ▸ List.prefix_append w q)
        (Nat.le_of_lt hu)
    have hrest : x ++ r = w ++ q := by
      rw [List.append_assoc] at hs
      exact List.append_cancel_left hs
    have hne : u ≠ [] := by
      rintro rfl
      have hboth : some (a, r) = some (b, q) := hread.symm.trans hhit
      rw [(Prod.mk.inj (Option.some.inj hboth)).1] at ha
      exact absurd (ha.symm.trans hy) (by simp)
    have hw : w ≠ [] := by
      rintro rfl
      rw [List.append_nil] at hu
      exact absurd hu (Nat.lt_irrefl _)
    rw [hs] at hhit
    -- what is left of the directive around starts with the braces of `x`, and ends in `x`
    obtain ⟨⟨t, ht⟩, hclosing⟩ := exists_ends hread
    obtain ⟨t', rfl⟩ := exists_opening hhit hw (ht ▸ hrest)
    obtain ⟨hclosed, k, hk, hend⟩ := opening_inside hne hhit
    obtain ⟨x', hx'⟩ := exists_behind_closing hk hclosing (hend ▸ hrest)
    refine ⟨hclosed, hne, fun r' => ?_⟩
    rw [hx', ← hend, List.append_assoc, ← List.append_assoc]
    exact isSome_read_behind hhit _

/-! ### What is left -/

theorem exists_of_hit {s w : Text} {a : Aliases} (h : Piece.hit w a ∈ pattern.pieces s) :
    ∃ t, w = '{' :: t := by
  obtain ⟨r, hread⟩ := Pattern.read_of_hit h
  obtain ⟨⟨t, rfl⟩, -⟩ := exists_ends hread
  exact ⟨_, rfl⟩

/-- No match ends in a stretch without closing braces. -/
theorem not_ends_inside {s z u r : Text} (hs : s = z ++ (u ++ r)) (hu : '}' ∉ u) {m : Located Aliases}
    (hm : m ∈ pattern.find s) (hz : z.length < m.stop) : z.length + u.length < m.stop := by
  refine Pattern.not_ends_inside (fun hread => ?_) hs hu hm hz
  obtain ⟨-, t, rfl⟩ := exists_ends hread
  exact ⟨t ++ ['}'], by simp [Directive.closing]⟩

/-- A run that is followed by a closing brace in the page is followed by one in the stripped text, too:
    what is taken out starts with an opening brace. -/
theorem head?_behind {s v : Text} {before after : List (Piece Aliases)}
    (h : pattern.pieces s = before ++ after) (hafter : ∀ x ∈ after.head?, stays x = false)
    (hhead : (v ++ after.flatMap Piece.source).head? = some '}') :
    (v ++ kept after).head? = some '}' := by
  cases v with
  | cons c v => exact hhead
  | nil =>
    cases after with
    | nil => cases hhead
    | cons x after =>
      have hx : stays x = false := hafter x rfl
      cases x with
      | plain c => cases hx
      | hit w a =>
        have hmem : Piece.hit w a ∈ pattern.pieces s := by simp [h]
        obtain ⟨t, rfl⟩ := exists_of_hit hmem
        cases hhead

/-- Each directive that is left and defines a name reaches over a seam. -/
theorem exists_seam {s : Text} {m : Located Aliases} (h : m ∈ find (strip s)) :
    ∃ j ∈ seams s, m.start < j ∧ j < m.stop := by
  apply Decidable.byContradiction
  intro hnone
  obtain ⟨hm, hvalue⟩ := List.mem_filter.1 h
  have hdefines : m.value.isEmpty = false := by simpa using hvalue
  obtain ⟨z, rest, hsplit, hne, hstart, hstop, hread⟩ := Pattern.exists_of_mem_locate hm
  rw [Nat.zero_add] at hstart
  have hseams : ∀ j ∈ seams s, ¬(0 + z.length < j ∧ j < 0 + z.length + m.source.length) := by
    intro j hj hinside
    rw [Nat.zero_add, ← hstart, ← hstop] at hinside
    exact hnone ⟨j, hj, hinside⟩
  obtain ⟨before, y, within, after, u, v, hps, hy, hafter, hwithin, hu, rfl, rfl⟩ :=
    exists_run (strip_eq_kept s ▸ hsplit) hne hseams
  -- in the page, the same directive is read at the same place of the run
  have hpieces := Pattern.pieces_of_append hps
  rw [← List.cons_append, List.flatMap_append, hwithin, List.append_assoc, List.append_assoc] at hpieces
  have hbehind : (v ++ after.flatMap Piece.source).head? = some '}' →
      (v ++ kept after).head? = some '}' := by
    have hsplit : pattern.pieces s = (before ++ y :: within) ++ after := by
      rw [hps, List.append_assoc, List.cons_append]
    exact head?_behind hsplit hafter
  obtain ⟨hclosed, hfront, hsome⟩ := read_around hpieces hy hu (read_behind hread hbehind) hdefines
  -- so something is read in front of it in the stripped text, too, but its match cannot end
  have hs : strip s = kept before ++ (u ++ (m.source ++ (v ++ kept after))) := by
    rw [hsplit, List.append_assoc]
  obtain ⟨n, hn, hfrom, hto⟩ := pattern.exists_covering 0 hs (hsome _)
  rw [Nat.zero_add] at hfrom hto
  have hpos : 0 < u.length := List.length_pos_iff.2 hfront
  rw [List.length_append] at hstart
  have hlate := not_ends_inside hs hclosed hn hto
  have hearly := (pattern.scans_find (strip s)).stop_le hn hm (by omega)
  omega

/-- One pass leaves a clear text exactly if no directive of the text that is left reaches over a seam;
    so it does if no opening brace is left in front of a seam. -/
theorem clear_strip_iff (s : Text) :
    (Clear (strip s) ↔ ∀ m ∈ find (strip s), ∀ j ∈ seams s, ¬(m.start < j ∧ j < m.stop)) ∧
      ((∀ j ∈ seams s, '{' ∉ (strip s).take j) → Clear (strip s)) := by
  have hclear : (∀ m ∈ find (strip s), ∀ j ∈ seams s, ¬(m.start < j ∧ j < m.stop)) →
      Clear (strip s) := by
    intro hnone
    refine clear_iff.2 (List.eq_nil_iff_forall_not_mem.2 fun m hm => ?_)
    obtain ⟨j, hj, hinside⟩ := exists_seam hm
    exact hnone m hm j hj hinside
  refine ⟨⟨fun h m hm => ?_, hclear⟩, fun h => hclear fun m hm j hj hinside => ?_⟩
  · rw [clear_iff.1 h] at hm
    cases hm
  · -- the directive starts with an opening brace, in front of the seam
    obtain ⟨z, r, hsplit, -, hstart, -, hread⟩ :=
      Pattern.exists_of_mem_locate (List.mem_of_mem_filter hm)
    obtain ⟨⟨t, ht⟩, -⟩ := exists_ends hread
    rw [Nat.zero_add] at hstart
    have hbrace : ((strip s).take j)[m.start]? = some '{' := by
      rw [List.getElem?_take_of_lt hinside.1, hsplit, hstart, List.getElem?_append_right (Nat.le_refl _),
        Nat.sub_self, ht]
      rfl
    exact h j hj (List.mem_of_getElem? hbrace)

/-- A directive inside another one, whose halves come together when it is taken out. -/
def joined : Text := "\x7b\x7bali\x7b\x7baliases a=1\x7d\x7dases b=2\x7d\x7d".toList

theorem strip_joined : strip joined = "\x7b\x7baliases b=2\x7d\x7d".toList ∧
    occursIn (strip joined) = true ∧ strip (strip joined) = [] ∧
    (defined (strip joined)).entries = [("b".toList, "2".toList)] := by
  have hstrip : strip joined = "\x7b\x7baliases b=2\x7d\x7d".toList := by decide +kernel
  rw [hstrip]
  exact ⟨rfl, by decide +kernel, by decide +kernel, by decide +kernel⟩

end Alias
end PageAssembly
