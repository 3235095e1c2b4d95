/-
  PageAssembly/Proofs/Alias/Stripping.lean
  ========================================
  **Taking alias directives out removes whole signs.**

  Alias directives are taken out of the masked page, so a block inside one goes with it.
  A directive starts and ends with a brace, which no placeholder holds; so no block is
  cut in two.  `left` are the signs of the page that lie in no alias directive, and
  `veiled_left` says that they are what is left of the masked page.
-/
import PageAssembly.Alias.Directive
import PageAssembly.Proofs.Verbatim.Stretches

namespace PageAssembly

/-- The signs that start at offsets of the veiled page which are not gone. -/
def Signs.outside (v : Veil) (gone : Nat → Bool) : Nat → Signs → Signs
  | _, [] => []
  | offset, x :: g =>
    let rest := outside v gone (offset + (x.veiled v).length) g
    if gone offset then rest else x :: rest

theorem Sign.length_veiled_pos {v : Veil} (hv : ∀ n, v n ≠ []) (x : Sign) :
    0 < (x.veiled v).length := by
  cases x with
  | letter c => simp [Sign.veiled]
  | block n inner => exact List.length_pos_iff.2 (hv n)

namespace Signs

variable {v : Veil} {gone : Nat → Bool}

theorem outside_append (offset : Nat) (g h : Signs) :
    outside v gone offset (g ++ h) =
      outside v gone offset g ++ outside v gone (offset + (g.veiled v).length) h := by
  induction g generalizing offset with
  | nil => rfl
  | cons x g ih =>
    simp only [List.cons_append, outside, ih, veiled_cons, List.length_append, Nat.add_assoc]
    split <;> rfl

theorem outside_sublist (offset : Nat) (g : Signs) : (outside v gone offset g).Sublist g := by
  induction g generalizing offset with
  | nil => exact List.Sublist.refl _
  | cons x g ih =>
    simp only [outside]
    split
    · exact (ih _).cons x
    · exact (ih _).cons_cons x

theorem outside_eq_nil (hv : ∀ n, v n ≠ []) (offset : Nat) {g : Signs}
    (h : ∀ o, offset ≤ o → o < offset + (g.veiled v).length → gone o = true) :
    outside v gone offset g = [] := by
  induction g generalizing offset with
  | nil => rfl
  | cons x g ih =>
    have hx := x.length_veiled_pos hv
    simp only [veiled_cons, List.length_append] at h
    have hhead : gone offset = true := h offset (Nat.le_refl _) (by omega)
    have htail := ih (offset + (x.veiled v).length) fun o h₁ h₂ => h o (by omega) (by omega)
    rw [outside, if_pos hhead]
    exact htail

theorem outside_eq_self (hv : ∀ n, v n ≠ []) (offset : Nat) {g : Signs}
    (h : ∀ o, offset ≤ o → o < offset + (g.veiled v).length → gone o = false) :
    outside v gone offset g = g := by
  induction g generalizing offset with
  | nil => rfl
  | cons x g ih =>
    have hx := x.length_veiled_pos hv
    simp only [veiled_cons, List.length_append] at h
    have hhead : gone offset = false := h offset (Nat.le_refl _) (by omega)
    have htail := ih (offset + (x.veiled v).length) fun o h₁ h₂ => h o (by omega) (by omega)
    rw [outside, if_neg (by simp [hhead]), htail]

end Signs

def Located.covers (m : Located α) (offset : Nat) : Bool := m.start ≤ offset && offset < m.stop

namespace Alias

/-! ### Alias directives of a masked page -/

theorem closing_suffix_of_readBody {s b r : Text} (h : readBody s = some (b, r)) :
    Directive.closing ++ r <:+ s := by
  cases s with
  | nil => cases h
  | cons c s =>
    simp only [readBody] at h
    split at h
    · have hs : Text.trimStart s <:+ c :: s := (List.dropWhile_suffix _).trans (List.suffix_cons c s)
      refine List.IsSuffix.trans ?_ hs
      simp only [Option.orElse_eq_orElse, Option.orElse_eq_or, Option.or_eq_some_iff] at h
      rcases h with h | ⟨_, h⟩
      · unfold readBraced at h
        split at h
        · next t ht =>
          split at h
          · next u hu =>
            simp only [Option.map_eq_some_iff, Prod.mk.injEq] at h
            obtain ⟨w, hw, _, rfl⟩ := h
            have h₁ : Directive.closing ++ w <:+ u :=
              Text.expect_eq_some_iff.1 hw ▸ List.dropWhile_suffix _
            have h₂ : '}' :: u <:+ t := hu ▸ List.dropWhile_suffix _
            rw [ht]
            exact ((h₁.trans (List.suffix_cons _ _)).trans h₂).trans (List.suffix_cons _ _)
          · cases h
        · cases h
      · simp only [readOpen, Option.map_eq_some_iff, Prod.mk.injEq] at h
        obtain ⟨w, hw, _, rfl⟩ := h
        exact Text.expect_eq_some_iff.1 hw ▸ List.dropWhile_suffix _
    · cases h

theorem exists_of_readDirective {s r : Text} {a : Aliases} (h : readDirective s = some (a, r)) :
    ∃ body, s = '{' :: (body ++ '}' :: r) := by
  simp only [readDirective, Option.bind_eq_bind, Option.bind_eq_some_iff, Option.pure_def,
    Option.some.injEq, Prod.mk.injEq] at h
  obtain ⟨t, ht, u, hu, ⟨b, w⟩, hw, _, rfl⟩ := h
  obtain ⟨x, hx⟩ := closing_suffix_of_readBody hw
  obtain ⟨y, _, rfl⟩ := Text.expectBy_eq_some hu
  refine ⟨'{' :: (y ++ x ++ ['}']), ?_⟩
  rw [Text.expect_eq_some_iff.1 ht, ← hx]
  simp [Directive.opening, Directive.closing]

theorem read_eq_none (c : Char) (s : Text) (h : c ≠ '{') : pattern.read (c :: s) = none := by
  refine Option.eq_none_iff_forall_not_mem.2 ?_
  rintro ⟨a, r⟩ hread
  obtain ⟨body, hbody⟩ := exists_of_readDirective hread
  exact h (List.cons.inj hbody).1

/-- Every alias directive of a veiled page covers whole signs. -/
theorem steady {v : Veil} (hv : v.Wordlike) (x : Sign) (g : Signs) :
    pattern.Passes (· = v) x g ∨ pattern.Takes (· = v) (fun _ _ => True) (x :: g) := by
  cases h : readDirective (Signs.veiled v (x :: g)) with
  | some m =>
    obtain ⟨a, r⟩ := m
    obtain ⟨body, hs⟩ := exists_of_readDirective h
    rw [← List.cons_append] at hs
    obtain ⟨g₁, g₂, hg, _, rfl⟩ := Signs.veiled_eq_append_cons (hv.not_mem (by decide)) hs
    -- the last brace of the directive is a letter of the page, for no placeholder has one
    refine Or.inr ⟨g₁ ++ [.letter '}'], g₂, fun _ => a, by simp, by simp [hg], trivial, ?_⟩
    rintro w rfl
    exact h
  | none =>
    left
    rintro w rfl z hz hzx
    refine Option.eq_none_iff_forall_not_mem.2 ?_
    rintro ⟨a, r⟩ hread
    cases x with
    | letter c =>
      obtain rfl := Sign.eq_of_suffix_letter hz hzx
      exact absurd (h.symm.trans hread) (by simp)
    | block n inner =>
      obtain ⟨body, hs⟩ := exists_of_readDirective hread
      exact absurd hs (hv.append_ne_cons (by decide) hz hzx)

/-! ### What is left of a page -/

/-- Nothing in the place of a directive that defines a name. -/
def erased (a : Aliases) : Option Text := if a.isEmpty then none else some []

theorem strip_eq (s : Text) : strip s = (pattern.pieces s).flatMap (Pattern.replaced erased) := by
  rw [← Pattern.splice_find, strip, find]
  congr 1
  induction pattern.find s with
  | nil => rfl
  | cons m ms ih =>
    cases h : m.value.isEmpty with
    | true => simp [h, ih, Pattern.editAt, erased]
    | false => simp [h, ih, Pattern.editAt, erased]

/-- Whether one of the directives that define a name covers the offset. -/
def gone (ms : List (Located Aliases)) (offset : Nat) : Bool :=
  (ms.filter fun m => !m.value.isEmpty).any fun m => m.covers offset

/-- The signs of a page that lie in no alias directive of the masked page. -/
def left (t s : Text) : Signs :=
  Signs.outside (Verbatim.placeholder t) (gone (pattern.find (Verbatim.mask t s))) 0
    (Verbatim.signs s)

theorem gone_locate_of_lt (ps : List (Piece Aliases)) {offset o : Nat} (h : o < offset) :
    gone (Pattern.locate offset ps) o = false := by
  rw [gone, List.any_eq_false]
  intro m hm hcovers
  have hstart := Pattern.le_start_of_mem_locate (List.mem_of_mem_filter hm)
  simp only [Located.covers, Bool.and_eq_true, decide_eq_true_eq] at hcovers
  omega

/-- Behind the match, only later directives count. -/
theorem gone_locate_hit {w : Text} {a : Aliases} (ps : List (Piece Aliases)) {offset o : Nat}
    (h : offset ≤ o) : gone (Pattern.locate offset (.hit w a :: ps)) o =
      if o < offset + w.length then !a.isEmpty
      else gone (Pattern.locate (offset + w.length) ps) o := by
  have hhead : gone (Pattern.locate offset (.hit w a :: ps)) o =
      (!a.isEmpty && decide (o < offset + w.length) ||
        gone (Pattern.locate (offset + w.length) ps) o) := by
    cases ha : a.isEmpty <;> simp [gone, Pattern.locate, Located.covers, ha, h]
  rw [hhead]
  split
  · next hlt =>
    rw [gone_locate_of_lt ps hlt]
    simp [hlt]
  · next hge => simp [hge]

theorem veiled_outside {v : Veil} (hv : ∀ n, v n ≠ []) (ss : List (Stretch (Veil → Aliases)))
    (offset : Nat) {cut : Nat → Bool}
    (hcut : ∀ o, offset ≤ o → cut o = gone (Pattern.locate offset (ss.flatMap (Stretch.pieces v))) o) :
    (Signs.outside v cut offset (ss.flatMap Stretch.signs)).veiled v =
      (ss.flatMap (Stretch.pieces v)).flatMap (Pattern.replaced erased) := by
  induction ss generalizing offset with
  | nil => rfl
  | cons s ss ih =>
    cases s with
    | plain x =>
      have hkeep : cut offset = false := by
        rw [hcut offset (Nat.le_refl _), List.flatMap_cons, Stretch.pieces, Pattern.locate_plain]
        exact gone_locate_of_lt _ (by have := x.length_veiled_pos hv; omega)
      have htail := ih (offset + (x.veiled v).length) fun o ho => by
        rw [hcut o (by omega), List.flatMap_cons, Stretch.pieces, Pattern.locate_plain]
      have hplain : ((x.veiled v).map Piece.plain).flatMap (Pattern.replaced erased) = x.veiled v := by
        simp [List.flatMap_map, Pattern.replaced]
      rw [List.flatMap_cons, List.flatMap_cons, Stretch.signs, Stretch.pieces,
        List.flatMap_append, hplain, List.singleton_append, Signs.outside, if_neg (by simp [hkeep]),
        Signs.veiled_cons, htail]
    | hit h a =>
      -- over the match `cut` is what the match defines, and behind it what the later ones say
      have hspan : ∀ o, offset ≤ o → cut o =
          if o < offset + (h.veiled v).length then !(a v).isEmpty
          else gone (Pattern.locate (offset + (h.veiled v).length)
            (ss.flatMap (Stretch.pieces v))) o := by
        intro o ho
        rw [hcut o ho, List.flatMap_cons, Stretch.pieces, List.singleton_append, gone_locate_hit _ ho]
      have htail := ih (offset + (h.veiled v).length) fun o ho => by
        rw [hspan o (by omega), if_neg (by omega)]
      have hhead : (Signs.outside v cut offset h).veiled v =
          Pattern.replaced erased (.hit (h.veiled v) (a v)) := by
        cases ha : (a v).isEmpty with
        | true =>
          rw [Signs.outside_eq_self hv offset fun o h₁ h₂ => by rw [hspan o h₁, if_pos h₂, ha]; rfl]
          simp [Pattern.replaced, erased, ha]
        | false =>
          rw [Signs.outside_eq_nil hv offset fun o h₁ h₂ => by rw [hspan o h₁, if_pos h₂, ha]; rfl]
          simp [Pattern.replaced, erased, ha]
      rw [List.flatMap_cons, List.flatMap_cons, Stretch.signs, Stretch.pieces, Signs.outside_append,
        Signs.veiled_append, htail, hhead]
      rfl

/-- The signs outside alias directives are what is left of the masked page. -/
theorem veiled_left {t : Text} (ht : Verbatim.IsToken t) (s : Text) :
    (left t s).veiled (Verbatim.placeholder t) = strip (Verbatim.mask t s) := by
  have hv := Verbatim.wordlike_placeholder ht
  obtain ⟨ss, hss, -, hpieces⟩ := pattern.exists_stretches (steady hv) (Verbatim.signs s)
  have hmask := hpieces _ rfl
  rw [← Verbatim.mask_eq_veiled] at hmask
  rw [strip_eq, hmask, left]
  conv_lhs => rw [← hss]
  refine veiled_outside hv.ne_nil ss 0 fun o _ => ?_
  rw [Pattern.find, hmask]

theorem left_sublist (t s : Text) : (left t s).Sublist (Verbatim.signs s) :=
  Signs.outside_sublist 0 _

end Alias
end PageAssembly
