/-
  PageAssembly/Proofs/Markup/Openings.lean
  ========================================
  **The opening tags of divisions in a text.**

  Both searches for placeholders start at the beginning of a division, take its opening tag up
  to the next closing bracket, wherever that stands, and decide by what is inside.  A
  text that stands in front of other text is therefore left alone by a search if two things
  hold: no opening tag is left open at its end (`Closed`), and none that it holds is what the
  search is for (`Lacks`).  Then no match starts in it, whatever text is put behind it.

  The letters of the tag may be compared exactly or in any case; `same` says how.
-/
import PageAssembly.Text.Pattern
import Mathlib.Data.List.Forall2
import Mathlib.Data.List.Infix
import Mathlib.Data.List.TakeWhile

namespace PageAssembly

namespace Text

/-- What holds of the empty text, and of two texts joined if it holds of both, holds of many joined. -/
theorem of_flatMap {α : Type} {good : Text → Prop} (hnil : good []) (happend : ∀ s t, good s → good t → good (s ++ t))
    {f : α → Text} {as : List α} (h : ∀ a ∈ as, good (f a)) : good (as.flatMap f) := by
  induction as with
  | nil => exact hnil
  | cons a as ih =>
    rw [List.flatMap_cons]
    exact happend _ _ (h a List.mem_cons_self) (ih fun b hb => h b (List.mem_cons_of_mem a hb))

/-! ### A word at the front of a longer text -/

section

variable {same : Char → Char → Bool} {w s i : Text}

/-- Whether a text that ends too early agrees with the word so far. -/
def runsOut (same : Char → Char → Bool) (w s : Text) : Bool := (expectBy (fun c a => same a c) s w).isSome

theorem expectBy_append_of_some (h : expectBy same w s = some i) (r : Text) :
    expectBy same w (s ++ r) = some (i ++ r) := by
  induction w generalizing s with
  | nil =>
    cases h
    rfl
  | cons a w ih =>
    cases s with
    | nil => cases h
    | cons c s =>
      simp only [expectBy] at h
      split at h
      · next hc =>
        rw [List.cons_append, expectBy, if_pos hc]
        exact ih h
      · cases h

theorem expectBy_append_of_none (h : expectBy same w s = none) (hruns : runsOut same w s = false) (r : Text) :
    expectBy same w (s ++ r) = none := by
  induction w generalizing s with
  | nil => cases h
  | cons a w ih =>
    cases s with
    | nil => simp [runsOut, expectBy] at hruns
    | cons c s =>
      rw [List.cons_append, expectBy]
      split
      · next hc =>
        simp only [expectBy, if_pos hc] at h
        refine ih h ?_
        simpa [runsOut, expectBy, hc] using hruns
      · rfl

theorem runsOut_of_append {r : Text} (h : runsOut same w (s ++ r) = true) : runsOut same w s = true := by
  obtain ⟨v, hv⟩ := Option.isSome_iff_exists.1 h
  clear h
  induction s generalizing w with
  | nil => rfl
  | cons c s ih =>
    cases w with
    | nil => cases hv
    | cons a w =>
      simp only [List.cons_append, expectBy] at hv
      split at hv
      · next hc => simpa [runsOut, expectBy, hc] using ih hv
      · cases hv

/-- A text that ends too early goes on to the whole word. -/
theorem exists_append_of_runsOut (h : runsOut (· == ·) w s = true) : ∃ v, s ++ v = w := by
  obtain ⟨v, hv⟩ := Option.isSome_iff_exists.1 h
  refine ⟨v, (expect_eq_some_iff.1 (hv ▸ ?_)).symm⟩
  exact congrArg (fun same => expectBy same s w) (by funext c a; exact Bool.beq_comm)

theorem expectBy_mono {other : Char → Char → Bool} (hsame : ∀ a c, same a c = true → other a c = true)
    (h : expectBy same w s = some i) : expectBy other w s = some i := by
  induction w generalizing s with
  | nil => exact h
  | cons a w ih =>
    cases s with
    | nil => cases h
    | cons c s =>
      simp only [expectBy] at h
      split at h
      · next hc =>
        rw [expectBy, if_pos (hsame a c hc)]
        exact ih h
      · cases h

theorem runsOut_mono {other : Char → Char → Bool} (hsame : ∀ a c, same a c = true → other a c = true)
    (h : runsOut same w s = true) (hnone : expectBy same w s = none) :
    runsOut other w s = true ∧ expectBy other w s = none := by
  induction w generalizing s with
  | nil => cases hnone
  | cons a w ih =>
    cases s with
    | nil => exact ⟨rfl, rfl⟩
    | cons c s =>
      cases hc : same a c with
      | false => simp [runsOut, expectBy, hc] at h
      | true =>
        have hother := hsame a c hc
        simp only [runsOut, expectBy, hc, if_true] at h hnone
        simp only [runsOut, expectBy, hother, if_true]
        exact ih h hnone

theorem forall₂_of_expectBy (h : expectBy same w s = some i) :
    ∃ v, s = v ++ i ∧ List.Forall₂ (fun a c => same a c = true) w v := by
  induction w generalizing s with
  | nil =>
    cases h
    exact ⟨[], rfl, .nil⟩
  | cons a w ih =>
    cases s with
    | nil => cases h
    | cons c s =>
      simp only [expectBy] at h
      split at h
      · next hc =>
        obtain ⟨v, rfl, hv⟩ := ih h
        exact ⟨c :: v, rfl, .cons hc hv⟩
      · cases h

end
end Text

namespace Markup

/-! ### Opening tags -/

/-- What a text has at its front: the inside of the opening tag of a division, or an opening tag
    that is left open. -/
def opening? (same : Char → Char → Bool) (s : Text) : Option (Option Text) :=
  match Text.expectBy same "<div".toList s with
  | some i => some (if '>' ∈ i then some (i.takeWhile (· != '>')) else none)
  | none => if s ≠ [] ∧ Text.runsOut same "<div".toList s then some none else none

/-- No opening tag is left open at the end of the text. -/
def Closed (same : Char → Char → Bool) (t : Text) : Prop := ∀ z ∈ t.tails, opening? same z ≠ some none

/-- No opening tag in the text is one of these. -/
def Lacks (same : Char → Char → Bool) (sign : Text → Prop) (t : Text) : Prop :=
  ∀ z ∈ t.tails, ∀ a ∈ (opening? same z).join, ¬ sign a

instance (same : Char → Char → Bool) (t : Text) : Decidable (Closed same t) :=
  inferInstanceAs (Decidable (∀ z ∈ t.tails, _))

instance (same : Char → Char → Bool) (sign : Text → Prop) [DecidablePred sign] (t : Text) :
    Decidable (Lacks same sign t) :=
  inferInstanceAs (Decidable (∀ z ∈ t.tails, ∀ a ∈ (opening? same z).join, ¬ sign a))

section

variable {same : Char → Char → Bool} {sign : Text → Prop} {s t z r a : Text}

theorem opening?_eq_some (h : opening? same s = some (some a)) :
    ∃ i, Text.expectBy same "<div".toList s = some i ∧ '>' ∈ i ∧ a = i.takeWhile (· != '>') := by
  unfold opening? at h
  split at h
  · next i hi =>
    refine ⟨i, hi, ?_⟩
    split at h
    · next hclosed =>
      cases h
      exact ⟨hclosed, rfl⟩
    · cases h
  · split at h <;> cases h

theorem takeWhile_append_of_mem {i : Text} (h : '>' ∈ i) (r : Text) :
    (i ++ r).takeWhile (· != '>') = i.takeWhile (· != '>') := by
  rw [List.takeWhile_append, if_neg]
  intro hlength
  have hall : i.takeWhile (· != '>') = i := (List.takeWhile_prefix _).eq_of_length hlength
  have hne := List.mem_takeWhile_imp (hall.symm ▸ h)
  simp at hne

theorem opening?_append_of_some (h : opening? same z = some (some a)) (r : Text) :
    opening? same (z ++ r) = some (some a) := by
  obtain ⟨i, hi, hclosed, rfl⟩ := opening?_eq_some h
  rw [opening?, Text.expectBy_append_of_some hi]
  change some (if '>' ∈ i ++ r then _ else _) = _
  rw [if_pos (List.mem_append_left r hclosed), takeWhile_append_of_mem hclosed]

theorem expectBy_of_opening?_none (h : opening? same s = none) : Text.expectBy same "<div".toList s = none := by
  unfold opening? at h
  split at h
  · cases h
  · next hnone => exact hnone

theorem opening?_append_of_none (hz : z ≠ []) (h : opening? same z = none) (r : Text) :
    opening? same (z ++ r) = none := by
  have hnone := expectBy_of_opening?_none h
  have hruns : Text.runsOut same "<div".toList z = false := by
    rw [← Bool.not_eq_true]
    intro hruns
    rw [opening?, hnone] at h
    change (if z ≠ [] ∧ Text.runsOut same "<div".toList z then some none else none) = none at h
    rw [if_pos ⟨hz, hruns⟩] at h
    cases h
  rw [opening?, Text.expectBy_append_of_none hnone hruns]
  refine if_neg fun hafter => ?_
  rw [Text.runsOut_of_append hafter.2] at hruns
  cases hruns

/-- Whatever is left open is a beginning of the tag, or its inside. -/
theorem cases_of_opening_open (h : opening? (· == ·) s = some none) :
    (∃ i, s = "<div".toList ++ i ∧ '>' ∉ i) ∨ ∃ v, s ++ v = "<div".toList := by
  unfold opening? at h
  split at h
  · next i hi =>
    split at h
    · cases h
    · next hopen => exact .inl ⟨i, Text.expect_eq_some_iff.1 hi, hopen⟩
  · split at h
    · next hruns => exact .inr (Text.exists_append_of_runsOut hruns.2)
    · cases h

/-! ### Texts in front of other texts -/

theorem Closed.suffix (h : Closed same t) (hz : z <:+ t) : opening? same z ≠ some none :=
  h z ((List.mem_tails z t).2 hz)

theorem Lacks.suffix (h : Lacks same sign t) (hz : z <:+ t) (ha : opening? same z = some (some a)) : ¬ sign a :=
  h z ((List.mem_tails z t).2 hz) a (by rw [ha]; rfl)

theorem closed_of_suffix (h : ∀ z, z <:+ t → opening? same z ≠ some none) : Closed same t :=
  fun z hz => h z ((List.mem_tails z t).1 hz)

theorem lacks_of_suffix (h : ∀ z a, z <:+ t → opening? same z = some (some a) → ¬ sign a) : Lacks same sign t := by
  intro z hz a ha
  refine h z a ((List.mem_tails z t).1 hz) ?_
  cases hopening : opening? same z with
  | none =>
    rw [hopening] at ha
    cases ha
  | some o =>
    rw [hopening] at ha
    exact congrArg some ha

/-- Behind a text that is closed, what its openings are does not depend on what follows. -/
theorem Closed.cases (h : Closed same t) (hz : z <:+ t) (hne : z ≠ []) (r : Text) :
    opening? same (z ++ r) = none ∨
      ∃ a, opening? same z = some (some a) ∧ opening? same (z ++ r) = some (some a) := by
  cases hopening : opening? same z with
  | none => exact .inl (opening?_append_of_none hne hopening r)
  | some o =>
    cases o with
    | none => exact absurd hopening (h.suffix hz)
    | some a => exact .inr ⟨a, rfl, opening?_append_of_some hopening r⟩

theorem suffix_append_cases (h : z <:+ s ++ t) : z <:+ t ∨ ∃ y, y ≠ [] ∧ y <:+ s ∧ z = y ++ t := by
  obtain ⟨x, hx⟩ := h
  rcases List.append_eq_append_iff.1 hx with ⟨y, rfl, rfl⟩ | ⟨y, rfl, rfl⟩
  · by_cases hy : y = []
    · exact .inl (by rw [hy]; exact List.suffix_rfl)
    · exact .inr ⟨y, hy, List.suffix_append x y, rfl⟩
  · exact .inl (List.suffix_append y z)

theorem Closed.append (hs : Closed same s) (ht : Closed same t) : Closed same (s ++ t) := by
  refine closed_of_suffix fun z hz => ?_
  rcases suffix_append_cases hz with hz | ⟨y, hne, hy, rfl⟩
  · exact ht.suffix hz
  · rcases hs.cases hy hne t with h | ⟨a, -, h⟩ <;> simp [h]

theorem Lacks.append (hclosed : Closed same s) (hs : Lacks same sign s) (ht : Lacks same sign t) :
    Lacks same sign (s ++ t) := by
  refine lacks_of_suffix fun z a hz ha => ?_
  rcases suffix_append_cases hz with hz | ⟨y, hne, hy, rfl⟩
  · exact ht.suffix hz ha
  · rcases hclosed.cases hy hne t with h | ⟨b, hb, h⟩
    · rw [h] at ha
      cases ha
    · rw [h] at ha
      cases ha
      exact hs.suffix hy hb

/-! ### Texts without angle brackets -/

theorem opening?_cons_of_ne {c : Char} (hc : same '<' c = false) (s : Text) : opening? same (c :: s) = none := by
  have hexpect : Text.expectBy same "<div".toList (c :: s) = none := by
    change ite (same '<' c = true) _ none = none
    rw [hc]
    rfl
  have hruns : Text.runsOut same "<div".toList (c :: s) = false := by
    change (ite (same '<' c = true) _ none).isSome = false
    rw [hc]
    rfl
  rw [opening?, hexpect, hruns]
  rfl

theorem opening?_of_not_mem (hsame : ∀ c, same '<' c = true → c = '<') (h : '<' ∉ t) (hz : z <:+ t) :
    opening? same z = none := by
  cases z with
  | nil => rfl
  | cons c z =>
    refine opening?_cons_of_ne ?_ z
    rw [← Bool.not_eq_true]
    intro hc
    exact h (hsame c hc ▸ hz.subset List.mem_cons_self)

theorem closed_of_not_mem (hsame : ∀ c, same '<' c = true → c = '<') (h : '<' ∉ t) : Closed same t := by
  refine closed_of_suffix fun z hz => ?_
  rw [opening?_of_not_mem hsame h hz]
  exact nofun

theorem lacks_of_not_mem (hsame : ∀ c, same '<' c = true → c = '<') (h : '<' ∉ t) : Lacks same sign t := by
  refine lacks_of_suffix fun z a hz ha => ?_
  rw [opening?_of_not_mem hsame h hz] at ha
  cases ha

theorem exact_bracket (c : Char) (h : ('<' == c) = true) : c = '<' := (beq_iff_eq.1 h).symm

/-- Only letters may differ from what they stand for. -/
theorem eq_of_sameLetter {a c : Char} (ha : a.isLower = false) (h : Text.sameLetter a c = true) : c = a := by
  have hlower : ¬ a = c.toLower ∨ c = a := by
    unfold Char.toLower
    split
    · next hupper =>
      -- the small letter of a capital one is a letter again
      left
      intro heq
      have hval : a.val = c.val + ('a'.val - 'A'.val) := congrArg Char.val heq
      have hnat := congrArg UInt32.toNat hval
      obtain ⟨hlow, hhigh⟩ := hupper
      rw [ge_iff_le, UInt32.le_iff_toNat_le] at hlow
      rw [UInt32.le_iff_toNat_le] at hhigh
      rw [UInt32.toNat_add] at hnat
      have hsmall : (decide (a.val ≥ 97) && decide (a.val ≤ 122)) = false := ha
      simp [UInt32.le_iff_toNat_le] at hnat hlow hhigh hsmall
      omega
    · by_cases hc : c = a
      · exact .inr hc
      · exact .inl fun heq => hc heq.symm
  simp only [Text.sameLetter, Bool.or_eq_true, Bool.and_eq_true, beq_iff_eq] at h
  rcases h with ((h | h) | ⟨rfl, -⟩) | ⟨rfl, -⟩
  · exact h.symm
  · exact hlower.resolve_left (not_not_intro h)
  · exact absurd ha (by decide)
  · exact absurd ha (by decide)

theorem caseless_bracket (c : Char) (h : Text.sameLetter '<' c = true) : c = '<' := eq_of_sameLetter rfl h

/-! ### Letters in any case -/

theorem opening?_mono {other : Char → Char → Bool} (hsame : ∀ a c, same a c = true → other a c = true)
    {o : Option Text} (h : opening? same s = some o) : opening? other s = some o := by
  unfold opening? at h
  split at h
  · next i hi =>
    rw [opening?, Text.expectBy_mono hsame hi]
    exact h
  · next hnone =>
    split at h
    · next hruns =>
      obtain ⟨hother, hnone'⟩ := Text.runsOut_mono hsame hruns.2 hnone
      cases h
      rw [opening?, hnone']
      exact if_pos ⟨hruns.1, hother⟩
    · cases h

theorem exact_caseless (a c : Char) (h : (a == c) = true) : Text.sameLetter a c = true := by
  rw [Text.sameLetter, h]
  rfl

theorem Closed.exact (h : Closed Text.sameLetter t) : Closed (· == ·) t :=
  closed_of_suffix fun _ hz hopen => h.suffix hz (opening?_mono exact_caseless hopen)

theorem Lacks.exact (h : Lacks Text.sameLetter sign t) : Lacks (· == ·) sign t :=
  lacks_of_suffix fun _ _ hz hopen => h.suffix hz (opening?_mono exact_caseless hopen)

end

end Markup
end PageAssembly
