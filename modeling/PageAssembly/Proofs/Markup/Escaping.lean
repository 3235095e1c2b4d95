/-
  PageAssembly/Proofs/Markup/Escaping.lean
  ========================================
  **What escaping makes of a text.**

  A special character is written as a reference, every other one as itself.  Different
  characters are written differently, and what is written for one is not the front of what
  is written for another, so attribute values can be told apart when they are escaped
  (`escapeValue_injective`).  Nothing in them looks like the end of a value, of an
  opening tag, or like the start of another tag.  Unescaping gives back what was written
  (`unescape_escapeValue`).
-/
import PageAssembly.Markup.Escape
import PageAssembly.Proofs.Verbatim.Restoring

namespace PageAssembly.Markup

/-- The characters that attribute values do not show as they are. -/
def special : Text := ['&', '<', '>', '"', '\'']

theorem escapeValueChar_of_plain {c : Char} (h : c ∉ special) : escapeValueChar c = [c] := by
  unfold escapeValueChar escapeChar
  split
  · exact absurd h (by decide)
  · exact absurd h (by decide)
  · split
    · exact absurd h (by decide)
    · exact absurd h (by decide)
    · exact absurd h (by decide)
    · rfl

/-- The references to special characters differ, and none is the front of another. -/
theorem escapeValueChar_of_special :
    ∀ c ∈ special, ∃ name : Text, escapeValueChar c = '&' :: (name ++ [';']) ∧ ';' ∉ name ∧
      ∀ d ∈ special, escapeValueChar d = escapeValueChar c → d = c := by
  intro c hc
  refine ⟨((escapeValueChar c).drop 1).dropLast, ?_⟩
  revert c
  decide

theorem escapeValueChar_append_inj {c d : Char} {x y : Text}
    (h : escapeValueChar c ++ x = escapeValueChar d ++ y) : c = d ∧ x = y := by
  by_cases hc : c ∈ special
  · obtain ⟨m, hm, hfree, hinj⟩ := escapeValueChar_of_special c hc
    by_cases hd : d ∈ special
    · obtain ⟨n, hn, hfree', -⟩ := escapeValueChar_of_special d hd
      rw [hm, hn] at h
      simp only [List.cons_append, List.append_assoc, List.nil_append, List.cons.injEq, true_and] at h
      obtain ⟨rfl, rfl⟩ := Text.append_cons_inj hfree hfree' h
      exact ⟨(hinj d hd (hn.trans hm.symm)).symm, rfl⟩
    · rw [hm, escapeValueChar_of_plain hd] at h
      obtain ⟨rfl, -⟩ := List.cons.inj h
      exact absurd (by decide) hd
  · by_cases hd : d ∈ special
    · obtain ⟨n, hn, -⟩ := escapeValueChar_of_special d hd
      rw [hn, escapeValueChar_of_plain hc] at h
      obtain ⟨rfl, -⟩ := List.cons.inj h
      exact absurd (by decide) hc
    · rw [escapeValueChar_of_plain hc, escapeValueChar_of_plain hd] at h
      exact List.cons.inj h

theorem escapeValueChar_ne_nil (c : Char) : escapeValueChar c ≠ [] := by
  by_cases hc : c ∈ special
  · obtain ⟨_, hname, -⟩ := escapeValueChar_of_special c hc
    rw [hname]
    exact List.cons_ne_nil _ _
  · rw [escapeValueChar_of_plain hc]
    exact List.cons_ne_nil _ _

theorem escapeValue_injective {s t : Text} (h : escapeValue s = escapeValue t) : s = t := by
  unfold escapeValue at h
  induction s generalizing t with
  | nil =>
    cases t with
    | nil => rfl
    | cons d t =>
      rw [List.flatMap_cons] at h
      exact absurd (List.append_eq_nil_iff.1 h.symm).1 (escapeValueChar_ne_nil d)
  | cons c s ih =>
    cases t with
    | nil =>
      rw [List.flatMap_cons] at h
      exact absurd (List.append_eq_nil_iff.1 h).1 (escapeValueChar_ne_nil c)
    | cons d t =>
      rw [List.flatMap_cons, List.flatMap_cons] at h
      obtain ⟨rfl, htail⟩ := escapeValueChar_append_inj h
      rw [ih htail]

/-- An attribute value shows no angle bracket and no double quote. -/
theorem not_mem_escapeValue {c : Char} (h : c ∈ ['<', '>', '"']) (s : Text) : c ∉ escapeValue s := by
  unfold escapeValue
  rw [List.mem_flatMap]
  rintro ⟨d, -, hd⟩
  by_cases hspecial : d ∈ special
  · have hall : ∀ d ∈ special, ∀ c ∈ ['<', '>', '"'], c ∉ escapeValueChar d := by decide
    exact hall d hspecial c h hd
  · rw [escapeValueChar_of_plain hspecial, List.mem_singleton] at hd
    have hsub : ∀ c ∈ ['<', '>', '"'], c ∈ special := by decide
    exact hspecial (hd ▸ hsub c h)

theorem not_mem_escape (s : Text) : '<' ∉ escape s := by
  unfold escape
  rw [List.mem_flatMap]
  rintro ⟨d, -, hd⟩
  unfold escapeChar at hd
  split at hd
  · exact absurd hd (by decide)
  · exact absurd hd (by decide)
  · exact absurd hd (by decide)
  · next hne _ =>
    rw [List.mem_singleton] at hd
    exact hne hd.symm

/-! ### Reading it back -/

theorem readReference_named {name r : Text} {c : Char} (h : name ∈ ["amp;".toList, "lt;".toList, "gt;".toList, "quot;".toList])
    (hnamed : named name = [c]) : readReference ('&' :: (name ++ r)) = some ([c], r) := by
  simp only [List.mem_cons, List.not_mem_nil, or_false] at h
  have hread : readReference ('&' :: (name ++ r)) = some (named name, r) := by
    rcases h with rfl | rfl | rfl | rfl <;> rfl
  rw [hread, hnamed]

/-- A special character is read back from its reference. -/
theorem readReference_escapeValueChar {c : Char} (h : c ∈ special) (r : Text) :
    readReference (escapeValueChar c ++ r) = some ([c], r) := by
  simp only [special, List.mem_cons, List.not_mem_nil, or_false] at h
  rcases h with rfl | rfl | rfl | rfl | rfl
  · exact readReference_named (by decide) (by decide +kernel)
  · exact readReference_named (by decide) (by decide +kernel)
  · exact readReference_named (by decide) (by decide +kernel)
  · exact readReference_named (by decide) (by decide +kernel)
  · rfl

theorem readReference_eq_none {c : Char} (h : c ≠ '&') (r : Text) : readReference (c :: r) = none := by
  unfold readReference
  split
  · next heq => exact absurd (List.cons.inj heq).1 h
  · next heq => exact absurd (List.cons.inj heq).1 h
  · next heq => exact absurd (List.cons.inj heq).1 h
  · next heq => exact absurd (List.cons.inj heq).1 h
  · rfl

theorem unescape_escapeValueChar (c : Char) (s : Text) : unescape (escapeValueChar c ++ s) = c :: unescape s := by
  by_cases hc : c ∈ special
  · have hpieces := reference.pieces_append (readReference_escapeValueChar hc s)
    rw [unescape, Pattern.substitute, hpieces]
    rfl
  · have hne : c ≠ '&' := fun heq => hc (heq ▸ List.mem_cons_self)
    have hpieces := reference.pieces_cons_none (readReference_eq_none hne s)
    rw [escapeValueChar_of_plain hc, unescape, Pattern.substitute, List.singleton_append, hpieces]
    rfl

/-- An attribute value is read back as the text that it was written from. -/
theorem unescape_escapeValue (s : Text) : unescape (escapeValue s) = s := by
  induction s with
  | nil => rfl
  | cons c s ih =>
    have hsplit : escapeValue (c :: s) = escapeValueChar c ++ escapeValue s := List.flatMap_cons
    rw [hsplit, unescape_escapeValueChar, ih]

end PageAssembly.Markup
