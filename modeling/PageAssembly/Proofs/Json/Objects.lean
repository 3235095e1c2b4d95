/-
  PageAssembly/Proofs/Json/Objects.lean
  =====================================
  **An object of texts is read back as it was written.**

  A text without quotes, backslashes and control characters is written between double quotes as it
  is.  An object of such texts is written with a colon behind each name and commas between the
  members, and spaces may stand anywhere in between (`Members`).  Reading it gives the members in
  the order in which they were written (`read?_object`).

  The reader takes one member off the front and then either stops (`readFields_last`) or goes on behind
  the comma (`readFields_more`), so the proof goes along the members.
-/
import PageAssembly.Json.Reader

namespace PageAssembly.Json

/-! ### Writing -/

/-- The text stands for itself between double quotes. -/
structure Plain (s : Text) : Prop where
  unquoted : '"' ∉ s
  unescaped : '\\' ∉ s
  printed : ∀ c ∈ s, 0x20 ≤ c.toNat

def Spaces (s : Text) : Prop := ∀ c ∈ s, isSpace c = true

instance (s : Text) : Decidable (Spaces s) := List.decidableBAll _ s

def quote (s : Text) : Text := '"' :: (s ++ ['"'])

/-- A name and a text with a colon in between, and spaces. -/
inductive Member (e : Text × Text) : Text → Prop where
  | intro {before after behind : Text} (before_spaces : Spaces before) (after_spaces : Spaces after)
      (behind_spaces : Spaces behind) :
      Member e (quote e.1 ++ (before ++ ':' :: (after ++ (quote e.2 ++ behind))))

/-- The members of an object, up to its closing brace. -/
inductive Members : List (Text × Text) → Text → Prop where
  | last {e : Text × Text} {m : Text} (member : Member e m) : Members [e] (m ++ ['}'])
  | more {e : Text × Text} {es : List (Text × Text)} {m gap s : Text} (member : Member e m)
      (gap_spaces : Spaces gap) (rest : Members es s) : Members (e :: es) (m ++ ',' :: (gap ++ s))

/-! ### Reading -/

theorem Spaces.skip_append {g : Text} (h : Spaces g) (r : Text) : skip (g ++ r) = skip r := by
  rw [skip, List.dropWhile_append_of_pos h, skip]

theorem readCodes_append {s : Text} (h : Plain s) (r : Text) :
    readCodes (s ++ '"' :: r) = some (s.map Char.toNat, r) := by
  induction s with
  | nil => simp [readCodes]
  | cons c s ih =>
    obtain ⟨hunquoted, hunescaped, hprinted⟩ := h
    obtain ⟨hquote, hs⟩ := not_or.1 (mt List.mem_cons.2 hunquoted)
    obtain ⟨hslash, hs'⟩ := not_or.1 (mt List.mem_cons.2 hunescaped)
    obtain ⟨hc, hprinted⟩ := List.forall_mem_cons.1 hprinted
    have htail := ih ⟨hs, hs', hprinted⟩
    rw [List.cons_append, readCodes, htail]
    · have hplain : ¬(c.toNat < 0x20 ∨ c = '\\') :=
        not_or.2 ⟨Nat.not_lt.2 hc, fun h => hslash h.symm⟩
      rw [if_neg hplain]
      rfl
    · exact fun h => hquote h.symm
    · exact fun _ _ _ _ _ h _ => hslash h.symm
    · exact fun _ _ h _ => hslash h.symm

theorem not_half (c : Char) : ¬(0xd800 ≤ c.toNat ∧ c.toNat < 0xe000) := by
  rintro ⟨hlow, hhigh⟩
  have hvalid : c.toNat < 0xd800 ∨ 0xdfff < c.toNat ∧ c.toNat < 0x110000 := c.valid
  omega

/-- No character is half of a pair, so each stands for itself. -/
theorem joinHalves_toNat (s : Text) : joinHalves (s.map Char.toNat) = s := by
  induction s with
  | nil => rfl
  | cons a s ih =>
    cases s with
    | nil => rw [List.map_cons, List.map_nil, joinHalves, if_neg (not_half a), Char.ofNat_toNat]
    | cons b s =>
      have hpair : ¬(0xd800 ≤ a.toNat ∧ a.toNat < 0xdc00 ∧ 0xdc00 ≤ b.toNat ∧ b.toNat < 0xe000) :=
        fun h => not_half a ⟨h.1, Nat.lt_trans h.2.1 (by decide)⟩
      rw [List.map_cons] at ih
      rw [List.map_cons, List.map_cons, joinHalves, if_neg hpair, if_neg (not_half a), ih,
        Char.ofNat_toNat]

theorem readText_append {s : Text} (h : Plain s) (r : Text) : readText (s ++ '"' :: r) = some (s, r) := by
  rw [readText, readCodes_append h, Option.map_some, joinHalves_toNat]

theorem readValue_quote {s : Text} (h : Plain s) (n : Nat) (r : Text) :
    readValue (n + 1) (quote s ++ r) = some (.text s, r) := by
  have hquote : quote s ++ r = '"' :: (s ++ '"' :: r) := by simp [quote]
  rw [hquote, readValue, readText_append h]
  rfl

/-- A member is read up to what is behind its spaces. -/
theorem Member.exists_read {e : Text × Text} {m : Text} (h : Member e m) (hname : Plain e.1)
    (htext : Plain e.2) (n : Nat) (r : Text) :
    ∃ t u v, m ++ r = '"' :: t ∧ readText t = some (e.1, u) ∧ skip u = ':' :: v ∧
      ∃ r', readValue (n + 1) (skip v) = some (.text e.2, r') ∧ skip r' = skip r := by
  cases h with
  | @intro before after behind before_spaces after_spaces behind_spaces =>
    have hcolon : skip (before ++ ':' :: (after ++ (quote e.2 ++ (behind ++ r)))) =
        ':' :: (after ++ (quote e.2 ++ (behind ++ r))) := by
      rw [before_spaces.skip_append]
      rfl
    have hvalue : skip (after ++ (quote e.2 ++ (behind ++ r))) = quote e.2 ++ (behind ++ r) := by
      rw [after_spaces.skip_append]
      rfl
    refine ⟨_, _, _, ?_, readText_append hname _, hcolon, behind ++ r, ?_, behind_spaces.skip_append r⟩
    · simp [quote]
    · rw [hvalue, readValue_quote htext]

section

variable {e : Text × Text} {m r rest : Text}

/-- A closing brace behind a member ends the object. -/
theorem readFields_last (h : Member e m) (hname : Plain e.1) (htext : Plain e.2)
    (hr : skip r = '}' :: rest) (n : Nat) :
    readFields (n + 2) (m ++ r) = some ([(e.1, .text e.2)], rest) := by
  obtain ⟨t, u, v, hm, ht, hu, r', hv, hr'⟩ := h.exists_read hname htext n r
  rw [hm, readFields]
  simp only [ht, hu, hv, hr', hr, Option.bind_eq_bind, Option.bind_some, Option.pure_def]

/-- Behind a comma the object goes on. -/
theorem readFields_more (h : Member e m) (hname : Plain e.1) (htext : Plain e.2)
    (hr : skip r = ',' :: rest) (n : Nat) :
    readFields (n + 2) (m ++ r) =
      (readFields (n + 1) (skip rest)).map fun p => ((e.1, .text e.2) :: p.1, p.2) := by
  obtain ⟨t, u, v, hm, ht, hu, r', hv, hr'⟩ := h.exists_read hname htext n r
  rw [hm, readFields]
  simp only [ht, hu, hv, hr', hr, Option.bind_eq_bind, Option.bind_some, Option.pure_def]
  cases readFields (n + 1) (skip rest) with
  | none => rfl
  | some p => rfl

end

theorem Members.exists_quote {es : List (Text × Text)} {s : Text} (h : Members es s) :
    ∃ t, s = '"' :: t := by
  cases h with
  | last member =>
    cases member with
    | intro => exact ⟨_, rfl⟩
  | more member =>
    cases member with
    | intro => exact ⟨_, rfl⟩

theorem Members.length_le {es : List (Text × Text)} {s : Text} (h : Members es s) :
    es.length ≤ s.length := by
  induction h with
  | last member => simp
  | more member gap_spaces rest ih =>
    simp only [List.length_cons, List.length_append]
    omega

theorem readFields_members {es : List (Text × Text)} {s : Text} (h : Members es s)
    (hplain : ∀ e ∈ es, Plain e.1 ∧ Plain e.2) {n : Nat} (hn : es.length < n) (r : Text) :
    readFields n (s ++ r) = some (es.map fun e => (e.1, .text e.2), r) := by
  induction h generalizing n with
  | @last e m member =>
    obtain ⟨k, rfl⟩ : ∃ k, n = k + 2 := ⟨n - 2, by simp at hn; omega⟩
    obtain ⟨hname, htext⟩ := hplain e List.mem_cons_self
    rw [List.append_assoc, readFields_last member hname htext (show skip (['}'] ++ r) = '}' :: r from rfl)]
    rfl
  | @more e es m gap s member gap_spaces rest ih =>
    obtain ⟨k, rfl⟩ : ∃ k, n = k + 2 := ⟨n - 2, by simp at hn; omega⟩
    obtain ⟨⟨hname, htext⟩, hes⟩ := List.forall_mem_cons.1 hplain
    have hskip : skip (gap ++ s ++ r) = s ++ r := by
      obtain ⟨t, rfl⟩ := rest.exists_quote
      rw [List.append_assoc, gap_spaces.skip_append]
      rfl
    have htail := ih hes (n := k + 1) (by rw [List.length_cons] at hn; omega)
    have hcomma : skip (',' :: (gap ++ s) ++ r) = ',' :: (gap ++ s ++ r) := rfl
    rw [List.append_assoc, readFields_more member hname htext hcomma, hskip, htail]
    rfl

/-- An object of texts is read as its members in the order in which they were written. -/
theorem read?_object {es : List (Text × Text)} {gap s : Text} (hgap : Spaces gap) (h : Members es s)
    (hplain : ∀ e ∈ es, Plain e.1 ∧ Plain e.2) :
    read? ('{' :: (gap ++ s)) = some (.object (es.map fun e => (e.1, .text e.2))) := by
  have hlength := h.length_le
  have hfields := readFields_members h hplain (n := 2 * ('{' :: (gap ++ s)).length + 1)
    (by simp only [List.length_cons, List.length_append]; omega) []
  rw [List.append_nil] at hfields
  have hvalue : readValue (2 * ('{' :: (gap ++ s)).length + 2) ('{' :: (gap ++ s)) =
      some (.object (es.map fun e => (e.1, .text e.2)), []) := by
    obtain ⟨t, rfl⟩ := h.exists_quote
    have hskip : skip (gap ++ '"' :: t) = '"' :: t := by
      rw [hgap.skip_append]
      rfl
    rw [readValue, hskip]
    split
    · next h => cases h
    · rw [hfields]
      rfl
  have hfront : skip ('{' :: (gap ++ s)) = '{' :: (gap ++ s) := rfl
  rw [read?, hfront, hvalue]
  rfl

end PageAssembly.Json
