/-
  PageAssembly/Proofs/Verbatim/Restoring.lean
  ===========================================
  **Restoring puts every protected block back, and nothing else.**

  Restoring searches the finished text for the first occurrence of each placeholder.
  The finished text holds the placeholders of the blocks, but also whatever the includes
  brought in, so an occurrence might be made up of other text, of the end of one
  placeholder and what follows it, or of the placeholder of another block.
  `exists_block_of_occurrence` excludes all of these, provided only that the token does
  not occur in the page as its reader sees it.  So the blocks go back one by one
  (`replaceFirst_placeholder`), and `restore_veiled` says that restoring a page under
  its placeholders gives the bare page, even when some of its blocks were cut out before.

  The letter `N` stands in a placeholder at one place only; that is what keeps an
  occurrence from starting inside another placeholder.
-/
import PageAssembly.Proofs.Verbatim.Signs

namespace PageAssembly

/-! ### First occurrences -/

theorem Text.cut_append (w a b : Text) : ∃ a' b', Text.cut w (a ++ w ++ b) = some (a', b') := by
  induction a with
  | nil =>
    cases w with
    | nil => cases b <;> exact ⟨[], _, rfl⟩
    | cons c w =>
      refine ⟨[], b, ?_⟩
      have h : Text.expect (c :: w) (c :: (w ++ b)) = some b := Text.expect_append (c :: w) b
      simp only [List.nil_append, List.cons_append, Text.cut, h]
  | cons c a ih =>
    obtain ⟨a', b', h⟩ := ih
    simp only [List.cons_append, Text.cut]
    cases hc : Text.expect w (c :: (a ++ w ++ b)) with
    | some r => exact ⟨[], r, rfl⟩
    | none =>
      refine ⟨c :: a', b', ?_⟩
      simp only [h, Option.map_some]

/-- Two words without the character `d` that both end in front of a `d` are one word. -/
theorem Text.append_cons_inj {d : Char} {x y a b : Text} (hx : d ∉ x) (hy : d ∉ y)
    (h : x ++ d :: a = y ++ d :: b) : x = y ∧ a = b := by
  induction x generalizing y with
  | nil =>
    cases y with
    | nil => exact ⟨rfl, by simpa using h⟩
    | cons c y =>
      obtain ⟨rfl, _⟩ : d = c ∧ a = y ++ d :: b := by simpa using h
      exact absurd List.mem_cons_self hy
  | cons c x ih =>
    cases y with
    | nil =>
      obtain ⟨rfl, _⟩ : c = d ∧ x ++ d :: a = b := by simpa using h
      exact absurd List.mem_cons_self hx
    | cons e y =>
      obtain ⟨rfl, htail⟩ : c = e ∧ x ++ d :: a = y ++ d :: b := by simpa using h
      obtain ⟨rfl, rfl⟩ := ih (fun hd => hx (List.mem_cons_of_mem _ hd))
        (fun hd => hy (List.mem_cons_of_mem _ hd)) htail
      exact ⟨rfl, rfl⟩

theorem Text.decimal_injective {m n : Nat} (h : Text.decimal m = Text.decimal n) : m = n := by
  have hm := Nat.ofDigitChars_ten_toDigits (n := m)
  have hn := Nat.ofDigitChars_ten_toDigits (n := n)
  rw [← hm, ← hn]
  exact congrArg (Nat.ofDigitChars 10 · 0) h

namespace Verbatim

/-! ### Where a placeholder occurs -/

/-- What all placeholders with a token start with. -/
def stem (t : Text) : Text := "___NOPARSE_".toList ++ t

/-- What stands in a placeholder behind its stem. -/
def tail (n : Nat) : Text := '_' :: (Text.decimal n ++ "___".toList)

variable {t : Text}

theorem placeholder_eq (t : Text) (n : Nat) : placeholder t n = stem t ++ tail n := rfl

theorem stem_eq (t : Text) : stem t = '_' :: '_' :: '_' :: 'N' :: ("OPARSE_".toList ++ t) := rfl

theorem no_second_letter (ht : IsToken t) (n : Nat) : 'N' ∉ "OPARSE_".toList ++ t ++ tail n := by
  have hword : 'N' ∉ "OPARSE_".toList := by decide
  have hhex : 'N' ∉ t := fun h => absurd (ht.2 _ h) (by decide)
  have htail : 'N' ∉ tail n := by
    intro h
    rcases List.mem_cons.1 h with h | h
    · exact absurd h (by decide)
    · rcases List.mem_append.1 h with h | h
      · exact absurd (mem_decimal h) (by decide)
      · exact absurd h (by decide)
  simp only [List.mem_append, not_or]
  exact ⟨⟨hword, hhex⟩, htail⟩

/-- What starts like a placeholder does not start inside one. -/
theorem eq_nil_of_placeholder_eq (ht : IsToken t) {n : Nat} {a z : Text}
    (h : placeholder t n = a ++ '_' :: '_' :: '_' :: 'N' :: z) : a = [] := by
  cases a with
  | nil => rfl
  | cons c a =>
    exfalso
    have hsplit : "OPARSE_".toList ++ t ++ tail n = ((a ++ ['_', '_', '_']) ++ 'N' :: z).drop 3 := by
      have hdrop := congrArg (List.drop 4) h
      rw [placeholder_eq, stem_eq] at hdrop
      simpa only [List.cons_append, List.drop_succ_cons, List.drop_zero, List.append_assoc,
        List.nil_append] using hdrop
    have hmem : 'N' ∈ ((a ++ ['_', '_', '_']) ++ 'N' :: z).drop 3 := by
      rw [List.drop_append_of_le_length (by simp)]
      simp
    exact no_second_letter ht n (hsplit ▸ hmem)

/-- No part at the end of a stem, short of the whole, starts like a stem. -/
theorem stem_no_border (ht : IsToken t) {p q x y : Text} (hstem : stem t = p ++ q) (hp : p ≠ [])
    (hq : q ≠ []) : q ++ x ≠ stem t ++ y := by
  intro h
  rw [stem_eq] at h
  have hlast : q.getLast hq ≠ '_' := by
    have hq' : q.getLast hq = t.getLast ht.1 := by
      have hwhole := List.getLast_append_of_ne_nil (l := p) (by simp [hq]) hq
      have hstem' := List.getLast_append_of_ne_nil (l := "___NOPARSE_".toList) (by simp) ht.1
      rw [← hwhole, ← hstem']
      congr 1
      exact hstem.symm
    rw [hq']
    exact fun hbar => ht.no_bar (hbar ▸ List.getLast_mem ht.1)
  -- the part is too short to reach the letter `N`, or it holds this letter
  match q, hq with
  | [c], _ =>
    simp only [List.cons_append, List.nil_append, List.cons.injEq] at h
    exact hlast h.1
  | [c, d], _ =>
    simp only [List.cons_append, List.nil_append, List.cons.injEq] at h
    exact hlast h.2.1
  | [c, d, e], _ =>
    simp only [List.cons_append, List.nil_append, List.cons.injEq] at h
    exact hlast h.2.2.1
  | c :: d :: e :: f :: q, _ =>
    simp only [List.cons_append, List.cons.injEq] at h
    obtain ⟨rfl, rfl, rfl, rfl, _⟩ := h
    refine hp (eq_nil_of_placeholder_eq ht (n := 0) (z := q ++ tail 0) ?_)
    rw [placeholder_eq, hstem, List.append_assoc]
    rfl

/-- The rest of a stem behind its first character can only be read off letters. -/
theorem letters_of_stem (ht : IsToken t) {g : Signs} {p q x : Text} (hstem : stem t = p ++ q)
    (hp : p ≠ []) (h : Signs.veiled (placeholder t) g = q ++ x) :
    ∃ g' : Signs, g = q.map .letter ++ g' := by
  induction q generalizing p g with
  | nil => exact ⟨g, rfl⟩
  | cons c q ih =>
    cases g with
    | nil => simp at h
    | cons y g =>
      cases y with
      | letter d =>
        obtain ⟨rfl, htail⟩ : d = c ∧ Signs.veiled (placeholder t) g = q ++ x := by
          simpa [Sign.veiled] using h
        obtain ⟨g', rfl⟩ := ih (p := p ++ [d]) (by simpa using hstem) (by simp) htail
        exact ⟨g', rfl⟩
      | block m i =>
        rw [Signs.veiled_cons, Sign.veiled, placeholder_eq, List.append_assoc] at h
        exact absurd h.symm (stem_no_border ht hstem hp (by simp))

/-- A stem that starts with low lines of other text holds a token that the reader sees. -/
theorem token_occurs (ht : IsToken t) {g : Signs} {p q x : Text} (hstem : stem t = p ++ q)
    (hp : p ≠ []) (hlen : p.length ≤ 3) (h : Signs.veiled (placeholder t) g = q ++ x) :
    t <:+: g.bare := by
  obtain ⟨g', rfl⟩ := letters_of_stem ht hstem hp h
  have hq : t <:+ q := by
    have hsuffix : q <:+ stem t := ⟨p, hstem.symm⟩
    have htoken : t <:+ stem t := ⟨"___NOPARSE_".toList, rfl⟩
    refine List.suffix_of_suffix_length_le htoken hsuffix ?_
    have hlength := congrArg List.length hstem
    rw [stem_eq] at hlength
    simp only [List.length_cons, List.length_append] at hlength
    omega
  obtain ⟨u, rfl⟩ := hq
  rw [Signs.bare_append, Signs.bare_letters]
  exact ⟨u, Signs.bare g', rfl⟩

theorem placeholder_append_inj {m n : Nat} {a b : Text}
    (h : placeholder t m ++ a = placeholder t n ++ b) : m = n ∧ a = b := by
  rw [placeholder_eq, placeholder_eq, List.append_assoc, List.append_assoc] at h
  have htail : tail m ++ a = tail n ++ b := List.append_cancel_left h
  simp only [tail, List.cons_append, List.append_assoc, List.cons.injEq, true_and] at htail
  have hbar : ∀ k, '_' ∉ Text.decimal k := fun k hk => absurd (mem_decimal hk) (by decide)
  obtain ⟨hmn, hab⟩ := Text.append_cons_inj (d := '_') (hbar m) (hbar n) htail
  exact ⟨Text.decimal_injective hmn, by simpa using hab⟩

/-- An occurrence of a placeholder that starts inside another placeholder. -/
theorem token_occurs_of_overlap (ht : IsToken t) {m n : Nat} {g : Signs} {a z b : Text}
    (hm : placeholder t m = a ++ z) (ha : a ≠ []) (hz : z ≠ [])
    (h : placeholder t n ++ b = z ++ g.veiled (placeholder t)) : t <:+: g.bare := by
  rw [placeholder_eq, stem_eq] at h
  -- what is left of the other placeholder is one, two or three low lines
  match z, hz with
  | [c], _ =>
    simp only [List.cons_append, List.nil_append, List.append_assoc, List.cons.injEq] at h
    obtain ⟨rfl, h⟩ := h
    exact token_occurs (p := ['_']) (q := '_' :: '_' :: 'N' :: ("OPARSE_".toList ++ t))
      ht (stem_eq t) (by simp) (by simp) (x := tail n ++ b) (by simp [← h])
  | [c, d], _ =>
    simp only [List.cons_append, List.nil_append, List.append_assoc, List.cons.injEq] at h
    obtain ⟨rfl, rfl, h⟩ := h
    exact token_occurs (p := ['_', '_']) (q := '_' :: 'N' :: ("OPARSE_".toList ++ t))
      ht (stem_eq t) (by simp) (by simp) (x := tail n ++ b) (by simp [← h])
  | [c, d, e], _ =>
    simp only [List.cons_append, List.nil_append, List.append_assoc, List.cons.injEq] at h
    obtain ⟨rfl, rfl, rfl, h⟩ := h
    exact token_occurs (p := ['_', '_', '_']) (q := 'N' :: ("OPARSE_".toList ++ t))
      ht (stem_eq t) (by simp) (by simp) (x := tail n ++ b) (by simp [← h])
  | c :: d :: e :: f :: z, _ =>
    simp only [List.cons_append, List.append_assoc, List.cons.injEq] at h
    obtain ⟨rfl, rfl, rfl, rfl, _⟩ := h
    exact absurd (eq_nil_of_placeholder_eq ht hm) ha

/-- A placeholder occurs only where its block stands. -/
theorem exists_block_of_occurrence (ht : IsToken t) {g : Signs} {n : Nat} {a b : Text}
    (hfree : ¬ t <:+: g.bare) (h : g.veiled (placeholder t) = a ++ placeholder t n ++ b) :
    ∃ (g₁ g₂ : Signs) (w : Text), g = g₁ ++ .block n w :: g₂ ∧
      g₁.veiled (placeholder t) = a ∧ g₂.veiled (placeholder t) = b := by
  induction g generalizing a with
  | nil => simp [placeholder_eq, stem_eq] at h
  | cons x g ih =>
    have hfree' : ¬ t <:+: Signs.bare g := by
      intro hx
      rw [Signs.bare_cons] at hfree
      exact hfree (hx.trans (List.suffix_append _ _).isInfix)
    rw [Signs.veiled_cons, List.append_assoc] at h
    cases x with
    | letter c =>
      cases a with
      | nil =>
        -- a placeholder would start at a letter
        rw [placeholder_eq, stem_eq] at h
        simp only [Sign.veiled, List.cons_append, List.nil_append, List.append_assoc,
          List.cons.injEq] at h
        exact absurd (token_occurs (p := ['_']) (q := '_' :: '_' :: 'N' :: ("OPARSE_".toList ++ t))
          ht (stem_eq t) (by simp) (by simp) (x := tail n ++ b) (by simp [h.2])) hfree'
      | cons d a =>
        obtain ⟨rfl, hg⟩ : c = d ∧ Signs.veiled (placeholder t) g = a ++ (placeholder t n ++ b) := by
          simpa [Sign.veiled] using h
        obtain ⟨g₁, g₂, w, rfl, rfl, rfl⟩ := ih hfree' (by rw [hg, List.append_assoc])
        exact ⟨.letter c :: g₁, g₂, w, rfl, rfl, rfl⟩
    | block m i =>
      rcases List.append_eq_append_iff.1 h with ⟨a', ha, hg⟩ | ⟨z, hz, hb⟩
      · obtain ⟨g₁, g₂, w, rfl, rfl, rfl⟩ := ih hfree' (by rw [hg, List.append_assoc])
        exact ⟨.block m i :: g₁, g₂, w, rfl, ha.symm, rfl⟩
      · rw [Sign.veiled] at hz
        by_cases ha : a = []
        · subst ha
          rw [List.nil_append] at hz
          subst hz
          obtain ⟨rfl, rfl⟩ := placeholder_append_inj hb
          exact ⟨[], g, i, rfl, rfl, rfl⟩
        · by_cases hz' : z = []
          · subst hz'
            obtain ⟨g₁, g₂, w, rfl, hg₁, rfl⟩ := ih (a := []) hfree' (by simpa using hb.symm)
            refine ⟨.block m i :: g₁, g₂, w, rfl, ?_, rfl⟩
            rw [Signs.veiled_cons, hg₁, Sign.veiled, hz, List.append_nil, List.append_nil]
          · exact absurd (token_occurs_of_overlap ht hz ha hz' hb) hfree'

/-! ### Putting blocks back -/

/-- The page with its `n`th block as plain letters. -/
def opened (n : Nat) (g : Signs) : Signs :=
  g.flatMap fun
    | .letter c => [.letter c]
    | .block m w => if m = n then w.map .letter else [.block m w]

theorem opened_append (n : Nat) (g h : Signs) : opened n (g ++ h) = opened n g ++ opened n h :=
  List.flatMap_append

theorem opened_block (n : Nat) (w : Text) (g : Signs) :
    opened n (.block n w :: g) = w.map .letter ++ opened n g := by
  simp [opened]

theorem opened_eq_self {n : Nat} {g : Signs} (h : n ∉ g.numbers) : opened n g = g := by
  induction g with
  | nil => rfl
  | cons x g ih =>
    cases x with
    | letter c => exact congrArg (Sign.letter c :: ·) (ih h)
    | block m w =>
      rw [Signs.numbers_block, List.mem_cons, not_or] at h
      have hm : m ≠ n := fun hmn => h.1 hmn.symm
      have hg : opened n g = g := ih h.2
      simpa [opened, hm] using hg

@[simp] theorem bare_opened (n : Nat) (g : Signs) : (opened n g).bare = g.bare := by
  induction g with
  | nil => rfl
  | cons x g ih =>
    cases x with
    | letter c => exact congrArg (c :: ·) ih
    | block m w =>
      by_cases hm : m = n
      · subst hm
        rw [opened_block, Signs.bare_append, Signs.bare_letters, ih]
        rfl
      · have hg : opened n (.block m w :: g) = .block m w :: opened n g := by simp [opened, hm]
        rw [hg, Signs.bare_cons, ih, Signs.bare_cons]

theorem mem_opened {n m : Nat} {w : Text} {g : Signs} (h : Sign.block m w ∈ opened n g) :
    Sign.block m w ∈ g ∧ m ≠ n := by
  obtain ⟨x, hx, hm⟩ := List.mem_flatMap.1 h
  cases x with
  | letter c => simp at hm
  | block k u =>
    by_cases hk : k = n
    · simp [hk] at hm
    · obtain ⟨rfl, rfl⟩ : m = k ∧ w = u := by simpa [hk] using hm
      exact ⟨hx, hk⟩

theorem numbers_opened (n : Nat) (g : Signs) :
    (opened n g).numbers = g.numbers.filter (· ≠ n) := by
  induction g with
  | nil => rfl
  | cons x g ih =>
    cases x with
    | letter c => exact ih
    | block m w =>
      by_cases hm : m = n
      · subst hm
        rw [opened_block, Signs.numbers_append, Signs.numbers_letters, ih]
        simp
      · have hg : opened n (.block m w :: g) = .block m w :: opened n g := by simp [opened, hm]
        rw [hg, Signs.numbers_block, ih]
        simp [hm]

/-- The first occurrence of a placeholder is its block. -/
theorem replaceFirst_placeholder (ht : IsToken t) {g : Signs} {n : Nat} {i : Text}
    (hfree : ¬ t <:+: g.bare) (hnodup : g.numbers.Nodup)
    (hinner : ∀ w, Sign.block n w ∈ g → w = i) :
    Text.replaceFirst (placeholder t n) i (g.veiled (placeholder t)) =
      (opened n g).veiled (placeholder t) := by
  cases hcut : Text.cut (placeholder t n) (g.veiled (placeholder t)) with
  | none =>
    -- then the block is not there
    have hn : n ∉ g.numbers := by
      intro hn
      obtain ⟨w, hw⟩ := Signs.mem_numbers.1 hn
      obtain ⟨g₁, g₂, rfl⟩ := List.append_of_mem hw
      obtain ⟨a, b, hab⟩ := Text.cut_append (placeholder t n) (Signs.veiled (placeholder t) g₁)
        (Signs.veiled (placeholder t) g₂)
      rw [Signs.veiled_append, Signs.veiled_cons, Sign.veiled, ← List.append_assoc, hab] at hcut
      cases hcut
    rw [Text.replaceFirst, hcut, opened_eq_self hn]
  | some p =>
    obtain ⟨a, b⟩ := p
    obtain ⟨g₁, g₂, w, rfl, rfl, rfl⟩ :=
      exists_block_of_occurrence ht hfree (Text.cut_eq_some hcut)
    have hw : w = i := hinner w (by simp)
    rw [Signs.numbers_append, Signs.numbers_block, List.nodup_append] at hnodup
    obtain ⟨_, h₂, hdisjoint⟩ := hnodup
    have hn₁ : n ∉ g₁.numbers := fun h => hdisjoint n h n List.mem_cons_self rfl
    have hn₂ : n ∉ g₂.numbers := (List.nodup_cons.1 h₂).1
    rw [Text.replaceFirst, hcut, opened_append, opened_block, opened_eq_self hn₁,
      opened_eq_self hn₂, hw]
    simp

/-- Restoring block after block, from the block `k` on. -/
theorem foldl_replaceFirst (ht : IsToken t) (inners : List Text) (k : Nat) {g : Signs}
    (hfree : ¬ t <:+: g.bare) (hnodup : g.numbers.Nodup)
    (hinner : ∀ m w, Sign.block m w ∈ g → k ≤ m ∧ inners[m - k]? = some w) :
    (inners.zipIdx k).foldl (fun s p => Text.replaceFirst (placeholder t p.2) p.1 s)
      (g.veiled (placeholder t)) = g.bare := by
  induction inners generalizing k g with
  | nil =>
    refine Signs.veiled_eq_bare fun x hx => ?_
    cases x with
    | letter c => rfl
    | block m w => exact absurd (hinner m w hx).2 (by simp)
  | cons i inners ih =>
    have hi : ∀ w, Sign.block k w ∈ g → w = i := by
      intro w hw
      have hget := (hinner k w hw).2
      simpa using hget.symm
    rw [List.zipIdx_cons, List.foldl_cons, replaceFirst_placeholder ht hfree hnodup hi]
    rw [← bare_opened k g] at hfree ⊢
    refine ih (k + 1) hfree ?_ ?_
    · rw [numbers_opened]
      exact hnodup.filter _
    · intro m w hw
      obtain ⟨hg, hm⟩ := mem_opened hw
      obtain ⟨hk, hget⟩ := hinner m w hg
      have hlt : k + 1 ≤ m := by omega
      refine ⟨hlt, ?_⟩
      rwa [show m - k = m - (k + 1) + 1 by omega, List.getElem?_cons_succ] at hget

/-- A page under its placeholders is restored to the bare page, also when blocks of the
    page were cut out of it and other text was put in. -/
theorem restore_veiled (ht : IsToken t) {s : Text} {g : Signs} (hfree : ¬ t <:+: g.bare)
    (hnodup : g.numbers.Nodup) (hblocks : ∀ m w, Sign.block m w ∈ g → Sign.block m w ∈ signs s) :
    restore (blocks t s) (g.veiled (placeholder t)) = g.bare := by
  have h := foldl_replaceFirst ht ((spans s).map (inner s)) 0 hfree hnodup
    fun m w hw => ⟨Nat.zero_le m, inner_of_mem_signs (hblocks m w hw)⟩
  rw [List.zipIdx_map, List.foldl_map] at h
  rw [restore, blocks, List.foldl_map]
  exact h

end Verbatim
end PageAssembly
