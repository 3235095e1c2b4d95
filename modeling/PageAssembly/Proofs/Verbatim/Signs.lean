/-
  PageAssembly/Proofs/Verbatim/Signs.lean
  =======================================
  **A page with its protected blocks as single signs.**

  Masking swaps every protected block for a placeholder, and restoring swaps it back.
  In between, the page is read, cut and filled in as if a placeholder were ordinary
  text.  To say that none of this touches a block, a page is read here as a list of
  signs: letters, and whole blocks.  A *veil* says how each block is shown; the signs
  under a veil are a text, and `mask_eq_veiled` says that a masked page is its signs
  under the veil of the placeholders.

  A text under a veil may be cut at any character that no veil uses
  (`veiled_eq_append_cons`), such as a brace or a blank.
-/
import PageAssembly.Verbatim
import Mathlib.Data.List.Basic

namespace PageAssembly

/-- A sign of a page: a letter, or a protected block with its number. -/
inductive Sign where
  | letter (c : Char)
  | block (n : Nat) (inner : Text)
deriving DecidableEq, Repr

/-- A page as signs. -/
abbrev Signs := List Sign

/-- How the blocks of a page are shown, by number. -/
abbrev Veil := Nat → Text

namespace Sign

/-- The sign under a veil. -/
def veiled (v : Veil) : Sign → Text
  | .letter c => [c]
  | .block n _ => v n

/-- The sign as the reader of the finished page sees it: the inner text of a block. -/
def bare : Sign → Text
  | .letter c => [c]
  | .block _ inner => inner

def isLetter : Sign → Bool
  | .letter _ => true
  | .block _ _ => false

end Sign

namespace Signs

/-- The page under a veil. -/
def veiled (v : Veil) (g : Signs) : Text := g.flatMap (Sign.veiled v)

/-- The page with the inner text of every block. -/
def bare (g : Signs) : Text := g.flatMap Sign.bare

/-- The numbers of the blocks, in order. -/
def numbers (g : Signs) : List Nat :=
  g.filterMap fun
    | .letter _ => none
    | .block n _ => some n

variable {v : Veil}

@[simp] theorem veiled_nil : veiled v [] = [] := rfl

@[simp] theorem veiled_cons (x : Sign) (g : Signs) : veiled v (x :: g) = x.veiled v ++ veiled v g := rfl

@[simp] theorem veiled_append (g h : Signs) : veiled v (g ++ h) = veiled v g ++ veiled v h :=
  List.flatMap_append

@[simp] theorem bare_nil : bare [] = [] := rfl

@[simp] theorem bare_cons (x : Sign) (g : Signs) : bare (x :: g) = x.bare ++ bare g := rfl

@[simp] theorem bare_append (g h : Signs) : bare (g ++ h) = bare g ++ bare h := List.flatMap_append

@[simp] theorem veiled_letters (s : Text) : veiled v (s.map .letter) = s := by
  induction s with
  | nil => rfl
  | cons c s ih => simp [Sign.veiled, ih]

@[simp] theorem bare_letters (s : Text) : bare (s.map .letter) = s := by
  induction s with
  | nil => rfl
  | cons c s ih => simp [Sign.bare, ih]

@[simp] theorem numbers_append (g h : Signs) : numbers (g ++ h) = numbers g ++ numbers h :=
  List.filterMap_append

@[simp] theorem numbers_letters (s : Text) : numbers (s.map .letter) = [] := by
  simp [numbers]

@[simp] theorem numbers_block (n : Nat) (inner : Text) (g : Signs) :
    numbers (.block n inner :: g) = n :: numbers g := rfl

theorem mem_numbers {g : Signs} {n : Nat} : n ∈ numbers g ↔ ∃ inner, Sign.block n inner ∈ g := by
  constructor
  · intro h
    obtain ⟨x, hx, hn⟩ := List.mem_filterMap.1 h
    cases x with
    | letter c => cases hn
    | block m inner =>
      cases hn
      exact ⟨inner, hx⟩
  · rintro ⟨inner, h⟩
    exact List.mem_filterMap.2 ⟨_, h, rfl⟩

theorem veiled_eq_bare {g : Signs} (h : ∀ x ∈ g, x.isLetter) : veiled v g = bare g := by
  induction g with
  | nil => rfl
  | cons x g ih =>
    have hg := ih fun y hy => h y (List.mem_cons_of_mem _ hy)
    cases x with
    | letter c => simp [Sign.veiled, Sign.bare, hg]
    | block n inner => exact absurd (h _ List.mem_cons_self) (by simp [Sign.isLetter])

/-- A text under a veil is cut at a character that the veil does not use. -/
theorem veiled_eq_append_cons {g : Signs} {a b : Text} {c : Char} (hc : ∀ n, c ∉ v n)
    (h : veiled v g = a ++ c :: b) :
    ∃ g₁ g₂, g = g₁ ++ .letter c :: g₂ ∧ veiled v g₁ = a ∧ veiled v g₂ = b := by
  induction g generalizing a with
  | nil => simp at h
  | cons x g ih =>
    cases x with
    | letter d =>
      cases a with
      | nil =>
        obtain ⟨rfl, rfl⟩ : d = c ∧ veiled v g = b := by simpa [Sign.veiled] using h
        exact ⟨[], g, rfl, rfl, rfl⟩
      | cons e a =>
        obtain ⟨rfl, hg⟩ : d = e ∧ veiled v g = a ++ c :: b := by simpa [Sign.veiled] using h
        obtain ⟨g₁, g₂, rfl, rfl, rfl⟩ := ih hg
        exact ⟨.letter d :: g₁, g₂, rfl, rfl, rfl⟩
    | block n inner =>
      rw [veiled_cons] at h
      rcases List.append_eq_append_iff.1 h with ⟨a', ha, hg⟩ | ⟨w, hw, hb⟩
      · -- the cut lies behind the block
        obtain ⟨g₁, g₂, rfl, rfl, rfl⟩ := ih hg
        exact ⟨.block n inner :: g₁, g₂, rfl, ha.symm, rfl⟩
      · -- the cut would lie inside the block
        cases w with
        | nil =>
          obtain ⟨g₁, g₂, rfl, hg₁, hg₂⟩ := ih (a := []) (by simpa using hb.symm)
          refine ⟨.block n inner :: g₁, g₂, rfl, ?_, hg₂⟩
          have hv : v n = a := by simpa [Sign.veiled] using hw
          simp [Sign.veiled, hv, hg₁]
        | cons d w =>
          obtain ⟨rfl, _⟩ : c = d ∧ b = w ++ veiled v g := by simpa using hb
          have hn : c ∈ v n := by
            rw [show v n = a ++ c :: w from hw]
            simp
          exact absurd hn (hc n)

end Signs

/-! ### Veils of word characters -/

-- Without this instance, all characters there are might be tried instead of those of the text.
instance (s : Text) (p : Char → Prop) [DecidablePred p] : Decidable (∀ c ∈ s, p c) :=
  List.decidableBAll p s

/-- The characters of placeholders. -/
def Veil.characters : Text := "_NOPARSE0123456789abcdef".toList

/-- Every block is shown as a low line with characters of placeholders behind it. -/
def Veil.Wordlike (v : Veil) : Prop :=
  ∀ n, ∃ w, v n = '_' :: w ∧ ∀ c ∈ w, c ∈ Veil.characters

/-- Every block shown as a low line, so that offsets count signs. -/
def Veil.bar : Veil := fun _ => ['_']

theorem Veil.wordlike_bar : Veil.bar.Wordlike := fun _ => ⟨[], rfl, by simp⟩

namespace Veil.Wordlike

variable {v : Veil}

theorem ne_nil (hv : v.Wordlike) (n : Nat) : v n ≠ [] := by
  obtain ⟨w, hw, _⟩ := hv n
  simp [hw]

theorem mem_characters (hv : v.Wordlike) {n : Nat} {c : Char} (hc : c ∈ v n) :
    c ∈ Veil.characters := by
  obtain ⟨w, hw, hchars⟩ := hv n
  rw [hw] at hc
  rcases List.mem_cons.1 hc with rfl | hc
  · decide
  · exact hchars c hc

/-- A property of all characters of placeholders holds under the veil. -/
theorem all (hv : v.Wordlike) {p : Char → Bool} (hp : ∀ c ∈ Veil.characters, p c = true) (n : Nat) :
    ∀ c ∈ v n, p c = true :=
  fun c hc => hp c (hv.mem_characters hc)

theorem not_mem (hv : v.Wordlike) {c : Char} (hc : c ∉ Veil.characters) (n : Nat) : c ∉ v n :=
  fun h => hc (hv.mem_characters h)

theorem mem_veiled_iff (hv : v.Wordlike) {c : Char} (hc : c ∉ Veil.characters) {g : Signs} :
    c ∈ g.veiled v ↔ Sign.letter c ∈ g := by
  constructor
  · intro h
    obtain ⟨x, hx, hcx⟩ := List.mem_flatMap.1 h
    cases x with
    | letter d =>
      obtain rfl : c = d := by simpa [Sign.veiled] using hcx
      exact hx
    | block n inner => exact absurd hcx (hv.not_mem hc n)
  · intro h
    exact List.mem_flatMap.2 ⟨_, h, by simp [Sign.veiled]⟩

theorem veiled_eq_nil_iff (hv : v.Wordlike) {g : Signs} : g.veiled v = [] ↔ g = [] := by
  cases g with
  | nil => simp
  | cons x g =>
    cases x with
    | letter c => simp [Sign.veiled]
    | block n inner => simp [Sign.veiled, hv.ne_nil n]

/-- A word without low lines stands at the front letter by letter. -/
theorem letters_of_veiled_eq (hv : v.Wordlike) {g : Signs} {w b : Text} (hw : '_' ∉ w)
    (h : g.veiled v = w ++ b) : ∃ g' : Signs, g = w.map .letter ++ g' ∧ g'.veiled v = b := by
  induction w generalizing g with
  | nil => exact ⟨g, rfl, h⟩
  | cons c w ih =>
    rw [List.mem_cons, not_or] at hw
    cases g with
    | nil => simp at h
    | cons x g =>
      cases x with
      | letter d =>
        obtain ⟨rfl, htail⟩ : d = c ∧ Signs.veiled v g = w ++ b := by simpa [Sign.veiled] using h
        obtain ⟨g', rfl, hb⟩ := ih hw.2 htail
        exact ⟨g', rfl, hb⟩
      | block n inner =>
        obtain ⟨u, hu, _⟩ := hv n
        rw [Signs.veiled_cons, Sign.veiled, hu, List.cons_append, List.cons_append] at h
        exact absurd (List.cons.inj h).1 hw.1

theorem veiled_eq_iff (hv : v.Wordlike) {g : Signs} {w : Text} (hw : '_' ∉ w) :
    g.veiled v = w ↔ g = w.map .letter := by
  constructor
  · intro h
    obtain ⟨g', rfl, hg'⟩ := hv.letters_of_veiled_eq (b := []) hw (by rw [h, List.append_nil])
    rw [hv.veiled_eq_nil_iff.1 hg', List.append_nil]
  · rintro rfl
    exact Signs.veiled_letters w

end Veil.Wordlike

namespace Verbatim

/-! ### Tokens -/

/-- A token is a hexadecimal word. -/
def IsToken (t : Text) : Prop := t ≠ [] ∧ ∀ c ∈ t, c ∈ "0123456789abcdef".toList

theorem IsToken.no_bar {t : Text} (ht : IsToken t) : '_' ∉ t :=
  fun h => absurd (ht.2 _ h) (by decide)

theorem mem_toDigits_sixteen {n : Nat} {c : Char} (h : c ∈ Nat.toDigits 16 n) :
    c ∈ "0123456789abcdef".toList := by
  have hdigit : ∀ d : Fin 16, Nat.digitChar d ∈ "0123456789abcdef".toList := by decide
  induction n using Nat.strongRecOn with
  | ind n ih =>
    by_cases hn : n < 16
    · rw [Nat.toDigits_of_lt_base hn, List.mem_singleton] at h
      exact h ▸ hdigit ⟨n, hn⟩
    · rw [Nat.toDigits_of_base_le (by omega) (by omega), List.mem_append, List.mem_singleton] at h
      rcases h with h | h
      · exact ih (n / 16) (by omega) h
      · exact h ▸ hdigit ⟨n % 16, by omega⟩

theorem length_token (n : Nat) : (token n).length = 12 := by
  have hlen : (Nat.toDigits 16 (n % 0x1000000000000)).length ≤ 12 :=
    (Nat.length_toDigits_le_iff (by omega) (by omega)).2 (Nat.mod_lt _ (by omega))
  simp only [token, Text.hex, List.length_append, List.length_replicate]
  omega

theorem isToken_token (n : Nat) : IsToken (token n) := by
  refine ⟨List.ne_nil_of_length_pos (by simp [length_token]), fun c hc => ?_⟩
  rcases List.mem_append.1 hc with hc | hc
  · obtain rfl := List.eq_of_mem_replicate hc
    decide
  · exact mem_toDigits_sixteen hc

theorem mem_decimal {n : Nat} {c : Char} (h : c ∈ Text.decimal n) : c ∈ "0123456789".toList := by
  have hdigit : c.isDigit = true := Nat.isDigit_of_mem_toDigits (by omega) (by omega) h
  simp only [Char.isDigit, Bool.and_eq_true, decide_eq_true_eq] at hdigit
  obtain ⟨h₁, h₂⟩ := hdigit
  have hval : c.toNat ∈ List.range' 48 10 := by
    rw [List.mem_range'_1]
    exact ⟨h₁, Nat.lt_succ_of_le h₂⟩
  have hc : c = Char.ofNat c.toNat := (Char.ofNat_toNat c).symm
  rw [hc]
  have hall : ∀ k ∈ List.range' 48 10, Char.ofNat k ∈ "0123456789".toList := by decide
  exact hall _ hval

theorem eq_of_placeholder_eq {t t' : Text} {n : Nat} (h : placeholder t n = placeholder t' n) :
    t = t' := by
  unfold placeholder at h
  rw [List.append_assoc, List.append_assoc] at h
  exact List.append_cancel_right (List.append_cancel_left h)

theorem wordlike_placeholder {t : Text} (ht : IsToken t) : Veil.Wordlike (placeholder t) := by
  intro n
  refine ⟨"__NOPARSE_".toList ++ t ++ '_' :: (Text.decimal n ++ "___".toList), rfl, ?_⟩
  have hword : ∀ c ∈ "__NOPARSE_".toList, c ∈ Veil.characters := by decide
  have hhex : ∀ c ∈ "0123456789abcdef".toList, c ∈ Veil.characters := by decide
  have hdigits : ∀ c ∈ "0123456789".toList, c ∈ Veil.characters := by decide
  have hend : ∀ c ∈ "___".toList, c ∈ Veil.characters := by decide
  intro c hc
  simp only [List.append_assoc, List.mem_append, List.mem_cons] at hc
  rcases hc with hc | hc | rfl | hc | hc
  · exact hword c hc
  · exact hhex c (ht.2 c hc)
  · decide
  · exact hdigits c (mem_decimal hc)
  · exact hend c hc

/-! ### Pages without blocks -/

theorem blocks_eq_nil {s : Text} (h : spans s = []) (t : Text) : blocks t s = [] := by
  rw [blocks, h]
  rfl

/-- Masking a page without a block changes nothing. -/
theorem mask_eq_self {s : Text} (h : spans s = []) (t : Text) : mask t s = s := by
  rw [mask, blocks_eq_nil h]
  rfl

/-! ### The signs of a page -/

/-- The text between the brackets of a block. -/
def inner (s : Text) (p : Span) : Text := s.slice p.innerStart p.innerStop

/-- The rest of the page `s` from offset `cursor` on, with its blocks at the given spans. -/
def signsFrom (s : Text) (cursor : Nat) (rest : Text) : List (Span × Nat) → Signs
  | [] => rest.map .letter
  | (p, n) :: ps =>
    (rest.take (p.start - cursor)).map .letter ++
      .block n (inner s p) :: signsFrom s p.stop (rest.drop (p.stop - cursor)) ps

/-- The signs of a page: its outermost protected blocks, and letters around them. -/
def signs (s : Text) : Signs := signsFrom s 0 s (spans s).zipIdx

theorem splice_eq_veiled_signsFrom (t s : Text) (ps : List (Span × Nat)) (cursor : Nat)
    (rest : Text) :
    Text.spliceFrom cursor rest
        ((ps.map fun p => block t s p.2 p.1).map fun b => ⟨b.start, b.stop, b.id⟩) =
      Signs.veiled (placeholder t) (signsFrom s cursor rest ps) := by
  induction ps generalizing cursor rest with
  | nil => simp [Text.spliceFrom, signsFrom]
  | cons p ps ih =>
    have htail := ih p.1.stop (rest.drop (p.1.stop - cursor))
    rw [List.map_cons, List.map_cons, Text.spliceFrom, signsFrom, Signs.veiled_append,
      Signs.veiled_letters, Signs.veiled_cons, ← htail, List.append_assoc]
    rfl

/-- A masked page shows its blocks as placeholders. -/
theorem mask_eq_veiled (t s : Text) : mask t s = Signs.veiled (placeholder t) (signs s) :=
  splice_eq_veiled_signsFrom t s _ 0 s

theorem numbers_signsFrom (s : Text) (ps : List (Span × Nat)) (cursor : Nat) (rest : Text) :
    (signsFrom s cursor rest ps).numbers = ps.map Prod.snd := by
  induction ps generalizing cursor rest with
  | nil => simp [signsFrom]
  | cons p ps ih =>
    rw [signsFrom, Signs.numbers_append, Signs.numbers_letters, List.nil_append,
      Signs.numbers_block, ih, List.map_cons]

theorem numbers_signs (s : Text) : (signs s).numbers = List.range (spans s).length := by
  rw [signs, numbers_signsFrom, List.zipIdx_map_snd, List.range_eq_range']

theorem nodup_numbers {s : Text} {g : Signs} (h : g.Sublist (signs s)) : g.numbers.Nodup := by
  have hall : (signs s).numbers.Nodup := by
    rw [numbers_signs]
    exact List.nodup_range
  exact hall.sublist (h.filterMap _)

theorem mem_of_mem_signsFrom {s : Text} {ps : List (Span × Nat)} {cursor n : Nat} {rest w : Text}
    (h : Sign.block n w ∈ signsFrom s cursor rest ps) : ∃ p, (p, n) ∈ ps ∧ w = inner s p := by
  induction ps generalizing cursor rest with
  | nil => simp [signsFrom] at h
  | cons p ps ih =>
    rw [signsFrom, List.mem_append, List.mem_cons] at h
    rcases h with h | h | h
    · obtain ⟨c, _, hc⟩ := List.mem_map.1 h
      cases hc
    · cases h
      exact ⟨p.1, List.mem_cons_self, rfl⟩
    · obtain ⟨q, hq, hw⟩ := ih h
      exact ⟨q, List.mem_cons_of_mem _ hq, hw⟩

/-- The blocks of a page are numbered in order. -/
theorem inner_of_mem_signs {s w : Text} {n : Nat} (h : Sign.block n w ∈ signs s) :
    ((spans s).map (inner s))[n]? = some w := by
  obtain ⟨p, hp, rfl⟩ := mem_of_mem_signsFrom h
  rw [List.getElem?_map, List.mem_zipIdx_iff_getElem?.1 hp]
  rfl

end Verbatim
end PageAssembly
