/-
  PageAssembly/Proofs/Alias/Grammar.lean
  ======================================
  **How alias directives are written.**

  A directive is a head, blanks, a body, and two closing braces.  Either the body stands in
  braces of its own and holds no further brace (`Braced`), or it reaches to the first closing brace
  (`Unbraced`).  What is written in one of these ways is read (`Braced.read`, `Unbraced.read`), and
  nothing else is (`exists_written`).

  The text behind a directive has hardly a say in this.  Only a closing brace that follows can turn
  an unbraced body into one in braces (`readBraced_eq_none_iff`).  So a directive is read alike in
  front of any two texts that agree in this (`read_behind`), and in front of every text something
  is read (`isSome_read_behind`).
-/
import PageAssembly.Alias.Directive
import PageAssembly.Proofs.Verbatim.Restoring
import PageAssembly.Proofs.Verbatim.Wrapping
import Mathlib.Data.List.TakeWhile

namespace PageAssembly

namespace Text

/-- Blanks are trimmed off the front, up to a character that is none. -/
theorem trimStart_append {blanks r : Text} (h : ∀ c ∈ blanks, isBlank c = true)
    (hr : ∀ c ∈ r.head?, isBlank c = false) : trimStart (blanks ++ r) = r := by
  rw [trimStart, List.dropWhile_append_of_pos h]
  cases r with
  | nil => rfl
  | cons c r => exact List.dropWhile_cons_of_neg (by simp [hr c rfl])

theorem not_mem_blanks {s : Text} {d : Char} (hs : ∀ c ∈ s, isBlank c = true) (hd : isBlank d = false) :
    d ∉ s := by
  intro hmem
  rw [hs d hmem] at hd
  cases hd

theorem exists_trimStart (s : Text) :
    ∃ blanks, (∀ c ∈ blanks, isBlank c = true) ∧ s = blanks ++ trimStart s :=
  ⟨s.takeWhile isBlank, fun _ => List.mem_takeWhile_imp, List.takeWhile_append_dropWhile.symm⟩

theorem mem_of_mem_trimStart {s : Text} {c : Char} (h : c ∈ trimStart s) : c ∈ s :=
  (List.dropWhile_suffix _).subset h

theorem mem_of_mem_trim {s : Text} {c : Char} (h : c ∈ trim s) : c ∈ s := by
  have hend : c ∈ (trimStart s).reverse.dropWhile isBlank := List.mem_reverse.1 h
  exact mem_of_mem_trimStart (List.mem_reverse.1 ((List.dropWhile_suffix _).subset hend))

/-- A character that is no blank keeps what is behind it from being trimmed. -/
theorem trimStart_append_cons {d : Char} (hd : isBlank d = false) (s r : Text) :
    trimStart (s ++ d :: r) = trimStart s ++ d :: r := by
  obtain ⟨blanks, hblanks, hs⟩ := exists_trimStart s
  cases htrim : trimStart s with
  | nil =>
    rw [htrim, List.append_nil] at hs
    rw [hs]
    exact trimStart_append hblanks fun c hc => Option.some.inj hc ▸ hd
  | cons c t =>
    have hc : isBlank c = false := by
      have hhead := List.head?_dropWhile_not isBlank s
      rw [← trimStart, htrim] at hhead
      exact hhead
    rw [hs, htrim, List.append_assoc]
    exact trimStart_append hblanks fun e he => Option.some.inj he ▸ hc

end Text

namespace Alias

/-- A name that can stand in front of an equals sign, and behind an at sign inside a value. -/
def IsName (name : Text) : Prop := name ≠ [] ∧ ∀ c ∈ name, Text.isWord c = true

/-! ### The grammar -/

/-- What stands in front of a body: two braces, the word in any letter case, and a blank. -/
inductive Head : Text → Prop where
  | intro {word : Text} {c : Char} (named : Text.expectCaseless "aliases".toList word = some [])
      (blank : Text.isBlank c = true) : Head ('{' :: '{' :: (word ++ [c]))

/-- A directive with its body in braces. -/
inductive Braced (body : Text) : Text → Prop where
  | intro {head lead inner trail : Text} (head_form : Head head)
      (lead_blank : ∀ c ∈ lead, Text.isBlank c = true) (unopened : '{' ∉ inner) (unclosed : '}' ∉ inner)
      (trail_blank : ∀ c ∈ trail, Text.isBlank c = true) (body_eq : body = '{' :: (inner ++ ['}'])) :
      Braced body (head ++ (lead ++ (body ++ (trail ++ Directive.closing))))

/-- A directive with a body that reaches to the first closing brace; the span is the body with the
    blanks at its ends. -/
inductive Unbraced (span : Text) : Text → Prop where
  | intro {head : Text} (head_form : Head head) (unclosed : '}' ∉ span) :
      Unbraced span (head ++ (span ++ Directive.closing))

theorem Unbraced.unclosed_start {span w : Text} (h : Unbraced span w) : '}' ∉ Text.trimStart span := by
  cases h with
  | intro head_form unclosed => exact fun hmem => unclosed (Text.mem_of_mem_trimStart hmem)

theorem not_mem_word {word : Text} {c : Char} (h : Text.expectCaseless "aliases".toList word = some [])
    (hc : ∀ a ∈ "aliases".toList, Text.sameLetter a c = false) : c ∉ word :=
  Text.not_mem_of_expectBy hc h

theorem Head.unclosed {head : Text} (h : Head head) : '}' ∉ head := by
  cases h with
  | intro named blank =>
    have hword := not_mem_word (c := '}') named (by decide)
    rw [List.mem_cons, List.mem_cons, List.mem_append, List.mem_singleton]
    rintro (h | h | h | rfl)
    · cases h
    · cases h
    · exact hword h
    · exact absurd blank (by decide)

/-- Behind its two braces, a head holds something, but no brace. -/
theorem Head.exists_rest {head : Text} (h : Head head) :
    ∃ rest, rest ≠ [] ∧ '{' ∉ rest ∧ head = '{' :: '{' :: rest := by
  cases h with
  | @intro word c named blank =>
    have hword := not_mem_word (c := '{') named (by decide)
    refine ⟨word ++ [c], by simp, ?_, rfl⟩
    rw [List.mem_append, List.mem_singleton]
    rintro (h | rfl)
    · exact hword h
    · exact absurd blank (by decide)

/-! ### Reading a body -/

theorem readBraced_eq_some_iff {s b r : Text} : readBraced s = some (b, r) ↔
    ∃ inner trail, '{' ∉ inner ∧ '}' ∉ inner ∧ (∀ c ∈ trail, Text.isBlank c = true) ∧
      b = '{' :: (inner ++ ['}']) ∧ s = b ++ (trail ++ (Directive.closing ++ r)) := by
  constructor
  · intro h
    unfold readBraced at h
    split at h
    · next t =>
      split at h
      · next u hu =>
        simp only [Option.map_eq_some_iff, Prod.mk.injEq] at h
        obtain ⟨v, hv, rfl, rfl⟩ := h
        obtain ⟨trail, htrail, hsplit⟩ := Text.exists_trimStart u
        rw [Text.expect_eq_some_iff.1 hv] at hsplit
        have hinner : ∀ c ∈ t.takeWhile (fun c => c != '{' && c != '}'), (c != '{' && c != '}') = true :=
          fun _ => List.mem_takeWhile_imp
        refine ⟨t.takeWhile (fun c => c != '{' && c != '}'), trail, ?_, ?_, htrail, rfl, ?_⟩
        · intro hmem
          exact absurd (hinner _ hmem) (by decide)
        · intro hmem
          exact absurd (hinner _ hmem) (by decide)
        · have hjoin : t.takeWhile (fun c => c != '{' && c != '}') ++ '}' :: u = t := by
            rw [← hu, List.takeWhile_append_dropWhile]
          rw [← hsplit, List.cons_append, List.append_assoc, List.singleton_append, hjoin]
      · cases h
    · cases h
  · rintro ⟨inner, trail, hopened, hclosed, htrail, rfl, rfl⟩
    have hinner : ∀ c ∈ inner, (c != '{' && c != '}') = true := by
      intro c hc
      rw [Bool.and_eq_true, bne_iff_ne, bne_iff_ne]
      exact ⟨fun h => hopened (h ▸ hc), fun h => hclosed (h ▸ hc)⟩
    have htake : (inner ++ '}' :: (trail ++ (Directive.closing ++ r))).takeWhile
        (fun c => c != '{' && c != '}') = inner := by
      rw [List.takeWhile_append_of_pos hinner, List.takeWhile_cons_of_neg (by decide), List.append_nil]
    have hdrop : (inner ++ '}' :: (trail ++ (Directive.closing ++ r))).dropWhile
        (fun c => c != '{' && c != '}') = '}' :: (trail ++ (Directive.closing ++ r)) := by
      rw [List.dropWhile_append_of_pos hinner, List.dropWhile_cons_of_neg (by decide)]
    have htrim : Text.trimStart (trail ++ (Directive.closing ++ r)) = Directive.closing ++ r := by
      apply Text.trimStart_append htrail
      rintro c ⟨⟩
      decide
    rw [List.cons_append, List.append_assoc, List.singleton_append]
    simp only [readBraced, hdrop, htake, htrim, Text.expect_append, Option.map_some]

theorem readOpen_eq_some_iff {s b r : Text} : readOpen s = some (b, r) ↔
    ∃ span, '}' ∉ span ∧ b = Text.trimEnd span ∧ s = span ++ (Directive.closing ++ r) := by
  constructor
  · intro h
    simp only [readOpen, Option.map_eq_some_iff, Prod.mk.injEq] at h
    obtain ⟨v, hv, rfl, rfl⟩ := h
    refine ⟨s.takeWhile (· != '}'), ?_, rfl, ?_⟩
    · intro hmem
      exact absurd (List.mem_takeWhile_imp hmem) (by decide)
    · rw [← Text.expect_eq_some_iff.1 hv, List.takeWhile_append_dropWhile]
  · rintro ⟨span, hclosed, rfl, rfl⟩
    have hspan : ∀ c ∈ span, (c != '}') = true := fun c hc => bne_iff_ne.2 fun h => hclosed (h ▸ hc)
    have htake : (span ++ (Directive.closing ++ r)).takeWhile (· != '}') = span := by
      rw [List.takeWhile_append_of_pos hspan, Directive.closing, List.cons_append,
        List.takeWhile_cons_of_neg (by decide), List.append_nil]
    have hdrop : (span ++ (Directive.closing ++ r)).dropWhile (· != '}') = Directive.closing ++ r := by
      rw [List.dropWhile_append_of_pos hspan, Directive.closing, List.cons_append,
        List.dropWhile_cons_of_neg (by decide)]
    rw [readOpen, hdrop, htake, Text.expect_append, Option.map_some]

/-- An unbraced body is a body in braces only if it is an opening brace with no further one
    behind it, and a closing brace follows the directive. -/
theorem readBraced_eq_none_iff {span r : Text} (h : '}' ∉ span) :
    readBraced (span ++ (Directive.closing ++ r)) = none ↔
      (r.head? = some '}' → ∀ inner, span = '{' :: inner → '{' ∈ inner) := by
  constructor
  · rintro hnone hr inner rfl
    apply Decidable.byContradiction
    intro hopened
    obtain ⟨r, rfl⟩ := List.head?_eq_some_iff.1 hr
    have hclosed : '}' ∉ inner := fun hmem => h (List.mem_cons_of_mem _ hmem)
    have hread : readBraced ('{' :: (inner ++ ['}']) ++ ([] ++ (Directive.closing ++ r))) =
        some ('{' :: (inner ++ ['}']), r) :=
      readBraced_eq_some_iff.2 ⟨inner, [], hopened, hclosed, by simp, rfl, rfl⟩
    have htext : '{' :: (inner ++ ['}']) ++ ([] ++ (Directive.closing ++ r)) =
        '{' :: inner ++ (Directive.closing ++ '}' :: r) := by
      simp [Directive.closing]
    rw [htext, hnone] at hread
    cases hread
  · intro hbrace
    refine Option.eq_none_iff_forall_not_mem.2 ?_
    rintro ⟨b, u⟩ hread
    obtain ⟨inner, trail, hopened, hclosed, htrail, rfl, hs⟩ := readBraced_eq_some_iff.1 hread
    have hfirst : span ++ '}' :: ('}' :: r) =
        '{' :: inner ++ '}' :: (trail ++ '}' :: '}' :: u) := by
      simpa [Directive.closing] using hs
    obtain ⟨rfl, hbehind⟩ := Text.append_cons_inj h (by simp [hclosed]) hfirst
    cases trail with
    | nil =>
      obtain ⟨-, rfl⟩ := List.cons.inj hbehind
      exact hopened (hbrace rfl inner rfl)
    | cons c trail =>
      obtain ⟨rfl, -⟩ := List.cons.inj hbehind
      exact absurd (htrail _ List.mem_cons_self) (by decide)

/-! ### Reading a directive -/

theorem Head.readDirective_append {head : Text} (h : Head head) (s : Text) :
    readDirective (head ++ s) =
      ((readBraced (Text.trimStart s)).or (readOpen (Text.trimStart s))).map
        fun p => (definitions p.1, p.2) := by
  cases h with
  | @intro word c named blank =>
    have hopening : Text.expect Directive.opening ('{' :: '{' :: (word ++ [c]) ++ s) =
        some (word ++ c :: s) := by
      rw [show '{' :: '{' :: (word ++ [c]) ++ s = Directive.opening ++ (word ++ c :: s) by
        simp [Directive.opening], Text.expect_append]
    have hword : Text.expectCaseless "aliases".toList (word ++ c :: s) = some (c :: s) :=
      Text.expectBy_eq_some_iff.2 ⟨word, named, rfl⟩
    simp only [readDirective, hopening, hword, readBody, blank, if_true, Option.bind_eq_bind,
      Option.bind_some, Option.orElse_eq_orElse, Option.orElse_eq_or, Option.pure_def]
    cases (readBraced (Text.trimStart s)).or (readOpen (Text.trimStart s)) with
    | none => rfl
    | some p => rfl

/-- What is read starts with a head. -/
theorem exists_head {s r : Text} {a : Aliases} (h : readDirective s = some (a, r)) :
    ∃ head t, Head head ∧ s = head ++ t := by
  simp only [readDirective, Option.bind_eq_bind, Option.bind_eq_some_iff, Option.pure_def,
    Option.some.injEq, Prod.mk.injEq] at h
  obtain ⟨t, ht, u, hu, ⟨b, v⟩, hv, -⟩ := h
  obtain ⟨word, hword, hsplit⟩ := Text.expectBy_eq_some_iff.1 hu
  cases u with
  | nil => cases hv
  | cons c u =>
    simp only [readBody] at hv
    split at hv
    · next hblank =>
      refine ⟨_, u, Head.intro hword hblank, ?_⟩
      rw [Text.expect_eq_some_iff.1 ht, hsplit]
      simp [Directive.opening]
    · cases hv

theorem trimStart_append_closing (s r : Text) :
    Text.trimStart (s ++ (Directive.closing ++ r)) = Text.trimStart s ++ (Directive.closing ++ r) :=
  Text.trimStart_append_cons (by decide) s ('}' :: r)

/-- A directive with its body in braces is read as such, whatever is behind it. -/
theorem Braced.read {body w : Text} (h : Braced body w) (r : Text) :
    readDirective (w ++ r) = some (definitions body, r) := by
  cases h with
  | @intro head lead inner trail head_form lead_blank unopened unclosed trail_blank body_eq =>
    have hlead : Text.trimStart (lead ++ (body ++ (trail ++ (Directive.closing ++ r)))) =
        body ++ (trail ++ (Directive.closing ++ r)) := by
      apply Text.trimStart_append lead_blank
      rw [body_eq]
      rintro c ⟨⟩
      decide
    have hread : readBraced (body ++ (trail ++ (Directive.closing ++ r))) = some (body, r) :=
      readBraced_eq_some_iff.2 ⟨inner, trail, unopened, unclosed, trail_blank, body_eq, rfl⟩
    simp only [List.append_assoc, head_form.readDirective_append, hlead, hread, Option.some_or,
      Option.map_some]

/-- A directive with an unbraced body is read as such, unless it can be read as one in braces. -/
theorem Unbraced.read {span w : Text} (h : Unbraced span w) (r : Text) :
    readDirective (w ++ r) =
      ((readBraced (Text.trimStart span ++ (Directive.closing ++ r))).or
        (some (Text.trim span, r))).map fun p => (definitions p.1, p.2) := by
  have hopen : readOpen (Text.trimStart span ++ (Directive.closing ++ r)) =
      some (Text.trim span, r) :=
    readOpen_eq_some_iff.2 ⟨Text.trimStart span, h.unclosed_start, rfl, rfl⟩
  cases h with
  | intro head_form unclosed =>
    rw [List.append_assoc, List.append_assoc, head_form.readDirective_append,
      trimStart_append_closing, hopen]

/-- What is read is a directive of one of the two forms, and of the second one only if it could not be
    read as one in braces. -/
theorem exists_written {w r : Text} {a : Aliases} (h : readDirective (w ++ r) = some (a, r)) :
    (∃ body, Braced body w ∧ a = definitions body) ∨
      ∃ span, Unbraced span w ∧ a = definitions (Text.trim span) ∧
        readBraced (Text.trimStart span ++ (Directive.closing ++ r)) = none := by
  obtain ⟨head, t, hhead, hw⟩ := exists_head h
  rw [hw, hhead.readDirective_append] at h
  obtain ⟨⟨body, u⟩, hbody, hvalue⟩ := Option.map_eq_some_iff.1 h
  obtain ⟨rfl, rfl⟩ : definitions body = a ∧ u = r := Prod.mk.inj hvalue
  obtain ⟨lead, hlead, ht⟩ := Text.exists_trimStart t
  rcases Option.or_eq_some_iff.1 hbody with hbraced | ⟨hnone, hopen⟩
  · left
    obtain ⟨inner, trail, hopened, hclosed, htrail, hbraces, hs⟩ := readBraced_eq_some_iff.1 hbraced
    have hform : w = head ++ (lead ++ (body ++ (trail ++ Directive.closing))) := by
      apply (List.append_left_inj u).1
      rw [hw, ht, hs]
      simp
    rw [hform]
    exact ⟨body, Braced.intro hhead hlead hopened hclosed htrail hbraces, rfl⟩
  · right
    obtain ⟨rest, hclosed, rfl, hs⟩ := readOpen_eq_some_iff.1 hopen
    have hspan : '}' ∉ lead ++ rest := by
      rw [List.mem_append, not_or]
      exact ⟨Text.not_mem_blanks hlead (by decide), hclosed⟩
    have hform : w = head ++ (lead ++ rest ++ Directive.closing) := by
      apply (List.append_left_inj u).1
      rw [hw, ht, hs]
      simp
    -- the blanks of the span are those in front of it
    have htrim : Text.trimStart (lead ++ rest) = rest := by
      have hboth := trimStart_append_closing (lead ++ rest) u
      rw [List.append_assoc, ← hs, ← ht, hs] at hboth
      exact (List.append_left_inj _).1 hboth.symm
    rw [hform]
    refine ⟨lead ++ rest, Unbraced.intro hhead hspan, by rw [Text.trim, htrim], ?_⟩
    rw [htrim, ← hs]
    exact hnone

/-! ### The text behind a directive -/

/-- In front of every other text something is read, too. -/
theorem isSome_read_behind {w r : Text} {a : Aliases} (h : readDirective (w ++ r) = some (a, r))
    (r' : Text) : (readDirective (w ++ r')).isSome := by
  rcases exists_written h with ⟨body, hbraced, -⟩ | ⟨span, hspan, -⟩
  · rw [hbraced.read]
    rfl
  · rw [hspan.read, Option.isSome_map, Option.isSome_or, Option.isSome_some, Bool.or_true]

/-- The same is read in front of another text, if a closing brace that follows there follows here. -/
theorem read_behind {w r r' : Text} {a : Aliases} (h : readDirective (w ++ r) = some (a, r))
    (hr : r'.head? = some '}' → r.head? = some '}') : readDirective (w ++ r') = some (a, r') := by
  rcases exists_written h with ⟨body, hbraced, rfl⟩ | ⟨span, hspan, rfl, hnone⟩
  · exact hbraced.read r'
  · have hnone' : readBraced (Text.trimStart span ++ (Directive.closing ++ r')) = none :=
      (readBraced_eq_none_iff hspan.unclosed_start).2 fun h =>
        (readBraced_eq_none_iff hspan.unclosed_start).1 hnone (hr h)
    rw [hspan.read, hnone']
    rfl

end Alias
end PageAssembly
