/-
  PageAssembly/Proofs/Directive/Steady.lean
  =========================================
  **Directives of a masked page do not depend on its placeholders.**

  A placeholder is made of word characters.  It may therefore stand inside a directive,
  as part of an attribute's name or value, and change what the directive says; but it
  can neither start nor end a directive, a name, a quoted value or a bare one.  So the
  directives of a page cover the same signs whatever the placeholders are
  (`exists_stretches`), and whether a directive is an include does not depend on them
  either (`isSome_inclusion?`).  A directive without a block inside says the same under
  all veils.
-/
import PageAssembly.Directive.Typed
import PageAssembly.Proofs.Verbatim.Stretches
import Mathlib.Data.List.TakeWhile

namespace PageAssembly

/-! ### Reading off a veiled page -/

/-- Whether the sign is a block or a letter that satisfies `p`. -/
def Sign.passes (p : Char → Bool) : Sign → Bool
  | .letter c => p c
  | .block _ _ => true

section

variable {v : Veil} {p : Char → Bool}

theorem Signs.takeWhile_veiled (hp : ∀ n, ∀ c ∈ v n, p c = true) (g : Signs) :
    (g.veiled v).takeWhile p = Signs.veiled v (g.takeWhile (Sign.passes p)) := by
  induction g with
  | nil => rfl
  | cons x g ih =>
    cases x with
    | letter c =>
      by_cases hc : p c = true
      · simp [Sign.veiled, Sign.passes, hc, ih]
      · simp [Sign.veiled, Sign.passes, hc]
    | block n inner =>
      rw [Signs.veiled_cons, Sign.veiled, List.takeWhile_append_of_pos (hp n), ih]
      rfl

theorem Signs.dropWhile_veiled (hp : ∀ n, ∀ c ∈ v n, p c = true) (g : Signs) :
    (g.veiled v).dropWhile p = Signs.veiled v (g.dropWhile (Sign.passes p)) := by
  induction g with
  | nil => rfl
  | cons x g ih =>
    cases x with
    | letter c =>
      by_cases hc : p c = true
      · simp [Sign.veiled, Sign.passes, hc, ih]
      · simp [Sign.veiled, Sign.passes, hc]
    | block n inner =>
      rw [Signs.veiled_cons, Sign.veiled, List.dropWhile_append_of_pos (hp n), ih]
      rfl

end

/-- A reader gives the same signs, and leaves the same rest, under all veils. -/
def Signs.Steady (read : Text → Option (Text × Text)) (g : Signs) : Prop :=
  ∃ o : Option (Signs × Signs), (∀ x r, o = some (x, r) → r <:+ g) ∧
    ∀ v : Veil, v.Wordlike → read (g.veiled v) = o.map fun q => (q.1.veiled v, q.2.veiled v)

namespace Attribute

theorem steady_quoted (mark : Char) (hmark : mark ∉ Veil.characters) (g : Signs) :
    g.Steady (readQuoted mark) := by
  have hp : ∀ c ∈ Veil.characters, (c != mark) = true := by
    intro c hc
    simp only [bne_iff_ne, ne_eq]
    rintro rfl
    exact hmark hc
  cases g with
  | nil => exact ⟨none, by simp, fun v _ => rfl⟩
  | cons x g =>
    cases x with
    | block n inner =>
      refine ⟨none, by simp, fun v hv => ?_⟩
      obtain ⟨w, hw, _⟩ := hv n
      have hbar : '_' ≠ mark := by
        rintro rfl
        exact hmark (by decide)
      rw [Signs.veiled_cons, Sign.veiled, hw, List.cons_append, readQuoted, if_neg hbar]
      rfl
    | letter c =>
      by_cases hc : c = mark
      · subst hc
        let value := g.takeWhile (Sign.passes (· != c))
        cases hrest : g.dropWhile (Sign.passes (· != c)) with
        | nil =>
          refine ⟨none, by simp, fun v hv => ?_⟩
          rw [Signs.veiled_cons, Sign.veiled, List.singleton_append, readQuoted, if_pos rfl,
            Signs.dropWhile_veiled (hv.all hp), hrest]
          rfl
        | cons y r =>
          have hr : y :: r <:+ g := hrest ▸ List.dropWhile_suffix _
          refine ⟨some (value, r), ?_, fun v hv => ?_⟩
          · rintro _ _ ⟨⟩
            exact ((List.suffix_cons y r).trans hr).trans (List.suffix_cons _ g)
          · -- the rest starts with the closing quote, which is no block
            have hy : ∃ d, y = .letter d := by
              cases y with
              | letter d => exact ⟨d, rfl⟩
              | block n inner =>
                have hhead := List.head?_dropWhile_not (Sign.passes (· != c)) g
                rw [hrest] at hhead
                simp [Sign.passes] at hhead
            obtain ⟨d, rfl⟩ := hy
            rw [Signs.veiled_cons, Sign.veiled, List.singleton_append, readQuoted, if_pos rfl,
              Signs.dropWhile_veiled (hv.all hp), Signs.takeWhile_veiled (hv.all hp), hrest]
            rfl
      · refine ⟨none, by simp, fun v _ => ?_⟩
        rw [Signs.veiled_cons, Sign.veiled, List.singleton_append, readQuoted, if_neg hc]
        rfl

/-- A non-empty run of characters to which all characters of placeholders belong. -/
theorem steady_run {p : Char → Bool} (hp : ∀ c ∈ Veil.characters, p c = true)
    {read : Text → Option (Text × Text)}
    (hread : ∀ s, read s =
      if s.takeWhile p = [] then none else some (s.takeWhile p, s.dropWhile p))
    (g : Signs) : g.Steady read := by
  by_cases hrun : g.takeWhile (Sign.passes p) = []
  · refine ⟨none, by simp, fun v hv => ?_⟩
    rw [hread, Signs.takeWhile_veiled (hv.all hp), hrun]
    rfl
  · refine ⟨some (g.takeWhile (Sign.passes p), g.dropWhile (Sign.passes p)), ?_, fun v hv => ?_⟩
    · rintro _ _ ⟨⟩
      exact List.dropWhile_suffix _
    · have hne : Signs.veiled v (g.takeWhile (Sign.passes p)) ≠ [] :=
        fun h => hrun (hv.veiled_eq_nil_iff.1 h)
      rw [hread, Signs.takeWhile_veiled (hv.all hp), Signs.dropWhile_veiled (hv.all hp), if_neg hne]
      rfl

theorem readName_eq (s : Text) : readName s =
    if s.takeWhile Text.isWord = [] then none
    else some (s.takeWhile Text.isWord, s.dropWhile Text.isWord) := by
  unfold readName
  cases s.takeWhile Text.isWord <;> rfl

theorem readBare_eq (s : Text) : readBare s =
    if s.takeWhile (!Text.isBlank ·) = [] then none
    else some (s.takeWhile (!Text.isBlank ·), s.dropWhile (!Text.isBlank ·)) := by
  unfold readBare
  cases s.takeWhile (!Text.isBlank ·) <;> rfl

theorem steady_bare (g : Signs) : g.Steady readBare := steady_run (by decide) readBare_eq g

theorem steady_value (g : Signs) : g.Steady readValue := by
  obtain ⟨o₁, hr₁, h₁⟩ := steady_quoted '"' (by decide) g
  obtain ⟨o₂, hr₂, h₂⟩ := steady_quoted '\'' (by decide) g
  obtain ⟨o₃, hr₃, h₃⟩ := steady_bare g
  refine ⟨o₁ <|> o₂ <|> o₃, ?_, ?_⟩
  · intro x r h
    cases o₁ with
    | some q => exact hr₁ x r h
    | none =>
      cases o₂ with
      | some q => exact hr₂ x r h
      | none => exact hr₃ x r h
  · intro v hv
    rw [readValue, h₁ v hv, h₂ v hv, h₃ v hv]
    cases o₁ with
    | some q => rfl
    | none => cases o₂ <;> rfl

theorem readValue_veil {v : Veil} (hv : v.Wordlike) (n : Nat) :
    readValue (v n) = some (v n, []) := by
  obtain ⟨w, hw, -⟩ := hv n
  have hblank : ∀ c ∈ v n, (!Text.isBlank c) = true := hv.all (by decide) n
  have hbare : readBare (v n) = some (v n, []) := by
    rw [readBare_eq, List.takeWhile_eq_self_iff.2 hblank, List.dropWhile_eq_nil_iff.2 hblank,
      if_neg (hv.ne_nil n)]
  have hquoted : ∀ mark, mark ≠ '_' → readQuoted mark (v n) = none := by
    intro mark hmark
    rw [hw, readQuoted, if_neg fun h => hmark h.symm]
  rw [readValue, hquoted _ (by decide), hquoted _ (by decide), hbare]
  rfl

theorem steady_assigned (g : Signs) : g.Steady readAssigned := by
  by_cases heq : ∃ g', g = .letter '=' :: g'
  · obtain ⟨g', rfl⟩ := heq
    obtain ⟨o, hr, h⟩ := steady_value g'
    exact ⟨o, fun x r ho => (hr x r ho).trans (List.suffix_cons _ _), fun v hv => h v hv⟩
  · refine ⟨none, by simp, fun v hv => ?_⟩
    unfold readAssigned
    split
    · next s hs =>
      obtain ⟨g', rfl, _⟩ := hv.letters_of_veiled_eq (w := ['=']) (by decide) hs
      exact absurd ⟨g', rfl⟩ heq
    · rfl

/-- What an attribute's signs say under a veil: its name, and its value unless it is a flag. -/
def under (name : Signs) (value : Option Signs) (v : Veil) : Text × AttributeValue :=
  (name.veiled v, value.elim .flag fun g => .text (g.veiled v))

theorem takes_attribute {g : Signs} (hname : g.takeWhile (Sign.passes Text.isWord) ≠ []) :
    pattern.Takes Veil.Wordlike (fun _ a => ∃ name value, a = under name value) g := by
  let name : Signs := g.takeWhile (Sign.passes Text.isWord)
  let rest : Signs := g.dropWhile (Sign.passes Text.isWord)
  have hsplit : g = name ++ rest := (List.takeWhile_append_dropWhile).symm
  have hword : ∀ c ∈ Veil.characters, Text.isWord c = true := by decide
  have hread : ∀ v : Veil, v.Wordlike → readName (g.veiled v) = some (name.veiled v, rest.veiled v) := by
    intro v hv
    have hne : name.veiled v ≠ [] := fun h => hname (hv.veiled_eq_nil_iff.1 h)
    rw [readName_eq, Signs.takeWhile_veiled (hv.all hword), Signs.dropWhile_veiled (hv.all hword),
      if_neg hne]
  obtain ⟨o, hr, ho⟩ := steady_assigned rest
  cases o with
  | none =>
    refine ⟨name, rest, under name none, hname, hsplit, ⟨name, none, rfl⟩, fun v hv => ?_⟩
    simp only [pattern, readAttribute, hread v hv, Option.map_some, ho v hv, Option.map_none]
    rfl
  | some q =>
    obtain ⟨value, r⟩ := q
    obtain ⟨u, hu⟩ := hr value r rfl
    refine ⟨name ++ u, r, under name (some value), by simp [name, hname], ?_, ⟨name, _, rfl⟩,
      fun v hv => ?_⟩
    · rw [List.append_assoc, hu]
      exact hsplit
    · simp only [pattern, readAttribute, hread v hv, Option.map_some, ho v hv]
      rfl

theorem steady (x : Sign) (g : Signs) :
    pattern.Passes Veil.Wordlike x g ∨
      pattern.Takes Veil.Wordlike (fun _ a => ∃ name value, a = under name value) (x :: g) := by
  by_cases hx : x.passes Text.isWord = true
  · refine Or.inr (takes_attribute ?_)
    simp [hx]
  · left
    intro v hv z hz hzx
    cases x with
    | block n inner => exact absurd rfl hx
    | letter c =>
      -- a letter that no name starts with
      obtain rfl := Sign.eq_of_suffix_letter hz hzx
      have hc : Text.isWord c = false := by simpa [Sign.passes] using hx
      simp [pattern, readAttribute, readName_eq, hc]

end Attribute

/-- Whether the attribute has a text. -/
def AttributeValue.isText : AttributeValue → Bool
  | .flag => false
  | .text _ => true

/-- Whether an attribute has a text is decided by the last attribute of its name. -/
theorem Attributes.isSome_text?_insertAll (m : Attributes) (es : List (Text × AttributeValue))
    (name : Text) :
    (text? (m.insertAll es) name).isSome =
      es.foldl (fun o e => if e.1 = name then e.2.isText else o) (text? m name).isSome := by
  induction es generalizing m with
  | nil => rfl
  | cons e es ih =>
    have hhead : (text? (m.insert e.1 e.2) name).isSome =
        if e.1 = name then e.2.isText else (text? m name).isSome := by
      simp only [text?, OrderedMap.get?_insert]
      by_cases h : e.1 = name
      · rw [if_pos h, if_pos h]
        cases e.2 <;> rfl
      · rw [if_neg h, if_neg h]
    have htail := ih (m.insert e.1 e.2)
    rw [hhead] at htail
    exact htail

/-- Whether the last of the attributes with the name has a text. -/
def Attribute.lastIsText (name : Text) (b : Bool) (ps : List (Piece (Text × AttributeValue))) : Bool :=
  (Pattern.values ps).foldl (fun o e => if e.1 = name then e.2.isText else o) b

theorem Attribute.lastIsText_pieces {name : Text} (hname : '_' ∉ name) {v v' : Veil}
    (hv : v.Wordlike) (hv' : v'.Wordlike) (ss : List (Stretch (Veil → Text × AttributeValue)))
    (hss : ∀ h a, Stretch.hit h a ∈ ss → ∃ n value, a = Attribute.under n value) (b : Bool) :
    lastIsText name b (ss.flatMap (Stretch.pieces v)) =
      lastIsText name b (ss.flatMap (Stretch.pieces v')) := by
  induction ss generalizing b with
  | nil => rfl
  | cons s ss ih =>
    have htail := ih fun h a hmem => hss h a (List.mem_cons_of_mem _ hmem)
    cases s with
    | plain x =>
      simp only [lastIsText, List.flatMap_cons, Stretch.pieces, Pattern.values_append,
        Pattern.values_plain, List.nil_append]
      exact htail b
    | hit h a =>
      obtain ⟨n, value, rfl⟩ := hss h a List.mem_cons_self
      have hkind : (under n value v).2.isText = (under n value v').2.isText := by
        cases value <;> rfl
      have hsame : (under n value v).1 = name ↔ (under n value v').1 = name := by
        rw [under, under, hv.veiled_eq_iff hname, hv'.veiled_eq_iff hname]
      have hhead : (if (under n value v).1 = name then (under n value v).2.isText else b) =
          (if (under n value v').1 = name then (under n value v').2.isText else b) := by
        rw [hkind]
        exact if_congr hsame rfl rfl
      simp only [lastIsText, List.flatMap_cons, Stretch.pieces, List.singleton_append,
        Pattern.values_hit, List.foldl_cons, hhead]
      exact htail _

/-- Whether an attribute has a text does not depend on the veil. -/
theorem Attributes.isSome_text?_veiled (name : Text) (hname : '_' ∉ name) (g : Signs) {v v' : Veil}
    (hv : v.Wordlike) (hv' : v'.Wordlike) :
    (text? (ofText (g.veiled v)) name).isSome = (text? (ofText (g.veiled v')) name).isSome := by
  obtain ⟨ss, -, hhits, hpieces⟩ := Attribute.pattern.exists_stretches Attribute.steady g
  have hlast : ∀ w : Veil, w.Wordlike → (text? (ofText (g.veiled w)) name).isSome =
      Attribute.lastIsText name false (ss.flatMap (Stretch.pieces w)) := by
    intro w hw
    rw [ofText, OrderedMap.ofList, Pattern.find, Pattern.map_value_locate,
      isSome_text?_insertAll, hpieces w hw]
    rfl
  rw [hlast v hv, hlast v' hv']
  exact Attribute.lastIsText_pieces hname hv hv' ss hhits false

namespace Directive

/-! ### Directives -/

theorem readKind_word (k : Kind) (r : Text) : readKind (k.word ++ r) = some (k, r) := by
  have hown : Text.expect k.word (k.word ++ r) = some r := Text.expect_append _ _
  cases k with
  | inclusion => simp only [readKind, Kind.all, List.findSome?, hown, Option.map_some]
  | chunk =>
    have h₁ : Text.expect Kind.inclusion.word (Kind.chunk.word ++ r) = none := rfl
    simp only [readKind, Kind.all, List.findSome?, h₁, hown, Option.map_none, Option.map_some]
  | continuation =>
    have h₁ : Text.expect Kind.inclusion.word (Kind.continuation.word ++ r) = none := rfl
    have h₂ : Text.expect Kind.chunk.word (Kind.continuation.word ++ r) = none := rfl
    simp only [readKind, Kind.all, List.findSome?, h₁, h₂, hown, Option.map_none, Option.map_some]
  | render =>
    have h₁ : Text.expect Kind.inclusion.word (Kind.render.word ++ r) = none := rfl
    have h₂ : Text.expect Kind.chunk.word (Kind.render.word ++ r) = none := rfl
    have h₃ : Text.expect Kind.continuation.word (Kind.render.word ++ r) = none := rfl
    simp only [readKind, Kind.all, List.findSome?, h₁, h₂, h₃, hown, Option.map_none,
      Option.map_some]

/-- A body stands behind a blank, is not empty, and ends at the first closing brace. -/
theorem readBody_eq_some_iff {s body r : Text} :
    readBody s = some (body, r) ↔
      ∃ c : Char, s = c :: (body ++ closing ++ r) ∧ Text.isBlank c = true ∧ body ≠ [] ∧ '}' ∉ body := by
  constructor
  · intro h
    simp only [readBody] at h
    split at h
    · next c e rest htake =>
      split at h
      · next hblank =>
        simp only [Option.map_eq_some_iff, Prod.mk.injEq] at h
        obtain ⟨z, hz, rfl, rfl⟩ := h
        refine ⟨c, ?_, hblank, List.cons_ne_nil e rest, fun hbrace => ?_⟩
        · rw [List.append_assoc, ← Text.expect_eq_some_iff.1 hz, ← List.cons_append, ← htake,
            List.takeWhile_append_dropWhile]
        · have hmem : '}' ∈ s.takeWhile (· != '}') := by
            rw [htake]
            exact List.mem_cons_of_mem _ hbrace
          exact absurd (List.mem_takeWhile_imp hmem) (by decide)
      · cases h
    · cases h
  · rintro ⟨c, rfl, hblank, hne, hbrace⟩
    have hc : c ≠ '}' := by
      rintro rfl
      exact absurd hblank (by decide)
    have hall : ∀ e ∈ c :: body, (e != '}') = true := by
      intro e he
      rcases List.mem_cons.1 he with rfl | he
      · exact bne_iff_ne.2 hc
      · exact bne_iff_ne.2 (ne_of_mem_of_not_mem he hbrace)
    have htake : (c :: (body ++ closing ++ r)).takeWhile (· != '}') = c :: body := by
      rw [List.append_assoc, ← List.cons_append, List.takeWhile_append_of_pos hall]
      simp [closing]
    have hdrop : (c :: (body ++ closing ++ r)).dropWhile (· != '}') = closing ++ r := by
      rw [List.append_assoc, ← List.cons_append, List.dropWhile_append_of_pos hall]
      simp [closing]
    obtain ⟨e, rest, rfl⟩ := List.exists_cons_of_ne_nil hne
    simp only [readBody, htake, hdrop, hblank, if_true, Text.expect_append, Option.map_some]

/-- Where a directive stands, and what it says. -/
theorem readDirective_eq_some_iff {s r : Text} {d : Directive} :
    readDirective s = some (d, r) ↔
      ∃ (k : Kind) (c : Char) (body : Text), s = opening ++ k.word ++ c :: (body ++ closing ++ r) ∧
        Text.isBlank c = true ∧ body ≠ [] ∧ '}' ∉ body ∧ d = ⟨k, Attributes.ofText body⟩ := by
  constructor
  · intro h
    simp only [readDirective, Option.bind_eq_bind, Option.bind_eq_some_iff, Option.pure_def,
      Option.some.injEq, Prod.mk.injEq] at h
    obtain ⟨t, ht, ⟨k, u⟩, hu, ⟨body, w⟩, hw, rfl, rfl⟩ := h
    obtain ⟨c, rfl, hblank, hne, hbrace⟩ := readBody_eq_some_iff.1 hw
    refine ⟨k, c, body, ?_, hblank, hne, hbrace, rfl⟩
    rw [Text.expect_eq_some_iff.1 ht, suffix_of_readKind hu, List.append_assoc opening]
  · rintro ⟨k, c, body, rfl, hblank, hne, hbrace, rfl⟩
    have hbody : readBody (c :: (body ++ closing ++ r)) = some (body, r) :=
      readBody_eq_some_iff.2 ⟨c, rfl, hblank, hne, hbrace⟩
    simp only [readDirective, List.append_assoc, Text.expect_append, Option.bind_eq_bind,
      Option.bind_some, readKind_word] at hbody ⊢
    rw [hbody]
    rfl

/-- What a directive with the signs `body` says under a veil. -/
def under (k : Kind) (body : Signs) (v : Veil) : Directive := ⟨k, Attributes.ofText (body.veiled v)⟩

/-- The signs of a directive, and what it says. -/
def Says (h : Signs) (d : Veil → Directive) : Prop := ∃ k body, body <:+: h ∧ d = under k body

theorem takes_directive {g : Signs} {v : Veil} (hv : v.Wordlike) {d : Directive} {r : Text}
    (h : readDirective (g.veiled v) = some (d, r)) : pattern.Takes Veil.Wordlike Says g := by
  obtain ⟨k, c, body, hg, hblank, hne, hbrace, rfl⟩ := readDirective_eq_some_iff.1 h
  have hbar : '_' ∉ opening ++ k.word ++ [c] := by
    have hc : c ≠ '_' := by
      rintro rfl
      exact absurd hblank (by decide)
    have hword : '_' ∉ opening ++ k.word := by cases k <;> decide
    rw [List.mem_append, not_or]
    exact ⟨hword, fun h => hc (List.mem_singleton.1 h).symm⟩
  have hcut : ∀ n, '}' ∉ v n := hv.not_mem (by decide)
  obtain ⟨g', rfl, hg'⟩ := hv.letters_of_veiled_eq (b := body ++ closing ++ r) hbar
    (by rw [hg]; simp)
  rw [closing, List.append_assoc, List.cons_append] at hg'
  obtain ⟨b, g₂, rfl, rfl, hg₂⟩ := Signs.veiled_eq_append_cons hcut hg'
  obtain ⟨e, rest, rfl, he, _⟩ := Signs.veiled_eq_append_cons (a := []) hcut hg₂
  obtain rfl := hv.veiled_eq_nil_iff.1 he
  refine ⟨(opening ++ k.word ++ [c]).map .letter ++ b ++ [.letter '}', .letter '}'], rest,
    under k b, by simp, by simp, ⟨k, b, ⟨_, _, rfl⟩, rfl⟩, fun w hw => ?_⟩
  refine readDirective_eq_some_iff.2 ⟨k, c, b.veiled w, ?_, hblank, ?_, ?_, rfl⟩
  · simp [Sign.veiled, closing]
  · exact fun hnil => hne (hv.veiled_eq_nil_iff.2 (hw.veiled_eq_nil_iff.1 hnil))
  · rw [hw.mem_veiled_iff (by decide)]
    rwa [hv.mem_veiled_iff (by decide)] at hbrace

theorem steady (x : Sign) (g : Signs) :
    pattern.Passes Veil.Wordlike x g ∨ pattern.Takes Veil.Wordlike Says (x :: g) := by
  by_cases hx : ∃ v : Veil, v.Wordlike ∧ ∃ d r, readDirective (Signs.veiled v (x :: g)) = some (d, r)
  · obtain ⟨v, hv, d, r, h⟩ := hx
    exact Or.inr (takes_directive hv h)
  · left
    intro v hv z hz hzx
    refine Option.eq_none_iff_forall_not_mem.2 ?_
    rintro ⟨d, r⟩ hread
    cases x with
    | letter c =>
      obtain rfl := Sign.eq_of_suffix_letter hz hzx
      exact hx ⟨v, hv, d, r, hread⟩
    | block n inner =>
      -- a directive starts with a brace, which no veil holds
      obtain ⟨k, c, body, hs, _⟩ := readDirective_eq_some_iff.1 hread
      exact absurd hs (hv.append_ne_cons (by decide) hz hzx)

namespace Says

variable {h : Signs} {d : Veil → Directive}

/-- A directive without a block inside says the same under all veils. -/
theorem eq_of_letters (hd : Says h d) (hh : ∀ x ∈ h, x.isLetter) (v v' : Veil) : d v = d v' := by
  obtain ⟨k, body, hbody, rfl⟩ := hd
  have hletters : ∀ x ∈ body, x.isLetter := fun x hx => hh x (hbody.subset hx)
  rw [under, under, Signs.veiled_eq_bare hletters, Signs.veiled_eq_bare hletters]

/-- Whether a directive is an include does not depend on the veil. -/
theorem isSome_inclusion? (hd : Says h d) {v v' : Veil} (hv : v.Wordlike) (hv' : v'.Wordlike) :
    (d v).inclusion?.isSome = (d v').inclusion?.isSome := by
  obtain ⟨k, body, _, rfl⟩ := hd
  have hcontract := Attributes.isSome_text?_veiled "contract".toList (by decide) body hv hv'
  cases k with
  | inclusion => simpa [under, inclusion?] using hcontract
  | chunk => rfl
  | continuation => rfl
  | render => rfl

end Says

/-- The stretches of a page in a search for directives. -/
def stretches (g : Signs) : List (Stretch Directive) :=
  Stretch.align (pattern.pieces (g.veiled Veil.bar)) g

/-- The stretches of a page describe the search under every veil. -/
theorem exists_stretches (g : Signs) :
    ∃ ss : List (Stretch (Veil → Directive)), ss.flatMap Stretch.signs = g ∧
      (∀ h d, Stretch.hit h d ∈ ss → Says h d) ∧
      (∀ v : Veil, v.Wordlike → pattern.pieces (g.veiled v) = ss.flatMap (Stretch.pieces v)) ∧
      stretches g = ss.map (Stretch.map fun d => d Veil.bar) := by
  obtain ⟨ss, hss, hhits, hpieces⟩ := pattern.exists_stretches steady g
  refine ⟨ss, hss, hhits, hpieces, ?_⟩
  rw [stretches, hpieces _ Veil.wordlike_bar]
  conv_lhs => rw [← hss]
  exact Stretch.align_pieces ss

end Directive
end PageAssembly
