/-
  PageAssembly/Proofs/Alias/References.lean
  =========================================
  **References lead to the entries of the table.**

  A reference with one at sign, or without one, is looked up under one name by every way of looking
  it up (`exists_name`).  So it is known to the table exactly if resolving it gives the id of an
  entry, whatever the ids are (`Answered`).

  Inside a value, a reference ends where no word character follows.  So a name that is a word is
  replaced as a whole, and it stands for the same id there (`substitute_name`).  Names that are given
  behind equals signs are words; only an object can give others.
-/
import PageAssembly.Alias.Lookup
import PageAssembly.Proofs.Alias.Grammar
import PageAssembly.Proofs.Directive.Writing

namespace PageAssembly

namespace OrderedMap

variable {κ μ ν : Type} [DecidableEq κ]

theorem get?_mapEntries (m : OrderedMap κ ν) (f : κ → ν → μ) (k : κ) :
    (m.mapEntries f).get? k = (m.get? k).map (f k) := by
  have hentries : ∀ es : List (κ × ν),
      at? k (es.map fun e => (e.1, f e.1 e.2)) = (at? k es).map (f k) := by
    intro es
    induction es with
    | nil => rfl
    | cons e es ih =>
      by_cases h : e.1 = k
      · subst h
        simp [at?]
      · simp [at?, h, ih]
  exact hentries m.entries

theorem contains_iff {m : OrderedMap κ ν} {k : κ} :
    m.contains k = true ↔ ∃ v, (k, v) ∈ m.entries := by
  rw [contains, Option.isSome_iff_exists]
  exact exists_congr fun v => get?_eq_some_iff

end OrderedMap

namespace Alias

/-! ### Names behind equals signs -/

theorem isName_of_readName {s name r : Text} (h : Attribute.readName s = some (name, r)) :
    IsName name := by
  refine ⟨(Attribute.nonempty_of_readName h).1, ?_⟩
  rw [Attribute.readName_eq] at h
  split at h
  · cases h
  · cases h
    exact fun _ => List.mem_takeWhile_imp

/-- A body that is no object gives words as names. -/
theorem isName_of_definitions {body : Text} (h : body.head? ≠ some '{') {e : Text × Text}
    (he : e ∈ (definitions body).entries) : IsName e.1 := by
  have hassigned : e ∈ (OrderedMap.ofList
      ((Attribute.assignments.find body).map Located.value)).entries := by
    unfold definitions at he
    split at he
    · exact absurd rfl h
    · exact he
  rcases OrderedMap.mem_entries_insertAll hassigned with hfound | hempty
  · obtain ⟨m, hm, rfl⟩ := List.mem_map.1 hfound
    obtain ⟨r, hread⟩ := Pattern.read_of_hit (Pattern.hit_of_mem_locate hm)
    simp only [Attribute.assignments, Attribute.readAssignment, Option.bind_eq_bind,
      Option.bind_eq_some_iff, Option.pure_def, Option.some.injEq, Prod.mk.injEq] at hread
    obtain ⟨⟨name, t⟩, hname, ⟨v, u⟩, -, hvalue, -⟩ := hread
    rw [← hvalue]
    exact isName_of_readName hname
  · cases hempty

/-- A directive without a brace of its own has a body that is no object. -/
theorem exists_body {w r : Text} {a : Aliases} (h : readDirective (w ++ r) = some (a, r))
    (hbrace : '{' ∉ w.drop 2) : ∃ body, a = definitions body ∧ body.head? ≠ some '{' := by
  have hbody : ∃ body, a = definitions body ∧ ∀ c ∈ body, c ∈ w.drop 2 := by
    rcases exists_written h with ⟨body, hform, rfl⟩ | ⟨span, hform, rfl, -⟩
    · cases hform with
      | @intro head lead inner trail head_form =>
        obtain ⟨rest, -, -, rfl⟩ := head_form.exists_rest
        exact ⟨body, rfl, fun c hc => by simp [hc]⟩
    · cases hform with
      | @intro head head_form =>
        obtain ⟨rest, -, -, rfl⟩ := head_form.exists_rest
        refine ⟨Text.trim span, rfl, fun c hc => ?_⟩
        have hspan : c ∈ span := Text.mem_of_mem_trim hc
        simp [hspan]
  obtain ⟨body, rfl, hall⟩ := hbody
  exact ⟨body, rfl, fun hhead => hbrace (hall _ (List.mem_of_head? hhead))⟩

/-- Where no directive has a brace of its own, all names that a page defines are words. -/
theorem isName_of_defined {s : Text} (h : ∀ m ∈ find s, '{' ∉ m.source.drop 2) {e : Text × Text}
    (he : e ∈ (defined s).entries) : IsName e.1 := by
  have hfold : ∀ (ms : List (Located Aliases)) (t : Aliases),
      e ∈ (ms.foldl (fun t m => t.insertAll m.value.entries) t).entries →
        e ∈ t.entries ∨ ∃ m ∈ ms, e ∈ m.value.entries := by
    intro ms
    induction ms with
    | nil => exact fun t he => Or.inl he
    | cons m ms ih =>
      intro t he
      rcases ih _ he with hm | ⟨m', hm', hvalue⟩
      · rcases OrderedMap.mem_entries_insertAll hm with hvalue | ht
        · exact Or.inr ⟨m, List.mem_cons_self, hvalue⟩
        · exact Or.inl ht
      · exact Or.inr ⟨m', List.mem_cons_of_mem m hm', hvalue⟩
  rcases hfold (find s) OrderedMap.empty he with hempty | ⟨m, hm, hvalue⟩
  · cases hempty
  · obtain ⟨r, hread⟩ :=
      Pattern.read_of_hit (Pattern.hit_of_mem_locate (List.mem_of_mem_filter hm))
    obtain ⟨body, hbody, hhead⟩ := exists_body hread (h m hm)
    exact isName_of_definitions hhead (hbody ▸ hvalue)

end Alias

namespace Aliases

variable {t : Aliases}

/-! ### Looking a reference up -/

/-- Resolving the reference gives the id of an entry of the table, and it does so whatever ids the
    names of the table stand for. -/
def Answered (t : Aliases) (reference : Text) : Prop :=
  ∃ e ∈ t.entries, ∀ f : Text → Text → Text, resolve (t.mapEntries f) reference = f e.1 e.2

/-- With at most one at sign in front, a reference is looked up under one name. -/
theorem exists_name {reference : Text} (h : ¬ ['@', '@'] <+: reference) :
    ∃ name, ∀ t : Aliases, t.knows reference = t.contains name ∧
      resolve t reference = (t.get? name).getD reference := by
  cases reference with
  | nil => exact ⟨[], fun t => ⟨rfl, rfl⟩⟩
  | cons c s =>
    by_cases hc : c = '@'
    · subst hc
      have hs : s.dropWhile (· == '@') = s := by
        cases s with
        | nil => rfl
        | cons d s =>
          apply List.dropWhile_cons_of_neg
          rw [beq_iff_eq]
          rintro rfl
          exact h ⟨s, rfl⟩
      refine ⟨s, fun t => ⟨?_, rfl⟩⟩
      rw [knows, List.dropWhile_cons_of_pos (by decide), hs]
    · refine ⟨c :: s, fun t => ⟨?_, ?_⟩⟩
      · rw [knows, List.dropWhile_cons_of_neg (by simpa using hc)]
      · unfold resolve
        split
        · next heq => exact absurd (List.cons.inj heq).1 hc
        · rfl

/-- A reference is known exactly if it is answered from the table. -/
theorem knows_iff_answered {reference : Text} (h : ¬ ['@', '@'] <+: reference) :
    t.knows reference = true ↔ Answered t reference := by
  obtain ⟨name, hname⟩ := exists_name h
  rw [(hname t).1]
  constructor
  · intro hcontains
    obtain ⟨id, hid⟩ := OrderedMap.contains_iff.1 hcontains
    refine ⟨(name, id), hid, fun f => ?_⟩
    rw [(hname _).2, OrderedMap.get?_mapEntries, OrderedMap.get?_eq_some_iff.2 hid]
    rfl
  · rintro ⟨e, -, hall⟩
    apply Decidable.byContradiction
    intro hcontains
    have hnone : t.get? name = none := by simpa [OrderedMap.contains] using hcontains
    -- an unknown reference stands for itself, and so does not follow the ids
    have hself : ∀ f : Text → Text → Text, reference = f e.1 e.2 := by
      intro f
      have hf := hall f
      rwa [(hname _).2, OrderedMap.get?_mapEntries, hnone] at hf
    have hlonger : reference = '@' :: reference := hself fun _ _ => '@' :: reference
    exact absurd (congrArg List.length hlonger) (by simp)

/-! ### References inside a value -/

/-- A value that is a reference to a word is replaced as a whole. -/
theorem substitute_name {name : Text} (h : Alias.IsName name) :
    t.substitute ('@' :: name) = (t.get? name).getD ('@' :: name) := by
  have hname : Attribute.readName name = some (name, []) := by
    have hall := Attribute.readName_append h.1 h.2 (r := []) nofun
    rwa [List.append_nil] at hall
  have hread : Alias.reference.read ('@' :: name ++ []) = some (name, []) := by
    rw [List.append_nil]
    exact hname
  have hpieces := Alias.reference.pieces_append hread
  rw [List.append_nil, Pattern.pieces_nil] at hpieces
  rw [substitute, Pattern.substitute, hpieces, List.flatMap_singleton]

/-- All ways of looking up a name of the table give its id.  Inside a value this needs the name to be
    a word; so are the names of a page whose directives hold no object.  A reference with at most
    one at sign in front is known exactly if it is answered from the table. -/
theorem lookups_agree (t : Aliases) :
    (∀ e ∈ t.entries, resolve t ('@' :: e.1) = e.2 ∧
      (Alias.IsName e.1 → t.substitute ('@' :: e.1) = e.2)) ∧
    (∀ s, (∀ m ∈ Alias.find s, '{' ∉ m.source.drop 2) →
      ∀ e ∈ (Alias.defined s).entries, Alias.IsName e.1) ∧
    ∀ reference, ¬ ['@', '@'] <+: reference →
      (t.knows reference = true ↔ Answered t reference) := by
  refine ⟨fun e he => ?_, fun s h e he => Alias.isName_of_defined h he,
    fun reference h => knows_iff_answered h⟩
  have hid : t.get? e.1 = some e.2 := OrderedMap.get?_eq_some_iff.2 he
  refine ⟨?_, fun hname => ?_⟩
  · rw [resolve, hid, Option.getD_some]
  · rw [substitute_name hname, hid, Option.getD_some]

/-- A page that gives an id to a name with a hyphen. -/
def hyphenated : Text := "\x7b\x7baliases \x7b\"a-b\": \"X\"\x7d\x7d\x7d".toList

theorem substitute_hyphenated : (Alias.defined hyphenated).entries = [("a-b".toList, "X".toList)] ∧
    resolve (Alias.defined hyphenated) "@a-b".toList = "X".toList ∧
    substitute (Alias.defined hyphenated) "@a-b".toList = "@a-b".toList := by
  decide +kernel

end Aliases
end PageAssembly
