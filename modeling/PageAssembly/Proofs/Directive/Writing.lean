/-
  PageAssembly/Proofs/Directive/Writing.lean
  ==========================================
  **A directive that is written is found again.**

  To write a directive, put the word of its kind and its attributes between double braces, each
  attribute with a space in front and a text in double quotes.  Whatever the texts hold, apart
  from double quotes and closing braces, the search finds one directive there with these
  attributes in this order (`find_write`).

  The search for attributes passes over the space, reads the name up to the equals sign or the
  next space, and the text up to the closing quote; so it is in front of the next attribute
  when it goes on (`values_write`).
-/
import PageAssembly.Proofs.Directive.Grammar

namespace PageAssembly

/-! ### Maps from their entries -/

namespace OrderedMap

variable {κ ν : Type} [DecidableEq κ]

theorem put_of_not_mem {k : κ} {v : ν} {es : List (κ × ν)} (h : k ∉ es.map Prod.fst) :
    put k v es = es ++ [(k, v)] := by
  induction es with
  | nil => rfl
  | cons e es ih =>
    rw [List.map_cons, List.mem_cons, not_or] at h
    rw [put, if_neg (Ne.symm h.1), ih h.2, List.cons_append]

theorem entries_insertAll {m : OrderedMap κ ν} {es : List (κ × ν)}
    (h : ((m.entries ++ es).map Prod.fst).Nodup) : (m.insertAll es).entries = m.entries ++ es := by
  induction es generalizing m with
  | nil => exact (List.append_nil _).symm
  | cons e es ih =>
    have hfresh : e.1 ∉ m.entries.map Prod.fst := by
      rw [List.map_append, List.nodup_append] at h
      intro hmem
      exact h.2.2 e.1 hmem e.1 List.mem_cons_self rfl
    have hinsert : (m.insert e.1 e.2).entries = m.entries ++ [e] := put_of_not_mem hfresh
    have htail := @ih (m.insert e.1 e.2)
    rw [hinsert, List.append_assoc, List.singleton_append] at htail
    exact htail h

/-- The entries of a map give the map. -/
theorem ofList_entries (m : OrderedMap κ ν) : ofList m.entries = m := by
  have hentries : (ofList m.entries).entries = m.entries := entries_insertAll m.distinct
  cases hlist : ofList m.entries with
  | mk es distinct =>
    rw [hlist] at hentries
    obtain rfl : es = m.entries := hentries
    rfl

end OrderedMap

/-! ### Attributes -/

namespace Attribute

/-- An attribute with a space in front; a text stands in double quotes. -/
def write : Text × AttributeValue → Text
  | (name, .flag) => ' ' :: name
  | (name, .text v) => ' ' :: (name ++ '=' :: '"' :: (v ++ ['"']))

/-- The name is a word, and the value holds nothing that would end it or the directive. -/
structure Writable (e : Text × AttributeValue) : Prop where
  named : e.1 ≠ []
  word : ∀ c ∈ e.1, Text.isWord c = true
  unquoted : ∀ v, e.2 = .text v → '"' ∉ v ∧ '}' ∉ v

theorem readName_append {name r : Text} (hne : name ≠ []) (hword : ∀ c ∈ name, Text.isWord c = true)
    (hr : ∀ c ∈ r.head?, Text.isWord c = false) : readName (name ++ r) = some (name, r) := by
  have hstop : r.takeWhile Text.isWord = [] ∧ r.dropWhile Text.isWord = r := by
    cases r with
    | nil => exact ⟨rfl, rfl⟩
    | cons c r =>
      have hc : ¬Text.isWord c = true := by simp [hr c rfl]
      exact ⟨List.takeWhile_cons_of_neg hc, List.dropWhile_cons_of_neg hc⟩
  rw [readName_eq, List.takeWhile_append_of_pos hword, List.dropWhile_append_of_pos hword, hstop.1,
    hstop.2, List.append_nil, if_neg hne]

theorem readAssigned_quoted {v : Text} (h : '"' ∉ v) (r : Text) :
    readAssigned ('=' :: '"' :: (v ++ '"' :: r)) = some (v, r) := by
  simp only [readAssigned, readValue, readQuoted_append h]
  rfl

/-- The next attribute starts with a space, or there is none. -/
theorem write_flatMap_cases (es : List (Text × AttributeValue)) :
    es.flatMap write = [] ∨ ∃ r, es.flatMap write = ' ' :: r := by
  cases es with
  | nil => exact Or.inl rfl
  | cons e es =>
    obtain ⟨name, value⟩ := e
    cases value with
    | flag => exact Or.inr ⟨_, rfl⟩
    | text v => exact Or.inr ⟨_, rfl⟩

/-- An attribute is read back as it was written, up to the next space. -/
theorem read_write {e : Text × AttributeValue} (he : Writable e) {r : Text}
    (hr : r = [] ∨ ∃ u, r = ' ' :: u) :
    ∃ w, write e = ' ' :: w ∧ readAttribute (w ++ r) = some (e, r) := by
  obtain ⟨name, value⟩ := e
  obtain ⟨hne, hword, hvalue⟩ := he
  cases value with
  | flag =>
    have hstop : ∀ c ∈ r.head?, Text.isWord c = false := by
      rcases hr with rfl | ⟨u, rfl⟩
      · exact nofun
      · rintro c ⟨⟩
        decide
    have hnone : readAssigned r = none := by
      rcases hr with rfl | ⟨u, rfl⟩
      · rfl
      · rfl
    refine ⟨name, rfl, ?_⟩
    rw [readAttribute, readName_append hne hword hstop, Option.map_some, hnone]
  | text v =>
    have hstop : ∀ c ∈ ('=' :: '"' :: (v ++ '"' :: r)).head?, Text.isWord c = false := by
      rintro c ⟨⟩
      decide
    refine ⟨name ++ '=' :: '"' :: (v ++ ['"']), rfl, ?_⟩
    have htext : name ++ '=' :: '"' :: (v ++ ['"']) ++ r =
        name ++ '=' :: '"' :: (v ++ '"' :: r) := by
      simp
    rw [htext, readAttribute, readName_append hne hword hstop, Option.map_some,
      readAssigned_quoted (hvalue v rfl).1]

theorem values_write {es : List (Text × AttributeValue)} (h : ∀ e ∈ es, Writable e) :
    Pattern.values (pattern.pieces (es.flatMap write)) = es := by
  induction es with
  | nil => rfl
  | cons e es ih =>
    obtain ⟨he, hes⟩ := List.forall_mem_cons.1 h
    obtain ⟨w, hw, hread⟩ := read_write he (write_flatMap_cases es)
    have hspace : pattern.read (' ' :: (w ++ es.flatMap write)) = none :=
      readAttribute_eq_none (c := ' ') (by decide) (w ++ es.flatMap write)
    rw [List.flatMap_cons, hw, List.cons_append, pattern.pieces_cons_none hspace,
      pattern.pieces_append hread]
    exact congrArg (e :: ·) (ih hes)

theorem brace_not_mem_write {e : Text × AttributeValue} (he : Writable e) : '}' ∉ write e := by
  obtain ⟨name, value⟩ := e
  obtain ⟨-, hword, hvalue⟩ := he
  have hname : '}' ∉ name := fun hmem => absurd (hword _ hmem) (by decide)
  cases value with
  | flag => simp [write, hname]
  | text v => simp [write, hname, (hvalue v rfl).2]

end Attribute

theorem Attributes.ofText_write {m : Attributes} (h : ∀ e ∈ m.entries, Attribute.Writable e) :
    ofText (m.entries.flatMap Attribute.write) = m := by
  rw [ofText, Pattern.find, Pattern.map_value_locate, Attribute.values_write h]
  exact OrderedMap.ofList_entries m

/-! ### Directives -/

namespace Directive

/-- A directive in double braces. -/
def write (d : Directive) : Text :=
  opening ++ d.kind.word ++ d.attributes.entries.flatMap Attribute.write ++ closing

/-- What is written is written by the grammar, with the attributes behind the first space. -/
theorem written_write {d : Directive} (hne : d.attributes.entries ≠ [])
    (h : ∀ e ∈ d.attributes.entries, Attribute.Writable e) :
    ∃ body, Written d.kind body d.write ∧ Attributes.ofText body = d.attributes := by
  obtain ⟨e, es, hes⟩ := List.exists_cons_of_ne_nil hne
  have he : Attribute.Writable e := h e (hes ▸ List.mem_cons_self)
  obtain ⟨w, hw, hread⟩ := Attribute.read_write he (Attribute.write_flatMap_cases es)
  have hbody : d.attributes.entries.flatMap Attribute.write =
      [' '] ++ (w ++ es.flatMap Attribute.write) := by
    rw [hes, List.flatMap_cons, hw]
    rfl
  have hspace : ∀ c ∈ [' '], Text.isBlank c = true := by decide
  refine ⟨w ++ es.flatMap Attribute.write, ?_, ?_⟩
  · have hnonempty : w ++ es.flatMap Attribute.write ≠ [] := by
      intro hnil
      rw [hnil] at hread
      cases hread
    have hunclosed : '}' ∉ w ++ es.flatMap Attribute.write := by
      intro hmem
      have hmem : '}' ∈ d.attributes.entries.flatMap Attribute.write :=
        hbody ▸ List.mem_append_right [' '] hmem
      obtain ⟨f, hf, hbrace⟩ := List.mem_flatMap.1 hmem
      exact Attribute.brace_not_mem_write (h f hf) hbrace
    have hwritten : Written d.kind _ _ := Written.intro [' '] (by simp) hspace hnonempty hunclosed
    rwa [List.append_assoc (opening ++ d.kind.word), ← hbody] at hwritten
  · rw [← Attributes.ofText_blanks hspace, ← hbody]
    exact Attributes.ofText_write h

/-- A directive between texts without opening braces is all that is found. -/
theorem Written.find_alone {k : Kind} {body w a b : Text} (h : Written k body w) (ha : '{' ∉ a)
    (hb : '{' ∉ b) :
    find (a ++ w ++ b) = [⟨a.length, a.length + w.length, w, ⟨k, Attributes.ofText body⟩⟩] := by
  rw [find, Pattern.find, List.append_assoc, Pattern.pieces_append_of_not_mem read_eq_none ha,
    pattern.pieces_append (h.read b), Pattern.pieces_of_not_mem read_eq_none hb,
    Pattern.locate_plain, Nat.zero_add, Pattern.locate, Pattern.locate_letters]

/-- A directive that is written between texts without opening braces is the one directive that
    is found there, at its place and with its attributes in their order. -/
theorem find_write {d : Directive} {a b : Text} (hne : d.attributes.entries ≠ [])
    (h : ∀ e ∈ d.attributes.entries, Attribute.Writable e) (ha : '{' ∉ a) (hb : '{' ∉ b) :
    find (a ++ d.write ++ b) = [⟨a.length, a.length + d.write.length, d.write, d⟩] := by
  obtain ⟨body, hbody, hattributes⟩ := written_write hne h
  rw [hbody.find_alone ha hb, hattributes]

/-- A text with a quote of the other kind, an equals sign, opening braces and a line break; an
    empty text; and a flag. -/
def titled : Directive where
  kind := .inclusion
  attributes := ⟨[("contract".toList, .text "it's a=b \x7b\x7bchunk\n x=".toList),
    ("note".toList, .text []), ("open".toList, .flag)], by decide⟩

theorem find_write_titled :
    titled.attributes.entries ≠ [] ∧ '{' ∉ "a \x7d b ".toList ∧ '{' ∉ "\x7d\x7dc=\"d\"".toList ∧
      find ("a \x7d b ".toList ++ titled.write ++ "\x7d\x7dc=\"d\"".toList) =
        [⟨6, 6 + titled.write.length, titled.write, titled⟩] := by
  have hfront : '{' ∉ "a \x7d b ".toList := by decide
  have hback : '{' ∉ "\x7d\x7dc=\"d\"".toList := by decide
  have hwritable : ∀ e ∈ titled.attributes.entries, Attribute.Writable e := by
    rw [titled, List.forall_mem_cons, List.forall_mem_cons, List.forall_mem_singleton]
    refine ⟨⟨by decide, by decide, ?_⟩, ⟨by decide, by decide, ?_⟩, ⟨by decide, by decide, ?_⟩⟩
    · rintro v ⟨⟩
      decide
    · rintro v ⟨⟩
      decide
    · exact nofun
  exact ⟨by decide, hfront, hback, find_write (by decide) hwritable hfront hback⟩

end Directive
end PageAssembly
