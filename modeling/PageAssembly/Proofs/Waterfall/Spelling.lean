/-
  PageAssembly/Proofs/Waterfall/Spelling.lean
  ===========================================
  **How the attributes of a placeholder are spelled does not matter.**

  Attributes of a division are found by repeated search, so what stands next to one could be read
  as a part of it.  A spelled attribute has a name, alone or with a value in one of three forms,
  blanks around the equals sign, and blanks in front (`Spelled`).  However they are spelled and
  whatever their order, the search finds exactly the names that have a value, each with its own
  (`values_write`): in a name without a value no attribute starts, since no equals sign follows it.

  Main statement: `division_spelled`.  A division with these attributes and blank content is a
  placeholder if its type is that of render directives and its path is not empty.
-/
import PageAssembly.Proofs.Directive.Writing
import PageAssembly.Proofs.Waterfall.Decoding

namespace PageAssembly

open Pattern

/-- A list of entries with distinct names is the list of entries of its map. -/
theorem OrderedMap.get?_ofList {κ ν : Type} [DecidableEq κ] {es : List (κ × ν)}
    (h : (es.map Prod.fst).Nodup) {k : κ} {v : ν} : (ofList es).get? k = some v ↔ (k, v) ∈ es := by
  have hentries : (ofList es).entries = es := entries_insertAll h
  rw [get?_eq_some_iff, hentries]

namespace Waterfall

/-! ### Spelled attributes -/

/-- The three forms of a value. -/
inductive Quoting where
  | double
  | single
  | bare
deriving DecidableEq, Repr

namespace Quoting

/-- Whether the value can be written in this form. -/
def Allows : Quoting → Text → Prop
  | .double, v => '"' ∉ v
  | .single, v => '\'' ∉ v
  | .bare, v => v ≠ [] ∧ ∀ c ∈ v, isBareChar c = true

instance : (q : Quoting) → (v : Text) → Decidable (q.Allows v)
  | .double, v => inferInstanceAs (Decidable ('"' ∉ v))
  | .single, v => inferInstanceAs (Decidable ('\'' ∉ v))
  | .bare, v => inferInstanceAs (Decidable (v ≠ [] ∧ ∀ c ∈ v, isBareChar c = true))

def write : Quoting → Text → Text
  | .double, v => '"' :: (v ++ ['"'])
  | .single, v => '\'' :: (v ++ ['\''])
  | .bare, v => v

end Quoting

/-- Text of blank characters only. -/
def Blank (s : Text) : Prop := ∀ c ∈ s, Text.isBlank c = true

instance (s : Text) : Decidable (Blank s) := List.decidableBAll _ s

/-- A value as it is spelled: the blanks in front of the equals sign and behind it, and the form. -/
structure Assigned where
  before : Text
  after : Text
  quoting : Quoting
  value : Text
  blank_before : Blank before
  blank_after : Blank after
  allowed : quoting.Allows value
  bracketless : '>' ∉ value

def Assigned.write (a : Assigned) : Text :=
  a.before ++ '=' :: (a.after ++ a.quoting.write a.value)

/-- An attribute as it is spelled: the blanks in front of it, its name, and its value if it has
    one. -/
structure Spelled where
  gap : Text
  name : Text
  assigned : Option Assigned
  gap_ne_nil : gap ≠ []
  blank_gap : Blank gap
  name_ne_nil : name ≠ []
  name_chars : ∀ c ∈ name, isFieldChar c = true

namespace Spelled

def write (f : Spelled) : Text := f.gap ++ (f.name ++ f.assigned.elim [] Assigned.write)

/-- The name in lower case. -/
def lowerName (f : Spelled) : Text := f.name.map Char.toLower

/-- The name with its value, if the attribute has one. -/
def pair? (f : Spelled) : Option (Text × Text) := f.assigned.map fun a => (f.lowerName, a.value)

end Spelled

/-- Whether one of the attributes has the name, in any letter case, and the value. -/
def Gives (fs : List Spelled) (name value : Text) : Prop :=
  ∃ f ∈ fs, f.lowerName = name ∧ ∃ a, f.assigned = some a ∧ a.value = value

/-- A division with these attributes, `tail` behind them, and `content` inside. -/
def divisionOf (fs : List Spelled) (tail content : Text) : Text :=
  "<div".toList ++ (fs.flatMap Spelled.write ++ tail) ++ '>' :: (content ++ "</div>".toList)

/-! ### What stands next to an attribute -/

/-- Nothing follows, or a blank. -/
def Ended (r : Text) : Prop := ∀ c ∈ r.head?, Text.isBlank c = true

theorem isFieldChar_of_isBlank {c : Char} (h : Text.isBlank c = true) : isFieldChar c = false := by
  rw [isFieldChar, Text.isWord_of_isBlank h, Bool.false_or, ← Bool.not_eq_true, beq_iff_eq]
  rintro rfl
  exact absurd h (by decide)

theorem isBareChar_of_isBlank {c : Char} (h : Text.isBlank c = true) : isBareChar c = false := by
  rw [isBareChar, h]
  rfl

theorem Blank.trimStart_append {s : Text} (h : Blank s) (r : Text) :
    Text.trimStart (s ++ r) = Text.trimStart r := by
  rw [Text.trimStart, List.dropWhile_append_of_pos h]
  rfl

theorem Blank.ended {s : Text} (h : Blank s) : Ended s := fun _ hc => h _ (List.mem_of_mem_head? hc)

/-- A run of characters ends in front of one that does not belong to it. -/
theorem run_append {p : Char → Bool} {w r : Text} (hw : ∀ c ∈ w, p c = true)
    (hr : ∀ c ∈ r.head?, p c = false) :
    (w ++ r).takeWhile p = w ∧ (w ++ r).dropWhile p = r := by
  rw [List.takeWhile_append_of_pos hw, List.dropWhile_append_of_pos hw]
  cases r with
  | nil => exact ⟨List.append_nil w, rfl⟩
  | cons c r =>
    have hc : ¬ p c = true := by
      rw [hr c rfl]
      exact Bool.false_ne_true
    rw [List.takeWhile_cons_of_neg hc, List.dropWhile_cons_of_neg hc]
    exact ⟨List.append_nil w, rfl⟩

/-! ### Reading what was spelled -/

/-- A value is read back in each of its forms. -/
theorem Quoting.read_write {q : Quoting} {v r : Text} (h : q.Allows v) (hr : Ended r) :
    (Attribute.readQuoted '"' (q.write v ++ r) <|> Attribute.readQuoted '\'' (q.write v ++ r) <|>
      readBare (q.write v ++ r)) = some (v, r) := by
  cases q with
  | double =>
    have hread := Attribute.readQuoted_append (show '"' ∉ v from h) r
    rw [write, List.cons_append, List.append_assoc, List.singleton_append, hread]
    rfl
  | single =>
    have hread := Attribute.readQuoted_append (show '\'' ∉ v from h) r
    rw [write, List.cons_append, List.append_assoc, List.singleton_append,
      Attribute.readQuoted_of_ne (by decide), hread]
    rfl
  | bare =>
    obtain ⟨hne, hall⟩ := h
    obtain ⟨c, v, rfl⟩ := List.exists_cons_of_ne_nil hne
    have hc : isBareChar c = true := hall c List.mem_cons_self
    have hdouble : c ≠ '"' := by
      rintro rfl
      exact absurd hc (by decide)
    have hsingle : c ≠ '\'' := by
      rintro rfl
      exact absurd hc (by decide)
    have hrun := run_append hall fun d hd => isBareChar_of_isBlank (hr d hd)
    have hbare : readBare (c :: v ++ r) = some (c :: v, r) := by rw [readBare, hrun.1, hrun.2]
    rw [write, List.cons_append, Attribute.readQuoted_of_ne hdouble, Attribute.readQuoted_of_ne hsingle,
      ← List.cons_append, hbare]
    rfl

/-- A value does not start with a blank. -/
theorem Quoting.trimStart_write {q : Quoting} {v : Text} (h : q.Allows v) (r : Text) :
    Text.trimStart (q.write v ++ r) = q.write v ++ r := by
  cases q with
  | double => rfl
  | single => rfl
  | bare =>
    obtain ⟨hne, hall⟩ := h
    obtain ⟨c, v, rfl⟩ := List.exists_cons_of_ne_nil hne
    have hc : ¬ Text.isBlank c = true := by
      intro hblank
      have hbare := hall c List.mem_cons_self
      rw [isBareChar_of_isBlank hblank] at hbare
      cases hbare
    rw [write, List.cons_append, Text.trimStart, List.dropWhile_cons_of_neg hc]

/-- A value is read back behind its equals sign. -/
theorem readFieldValue_write (a : Assigned) {r : Text} (hr : Ended r) :
    readFieldValue (a.write ++ r) = some (a.value, r) := by
  have hsplit : a.write ++ r = a.before ++ '=' :: (a.after ++ (a.quoting.write a.value ++ r)) := by
    simp [Assigned.write]
  have hequals : Text.trimStart (a.write ++ r) =
      '=' :: (a.after ++ (a.quoting.write a.value ++ r)) := by
    rw [hsplit, a.blank_before.trimStart_append]
    rfl
  have hvalue : Text.trimStart (a.after ++ (a.quoting.write a.value ++ r)) =
      a.quoting.write a.value ++ r := by
    rw [a.blank_after.trimStart_append, Quoting.trimStart_write a.allowed]
  simp only [readFieldValue, hequals, hvalue]
  exact Quoting.read_write a.allowed hr

/-- What stands behind the attributes: more of them, and blanks. -/
theorem ended_write (fs : List Spelled) {tail : Text} (htail : Blank tail) :
    Ended (fs.flatMap Spelled.write ++ tail) := by
  cases fs with
  | nil => exact htail.ended
  | cons f fs =>
    obtain ⟨c, gap, hgap⟩ := List.exists_cons_of_ne_nil f.gap_ne_nil
    rintro d hd
    rw [List.flatMap_cons, Spelled.write, hgap] at hd
    obtain rfl : c = d := Option.some.inj hd
    exact f.blank_gap c (hgap ▸ List.mem_cons_self)

/-- No equals sign comes next behind the blanks. -/
theorem readFieldValue_none (fs : List Spelled) {tail : Text} (htail : Blank tail) :
    readFieldValue (fs.flatMap Spelled.write ++ tail) = none := by
  cases fs with
  | nil =>
    have hnil : Text.trimStart tail = [] := by
      have hall := htail.trimStart_append []
      rwa [List.append_nil] at hall
    rw [List.flatMap_nil, List.nil_append, readFieldValue, hnil]
  | cons f fs =>
    obtain ⟨c, name, hname⟩ := List.exists_cons_of_ne_nil f.name_ne_nil
    have hc : isFieldChar c = true := f.name_chars c (hname ▸ List.mem_cons_self)
    have hblank : ¬ Text.isBlank c = true := by
      intro h
      rw [isFieldChar_of_isBlank h] at hc
      cases hc
    have hequals : c ≠ '=' := by
      rintro rfl
      exact absurd hc (by decide +kernel)
    have htrim : ∃ r, Text.trimStart ((f :: fs).flatMap Spelled.write ++ tail) = c :: r := by
      rw [List.flatMap_cons, Spelled.write, List.append_assoc, List.append_assoc,
        f.blank_gap.trimStart_append, hname]
      exact ⟨_, by rw [List.cons_append, List.cons_append, Text.trimStart,
        List.dropWhile_cons_of_neg hblank]⟩
    obtain ⟨r, hr⟩ := htrim
    rw [readFieldValue, hr]
    split
    · next h => exact absurd (List.cons.inj h).1 hequals
    · rfl

/-- No attribute starts at a blank. -/
theorem pieces_blank {s : Text} (h : Blank s) (r : Text) :
    field.pieces (s ++ r) = s.map Piece.plain ++ field.pieces r := by
  refine field.pieces_append_of_none fun z hne hz => ?_
  obtain ⟨c, z, rfl⟩ := List.exists_cons_of_ne_nil hne
  have hc : ¬ isFieldChar c = true := by
    rw [isFieldChar_of_isBlank (h c (hz.subset List.mem_cons_self))]
    exact Bool.false_ne_true
  rw [read_field, readField, List.cons_append, List.takeWhile_cons_of_neg hc]

/-- Neither a blank nor an equals sign belongs to a name. -/
theorem head_write (a : Assigned) (r : Text) : ∀ c ∈ (a.write ++ r).head?, isFieldChar c = false := by
  rw [Assigned.write]
  cases hbefore : a.before with
  | nil =>
    rintro c ⟨⟩
    decide +kernel
  | cons d before =>
    rintro c ⟨⟩
    exact isFieldChar_of_isBlank (a.blank_before d (hbefore ▸ List.mem_cons_self))

/-- An attribute with a value is read whole. -/
theorem readField_write (f : Spelled) {a : Assigned} {r : Text} (hr : Ended r) :
    readField (f.name ++ (a.write ++ r)) = some ((f.lowerName, a.value), r) := by
  obtain ⟨hname, hrest⟩ := run_append f.name_chars (head_write a r)
  rw [readField, hname, hrest, readFieldValue_write a hr, Spelled.lowerName]
  obtain ⟨c, name, hcons⟩ := List.exists_cons_of_ne_nil f.name_ne_nil
  rw [hcons]
  rfl

/-- In a name without a value no attribute starts. -/
theorem pieces_name (f : Spelled) {r : Text} (hr : Ended r) (hnone : readFieldValue r = none) :
    field.pieces (f.name ++ r) = f.name.map Piece.plain ++ field.pieces r := by
  refine field.pieces_append_of_none fun z hne hz => ?_
  obtain ⟨hname, hrest⟩ := run_append (fun c hc => f.name_chars c (hz.subset hc))
    fun c hc => isFieldChar_of_isBlank (hr c hc)
  obtain ⟨c, z, rfl⟩ := List.exists_cons_of_ne_nil hne
  simp only [read_field, readField, hname, hrest, hnone, Option.map_none]

/-- The search finds the names that have a value, with their values. -/
theorem values_write (fs : List Spelled) {tail : Text} (htail : Blank tail) :
    values (field.pieces (fs.flatMap Spelled.write ++ tail)) = fs.filterMap Spelled.pair? := by
  induction fs with
  | nil =>
    have hall := pieces_blank htail []
    rw [List.append_nil, pieces_nil, List.append_nil] at hall
    rw [List.flatMap_nil, List.nil_append, hall, values_plain]
    rfl
  | cons f fs ih =>
    let r := fs.flatMap Spelled.write ++ tail
    have hr : Ended r := ended_write fs htail
    have hsplit : (f :: fs).flatMap Spelled.write ++ tail =
        f.gap ++ (f.name ++ (f.assigned.elim [] Assigned.write ++ r)) := by
      simp [Spelled.write, r]
    rw [hsplit, pieces_blank f.blank_gap, values_append, values_plain, List.nil_append]
    cases hassigned : f.assigned with
    | none =>
      have hpair : f.pair? = none := by rw [Spelled.pair?, hassigned, Option.map_none]
      rw [Option.elim_none, List.nil_append, pieces_name f hr (readFieldValue_none fs htail),
        values_append, values_plain, List.nil_append, ih, List.filterMap_cons_none hpair]
    | some a =>
      have hpair : f.pair? = some (f.lowerName, a.value) := by
        rw [Spelled.pair?, hassigned, Option.map_some]
      have hread : field.read ((f.name ++ a.write) ++ r) = some ((f.lowerName, a.value), r) := by
        rw [List.append_assoc]
        exact readField_write f hr
      rw [Option.elim_some, ← List.append_assoc, pieces_append field hread, values_hit, ih,
        List.filterMap_cons_some hpair]

/-! ### The path of a division -/

/-- The attributes in which the search looks for type and path. -/
theorem get?_fields {fs : List Spelled} (hnames : (fs.map Spelled.lowerName).Nodup) {tail : Text}
    (htail : Blank tail) {name value : Text} :
    (fields (fs.flatMap Spelled.write ++ tail)).get? name = some value ↔ Gives fs name value := by
  have hdistinct : ((fs.filterMap Spelled.pair?).map Prod.fst).Nodup := by
    refine hnames.sublist ?_
    induction fs with
    | nil => exact List.Sublist.refl []
    | cons f fs ih =>
      have htailNames := ih (List.nodup_cons.1 hnames).2
      cases hassigned : f.assigned with
      | none =>
        rw [List.filterMap_cons_none (by rw [Spelled.pair?, hassigned, Option.map_none])]
        exact htailNames.cons f.lowerName
      | some a =>
        rw [List.filterMap_cons_some (b := (f.lowerName, a.value))
          (by rw [Spelled.pair?, hassigned, Option.map_some])]
        exact htailNames.cons_cons f.lowerName
  rw [fields, find, map_value_locate, values_write fs htail, OrderedMap.get?_ofList hdistinct,
    List.mem_filterMap, Gives]
  refine exists_congr fun f => and_congr_right fun _ => ?_
  rw [Spelled.pair?, Option.map_eq_some_iff]
  constructor
  · rintro ⟨a, ha, ⟨⟩⟩
    exact ⟨rfl, a, ha, rfl⟩
  · rintro ⟨rfl, a, ha, rfl⟩
    exact ⟨a, ha, rfl⟩

/-- A path is asked for by the type of render directives and a path that is not empty. -/
theorem pathOf?_eq_some {s path : Text} :
    pathOf? s = some path ↔ (fields s).get? "data-type".toList = some "render".toList ∧
      ∃ v, v ≠ [] ∧ (fields s).get? "data-path".toList = some v ∧ path = Markup.unescape v := by
  rw [pathOf?]
  split
  · next htype =>
    rw [and_iff_right htype]
    cases hpath : (fields s).get? "data-path".toList with
    | none => simp
    | some v =>
      cases v with
      | nil => simp
      | cons c v => simp [eq_comm]
  · next htype =>
    constructor
    · intro hnone
      cases hnone
    · intro h
      exact absurd h.1 htype

/-- No closing bracket stands in the attributes. -/
theorem bracket_not_mem_write (fs : List Spelled) {tail : Text} (htail : Blank tail) :
    '>' ∉ fs.flatMap Spelled.write ++ tail := by
  have hblank : ∀ {s : Text}, Blank s → '>' ∉ s := fun hs hmem => absurd (hs '>' hmem) (by decide)
  have hquoting : ∀ {q : Quoting} {v : Text}, '>' ∉ v → '>' ∉ q.write v := by
    intro q v hv
    cases q <;> simp [Quoting.write, hv]
  have hassigned : ∀ a : Assigned, '>' ∉ a.write := by
    intro a
    simp [Assigned.write, hblank a.blank_before, hblank a.blank_after, hquoting a.bracketless]
  rw [List.mem_append, not_or, List.mem_flatMap]
  refine ⟨?_, hblank htail⟩
  rintro ⟨f, -, hf⟩
  rw [Spelled.write, List.mem_append, List.mem_append] at hf
  rcases hf with hf | hf | hf
  · exact hblank f.blank_gap hf
  · exact absurd (f.name_chars '>' hf) (by decide +kernel)
  · cases hcase : f.assigned with
    | none =>
      rw [hcase] at hf
      cases hf
    | some a =>
      rw [hcase] at hf
      exact hassigned a hf

/-- A division with these attributes and blank content is read whole. -/
theorem readDivision_spelled (fs : List Spelled) {tail content : Text} (htail : Blank tail)
    (hcontent : Blank content) (r : Text) :
    readDivision (divisionOf fs tail content ++ r) =
      some (pathOf? (fs.flatMap Spelled.write ++ tail), r) := by
  have hsplit : divisionOf fs tail content ++ r = "<div".toList ++
      ((fs.flatMap Spelled.write ++ tail) ++ '>' :: (content ++ ("</div>".toList ++ r))) := by
    unfold divisionOf
    simp only [List.append_assoc, List.cons_append]
  rw [hsplit]
  refine readDivision_tag (bracket_not_mem_write fs htail) (fun c hc => ?_) hcontent r
  exact Text.isWord_of_isBlank (ended_write fs htail c hc)

/-- However the attributes of a division with blank content are spelled, and in any order: behind
    text in which no placeholder starts it is found as a placeholder if the type is that of render
    directives and the path is not empty.  It gives this path, read as markup, and filling the path
    replaces the division and nothing else in front of what follows. -/
theorem division_spelled {fs : List Spelled} (hnames : (fs.map Spelled.lowerName).Nodup)
    {tail content : Text} (htail : Blank tail) (hcontent : Blank content) {a : Text}
    (ha : Passes Set.univ a) (b : Text) :
    ∃ o : Option Text,
      (∀ path, o = some path ↔ Gives fs "data-type".toList "render".toList ∧
        ∃ v, v ≠ [] ∧ Gives fs "data-path".toList v ∧ path = Markup.unescape v) ∧
      paths (a ++ (divisionOf fs tail content ++ b)) = o.toList ++ paths b ∧
      ∀ path filling, fill path filling (a ++ (divisionOf fs tail content ++ b)) =
        a ++ ((if o = some path then filling else divisionOf fs tail content) ++
          fill path filling b) := by
  have hread := readDivision_spelled fs htail hcontent b
  refine ⟨pathOf? (fs.flatMap Spelled.write ++ tail), fun path => ?_, ?_, fun path filling => ?_⟩
  · simp only [pathOf?_eq_some, get?_fields hnames htail]
  · rw [ha.paths_append, paths_eq, division.pieces_append hread, List.flatMap_cons, pathIn, paths_eq]
  · rw [ha.fill_append trivial, fill_hit hread]

/-- Three attributes in different spellings: one without a value, a path in single quotes and a type
    in none. -/
def mixedSpelling : List Spelled :=
  [⟨" ".toList, "hidden".toList, none, by decide, by decide, by decide, by decide +kernel⟩,
    ⟨"\n".toList, "DATA-Path".toList,
      some ⟨" ".toList, [], .single, "/a&amp;b".toList, by decide, by decide, by decide, by decide⟩,
      by decide, by decide, by decide, by decide +kernel⟩,
    ⟨"  ".toList, "data-type".toList,
      some ⟨[], [], .bare, "render".toList, by decide, by decide, by decide, by decide⟩,
      by decide, by decide, by decide, by decide +kernel⟩]

theorem division_spelled_mixed :
    divisionOf mixedSpelling [] " ".toList =
        "<div hidden\nDATA-Path ='/a&amp;b'  data-type=render> </div>".toList ∧
      paths ("more: ".toList ++ (divisionOf mixedSpelling [] " ".toList ++ [])) =
        ["/a&b".toList] ∧
      fill "/a&b".toList "page".toList
          ("more: ".toList ++ (divisionOf mixedSpelling [] " ".toList ++ [])) =
        "more: page".toList := by
  have hnames : (mixedSpelling.map Spelled.lowerName).Nodup := by decide
  have htail : Blank [] := by decide
  have hcontent : Blank " ".toList := by decide
  obtain ⟨o, ho, hpaths, hfill⟩ := division_spelled hnames htail hcontent
    (passes_of_not_mem (t := "more: ".toList) (by decide)) []
  have hpath : o = some "/a&b".toList := by
    refine (ho _).2 ⟨⟨_, List.mem_of_getElem? (i := 2) rfl, by decide, _, rfl, rfl⟩,
      "/a&amp;b".toList, by decide, ⟨_, List.mem_of_getElem? (i := 1) rfl, by decide, _, rfl, rfl⟩, ?_⟩
    decide +kernel
  refine ⟨by decide, ?_, ?_⟩
  · rw [hpaths, hpath]
    rfl
  · rw [hfill, if_pos hpath]
    rfl

end Waterfall
end PageAssembly
