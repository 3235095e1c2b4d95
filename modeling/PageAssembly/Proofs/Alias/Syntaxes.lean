/-
  PageAssembly/Proofs/Alias/Syntaxes.lean
  =======================================
  **The two ways to write aliases mean the same.**

  A list of names and ids is written as names with values in double quotes (`AsAssignments`), or as
  the members of an object (`AsObject`).  Either way, the search finds
  one directive there, and it defines the names in the order in which they were written; so the page is
  left without the directive, and the definitions are the list (`syntaxes_agree`).

  The directive ends at the same place for both.  The members stand in braces of their own and hold
  no further one, so the body reaches to their closing brace; the values hold no closing brace, so
  the body reaches to the end of the directive, less the blanks there.
-/
import PageAssembly.Proofs.Alias.Grammar
import PageAssembly.Proofs.Alias.Stripping
import PageAssembly.Proofs.Directive.Writing
import PageAssembly.Proofs.Json.Objects

namespace PageAssembly

theorem OrderedMap.entries_ofList {κ ν : Type} [DecidableEq κ] {es : List (κ × ν)}
    (h : (es.map Prod.fst).Nodup) : (ofList es).entries = es :=
  entries_insertAll (m := empty) h

theorem Text.isWord_printed {c : Char} (h : isWord c = true) : 0x20 ≤ c.toNat := by
  apply Nat.le_of_not_lt
  intro hlt
  have hnone : ∀ n ∈ List.range 0x20, isWord (Char.ofNat n) = false := by decide
  have hc := hnone c.toNat (List.mem_range.2 hlt)
  rw [Char.ofNat_toNat, h] at hc
  cases hc

/-- Blanks at the end are trimmed, up to a character that is none. -/
theorem Text.trimEnd_append {s tail : Text} (hs : ∀ c ∈ s.getLast?, isBlank c = false)
    (htail : ∀ c ∈ tail, isBlank c = true) : trimEnd (s ++ tail) = s := by
  have hstart := trimStart_append (fun c hc => htail c (List.mem_reverse.1 hc))
    (List.head?_reverse (l := s) ▸ hs)
  rw [trimStart] at hstart
  rw [trimEnd, dropEndWhile, List.reverse_append, hstart, List.reverse_reverse]

namespace Attribute

theorem readAssignment_eq_none {c : Char} (h : Text.isWord c = false) (s : Text) :
    readAssignment (c :: s) = none := by
  rw [readAssignment, readName_eq, List.takeWhile_cons_of_neg (by simp [h])]
  rfl

theorem readAssignment_quoted {name v : Text} (hne : name ≠ [])
    (hword : ∀ c ∈ name, Text.isWord c = true) (hv : '"' ∉ v) (r : Text) :
    readAssignment (name ++ '=' :: '"' :: (v ++ '"' :: r)) = some ((name, v), r) := by
  have hstop : ∀ c ∈ ('=' :: '"' :: (v ++ '"' :: r)).head?, Text.isWord c = false := by
    rintro c ⟨⟩
    decide
  rw [readAssignment, readName_append hne hword hstop]
  simp only [Option.bind_eq_bind, Option.bind_some, readAssigned_quoted hv, Option.pure_def]

/-- No name starts at a blank. -/
theorem values_blanks {gap : Text} (h : ∀ c ∈ gap, Text.isBlank c = true) (s : Text) :
    Pattern.values (assignments.pieces (gap ++ s)) = Pattern.values (assignments.pieces s) := by
  have hnone : ∀ z : Text, z ≠ [] → z <:+ gap → assignments.read (z ++ s) = none := by
    intro z hne hz
    obtain ⟨c, z, rfl⟩ := List.exists_cons_of_ne_nil hne
    exact readAssignment_eq_none (Text.isWord_of_isBlank (h c (hz.subset List.mem_cons_self))) _
  rw [assignments.pieces_append_of_none hnone, Pattern.values_append, Pattern.values_plain,
    List.nil_append]

end Attribute

namespace Alias

/-! ### Writing -/

/-- A name and an id that both ways of writing show as they are. -/
structure Writable (e : Text × Text) : Prop where
  name : IsName e.1
  unopened : '{' ∉ e.2
  unclosed : '}' ∉ e.2
  plain : Json.Plain e.2

/-- Names with values in double quotes, and blanks in between. -/
inductive Assignments : List (Text × Text) → Text → Prop where
  | last {e : Text × Text} : Assignments [e] (e.1 ++ '=' :: Json.quote e.2)
  | more {e : Text × Text} {es : List (Text × Text)} {gap s : Text} (separate : gap ≠ [])
      (blank : ∀ c ∈ gap, Text.isBlank c = true) (rest : Assignments es s) :
      Assignments (e :: es) (e.1 ++ '=' :: (Json.quote e.2 ++ (gap ++ s)))

/-- A directive with the word in any letter case, and the body between blanks. -/
inductive Around (body : Text) : Text → Prop where
  | intro {word lead tail : Text} (named : Text.expectCaseless "aliases".toList word = some [])
      (separate : lead ≠ []) (lead_blank : ∀ c ∈ lead, Text.isBlank c = true)
      (tail_blank : ∀ c ∈ tail, Text.isBlank c = true) :
      Around body (Directive.opening ++ (word ++ (lead ++ (body ++ (tail ++ Directive.closing)))))

/-- A directive that defines the names by values behind equals signs. -/
def AsAssignments (es : List (Text × Text)) (w : Text) : Prop :=
  ∃ body, Assignments es body ∧ Around body w

/-- A directive that defines the names by an object. -/
def AsObject (es : List (Text × Text)) (w : Text) : Prop :=
  ∃ gap s, Json.Spaces gap ∧ Json.Members es s ∧ Around ('{' :: (gap ++ s)) w

theorem Writable.plain_name {e : Text × Text} (h : Writable e) : Json.Plain e.1 where
  unquoted := fun hmem => absurd (h.name.2 _ hmem) (by decide)
  unescaped := fun hmem => absurd (h.name.2 _ hmem) (by decide)
  printed := fun c hc => Text.isWord_printed (h.name.2 c hc)

theorem Writable.not_mem_name {e : Text × Text} (h : Writable e) {c : Char} (hc : Text.isWord c = false) :
    c ∉ e.1 := by
  intro hmem
  rw [h.name.2 c hmem] at hc
  cases hc

/-! ### Where a directive ends -/

theorem Around.exists_head {body w : Text} (h : Around body w) :
    ∃ head lead tail, Head head ∧ (∀ c ∈ lead, Text.isBlank c = true) ∧
      (∀ c ∈ tail, Text.isBlank c = true) ∧ w = head ++ (lead ++ (body ++ (tail ++ Directive.closing))) := by
  cases h with
  | @intro word lead tail named separate lead_blank tail_blank =>
    obtain ⟨c, lead, rfl⟩ := List.exists_cons_of_ne_nil separate
    obtain ⟨hc, hlead⟩ := List.forall_mem_cons.1 lead_blank
    refine ⟨_, lead, tail, Head.intro named hc, hlead, tail_blank, ?_⟩
    simp [Directive.opening]

/-- A body in braces with no further brace inside is the body that is read. -/
theorem Around.read_object {inner w : Text} (h : Around ('{' :: (inner ++ ['}'])) w) (hopened : '{' ∉ inner)
    (hclosed : '}' ∉ inner) (r : Text) :
    readDirective (w ++ r) = some (definitions ('{' :: (inner ++ ['}'])), r) := by
  obtain ⟨head, lead, tail, hhead, hlead, htail, rfl⟩ := h.exists_head
  exact (Braced.intro hhead hlead hopened hclosed htail rfl).read r

/-- A body without closing braces is the body that is read, if no opening brace stands at its front
    and no blank at its ends. -/
theorem Around.read_open {body w : Text} (h : Around body w) (hclosed : '}' ∉ body)
    (hfront : ∀ c ∈ body.head?, c ≠ '{' ∧ Text.isBlank c = false)
    (hback : ∀ c ∈ body.getLast?, Text.isBlank c = false) (hne : body ≠ []) (r : Text) :
    readDirective (w ++ r) = some (definitions body, r) := by
  obtain ⟨head, lead, tail, hhead, hlead, htail, rfl⟩ := h.exists_head
  have hspan : '}' ∉ lead ++ (body ++ tail) := by
    have hleft : '}' ∉ lead := Text.not_mem_blanks hlead (by decide)
    have hright : '}' ∉ tail := Text.not_mem_blanks htail (by decide)
    simp [hleft, hclosed, hright]
  have hsplit : head ++ (lead ++ (body ++ (tail ++ Directive.closing))) =
      head ++ (lead ++ (body ++ tail) ++ Directive.closing) := by
    simp only [List.append_assoc]
  obtain ⟨c, t, rfl⟩ := List.exists_cons_of_ne_nil hne
  obtain ⟨hbrace, hblank⟩ := hfront c rfl
  have hstart : Text.trimStart (lead ++ (c :: t ++ tail)) = c :: t ++ tail := by
    apply Text.trimStart_append hlead
    rintro d ⟨⟩
    exact hblank
  have htrim : Text.trim (lead ++ (c :: t ++ tail)) = c :: t := by
    rw [Text.trim, hstart]
    exact Text.trimEnd_append hback htail
  have hbraced : readBraced (c :: t ++ tail ++ (Directive.closing ++ r)) = none := by
    rw [List.cons_append, List.cons_append]
    unfold readBraced
    split
    · next heq => exact absurd (List.cons.inj heq).1 hbrace
    · rfl
  rw [hsplit, (Unbraced.intro hhead hspan).read, hstart, hbraced, htrim]
  rfl

variable {es : List (Text × Text)}

/-! ### Names with values -/

theorem Assignments.unclosed {s : Text} (h : Assignments es s) (hes : ∀ e ∈ es, Writable e) : '}' ∉ s := by
  induction h with
  | @last e =>
    have he := List.forall_mem_singleton.1 hes
    simp [Json.quote, he.not_mem_name (c := '}') (by decide), he.unclosed]
  | @more e es gap s separate blank rest ih =>
    obtain ⟨he, hes⟩ := List.forall_mem_cons.1 hes
    have hgap : '}' ∉ gap := Text.not_mem_blanks blank (by decide)
    simp [Json.quote, hgap, he.not_mem_name (c := '}') (by decide), he.unclosed, ih hes]

theorem Assignments.getLast? {s : Text} (h : Assignments es s) : s.getLast? = some '"' := by
  induction h with
  | last => simp [Json.quote, List.getLast?_append, List.getLast?_cons]
  | more separate blank rest ih => simp [Json.quote, List.getLast?_append, List.getLast?_cons, ih]

theorem Assignments.exists_word {s : Text} (h : Assignments es s) (hes : ∀ e ∈ es, Writable e) :
    ∃ c t, s = c :: t ∧ Text.isWord c = true := by
  have hfirst : ∀ e ∈ es, ∀ r : Text, ∃ c t, e.1 ++ r = c :: t ∧ Text.isWord c = true := by
    intro e he r
    obtain ⟨c, t, hname⟩ := List.exists_cons_of_ne_nil (hes e he).name.1
    exact ⟨c, t ++ r, by rw [hname]; rfl, (hes e he).name.2 c (hname ▸ List.mem_cons_self)⟩
  cases h with
  | last => exact hfirst _ List.mem_cons_self _
  | more => exact hfirst _ List.mem_cons_self _

/-- The search for names with values finds them in the order in which they were written. -/
theorem Assignments.values {s : Text} (h : Assignments es s) (hes : ∀ e ∈ es, Writable e) :
    Pattern.values (Attribute.assignments.pieces s) = es := by
  have hstep : ∀ {e : Text × Text}, Writable e → ∀ r : Text,
      Pattern.values (Attribute.assignments.pieces (e.1 ++ '=' :: Json.quote e.2 ++ r)) =
        e :: Pattern.values (Attribute.assignments.pieces r) := by
    intro e he r
    have hread := Attribute.readAssignment_quoted he.name.1 he.name.2 he.plain.unquoted r
    have hsplit : e.1 ++ '=' :: '"' :: (e.2 ++ '"' :: r) = e.1 ++ '=' :: Json.quote e.2 ++ r := by
      simp [Json.quote]
    rw [hsplit] at hread
    rw [Attribute.assignments.pieces_append hread, Pattern.values_hit]
  induction h with
  | @last e =>
    have hlast := hstep (List.forall_mem_singleton.1 hes) []
    rwa [List.append_nil] at hlast
  | @more e es gap s separate blank rest ih =>
    obtain ⟨he, hes⟩ := List.forall_mem_cons.1 hes
    rw [← List.cons_append, ← List.append_assoc, hstep he, Attribute.values_blanks blank, ih hes]

theorem Assignments.definitions_eq {s : Text} (h : Assignments es s) (hes : ∀ e ∈ es, Writable e) :
    definitions s = OrderedMap.ofList es := by
  have hvalues := h.values hes
  obtain ⟨c, t, rfl, hc⟩ := h.exists_word hes
  unfold definitions
  split
  · next heq =>
    obtain ⟨rfl, -⟩ := List.cons.inj heq
    exact absurd hc (by decide)
  · rw [Pattern.find, Pattern.map_value_locate, hvalues]

theorem AsAssignments.read {w : Text} (h : AsAssignments es w) (hes : ∀ e ∈ es, Writable e) (r : Text) :
    readDirective (w ++ r) = some (OrderedMap.ofList es, r) := by
  obtain ⟨body, hbody, haround⟩ := h
  rw [← hbody.definitions_eq hes]
  obtain ⟨c, t, hword, hc⟩ := hbody.exists_word hes
  refine haround.read_open (hbody.unclosed hes) ?_ ?_ (hword ▸ List.cons_ne_nil c t) r
  · rw [hword]
    rintro d ⟨⟩
    constructor
    · rintro rfl
      exact absurd hc (by decide)
    · rw [← Bool.not_eq_true]
      intro hblank
      rw [Text.isWord_of_isBlank hblank] at hc
      cases hc
  · rw [hbody.getLast?]
    rintro d ⟨⟩
    decide

/-! ### Objects -/

theorem not_mem_spaces {g : Text} (h : Json.Spaces g) : '{' ∉ g ∧ '}' ∉ g := by
  constructor
  · intro hmem
    exact absurd (h _ hmem) (by decide)
  · intro hmem
    exact absurd (h _ hmem) (by decide)

theorem not_mem_member {e : Text × Text} {m : Text} (he : Writable e) (h : Json.Member e m) :
    '{' ∉ m ∧ '}' ∉ m := by
  cases h with
  | intro before_spaces after_spaces behind_spaces =>
    simp [Json.quote, not_mem_spaces before_spaces, not_mem_spaces after_spaces,
      not_mem_spaces behind_spaces, he.unopened, he.unclosed, he.not_mem_name (c := '{') (by decide),
      he.not_mem_name (c := '}') (by decide)]

/-- The members hold no brace in front of the one that closes the object. -/
theorem exists_inner {s : Text} (h : Json.Members es s) (hes : ∀ e ∈ es, Writable e) :
    ∃ t, s = t ++ ['}'] ∧ '{' ∉ t ∧ '}' ∉ t := by
  induction h with
  | @last e m member =>
    obtain ⟨hopened, hclosed⟩ := not_mem_member (List.forall_mem_singleton.1 hes) member
    exact ⟨m, rfl, hopened, hclosed⟩
  | @more e es m gap s member gap_spaces rest ih =>
    obtain ⟨he, hes⟩ := List.forall_mem_cons.1 hes
    obtain ⟨t, rfl, ht⟩ := ih hes
    refine ⟨m ++ ',' :: (gap ++ t), by simp, ?_⟩
    simp [not_mem_member he member, not_mem_spaces gap_spaces, ht]

theorem definitions_object {gap s : Text} (hgap : Json.Spaces gap) (h : Json.Members es s)
    (hnames : (es.map Prod.fst).Nodup) (hes : ∀ e ∈ es, Writable e) :
    definitions ('{' :: (gap ++ s)) = OrderedMap.ofList es := by
  have hread := Json.read?_object hgap h fun e he => ⟨(hes e he).plain_name, (hes e he).plain⟩
  have hentries : (OrderedMap.ofList (es.map fun e => (e.1, Json.text e.2))).entries =
      es.map fun e => (e.1, Json.text e.2) := by
    apply OrderedMap.entries_ofList
    rwa [List.map_map]
  have hmembers : ofMembers (OrderedMap.ofList (es.map fun e => (e.1, Json.text e.2))) = es := by
    rw [ofMembers, hentries, List.filterMap_map]
    exact List.filterMap_some
  rw [definitions, hread, Option.bind_some, Json.members, Option.elim_some, hmembers]

theorem AsObject.read {w : Text} (h : AsObject es w) (hnames : (es.map Prod.fst).Nodup)
    (hes : ∀ e ∈ es, Writable e) (r : Text) : readDirective (w ++ r) = some (OrderedMap.ofList es, r) := by
  obtain ⟨gap, s, hgap, hmembers, haround⟩ := h
  rw [← definitions_object hgap hmembers hnames hes]
  obtain ⟨t, rfl, hopened, hclosed⟩ := exists_inner hmembers hes
  rw [← List.append_assoc] at haround ⊢
  apply haround.read_object
  · simp [not_mem_spaces hgap, hopened]
  · simp [not_mem_spaces hgap, hclosed]

/-! ### A directive in a page -/

/-- A directive between texts without opening braces is the one that is found, and taken out. -/
theorem strip_alone {w a b : Text} {t : Aliases} (h : ∀ r, readDirective (w ++ r) = some (t, r))
    (ht : t.isEmpty = false) (ha : '{' ∉ a) (hb : '{' ∉ b) :
    strip (a ++ w ++ b) = a ++ b ∧ defined (a ++ w ++ b) = t := by
  have hfind : find (a ++ w ++ b) = [⟨a.length, a.length + w.length, w, t⟩] := by
    rw [find, Pattern.find, List.append_assoc, Pattern.pieces_append_of_not_mem read_eq_none ha,
      pattern.pieces_append (h b), Pattern.pieces_of_not_mem read_eq_none hb, Pattern.locate_plain,
      Nat.zero_add, Pattern.locate, Pattern.locate_letters, List.filter_cons_of_pos (by simp [ht])]
    rfl
  constructor
  · have hfront : (a ++ w ++ b).take a.length = a := by rw [List.append_assoc, List.take_left]
    have hback : (a ++ w ++ b).drop (a.length + w.length) = b := by
      rw [← List.length_append, List.drop_left]
    rw [strip, hfind, List.map_singleton, Text.splice_singleton, Edit.apply]
    simp only [hfront, hback, List.append_nil]
  · rw [defined, hfind]
    exact OrderedMap.ofList_entries t

/-- Written as names with values or as an object, a list of aliases is taken out of the page and is
    what the page defines, in its order. -/
theorem syntaxes_agree (hnames : (es.map Prod.fst).Nodup) (hes : ∀ e ∈ es, Writable e) {v w a b : Text}
    (hv : AsAssignments es v) (hw : AsObject es w) (ha : '{' ∉ a) (hb : '{' ∉ b) :
    (strip (a ++ v ++ b) = a ++ b ∧ (defined (a ++ v ++ b)).entries = es) ∧
      strip (a ++ w ++ b) = a ++ b ∧ (defined (a ++ w ++ b)).entries = es := by
  have hne : (OrderedMap.ofList es).isEmpty = false := by
    rw [OrderedMap.isEmpty, OrderedMap.entries_ofList hnames]
    obtain ⟨body, hbody, -⟩ := hv
    cases hbody with
    | last => rfl
    | more => rfl
  obtain ⟨hstrip, hdefined⟩ := strip_alone (hv.read hes) hne ha hb
  obtain ⟨hstrip', hdefined'⟩ := strip_alone (hw.read hnames hes) hne ha hb
  rw [hdefined, hdefined', OrderedMap.entries_ofList hnames]
  exact ⟨⟨hstrip, rfl⟩, hstrip', rfl⟩

/-- An id with a blank and a letter outside of ASCII, and an empty one. -/
def twoAliases : List (Text × Text) := [("config".toList, "CC \u00e9".toList), ("nav_1".toList, [])]

def twoAssigned : Text := "\x7b\x7baliases config=\"CC \u00e9\"\n nav_1=\"\" \x7d\x7d".toList

def twoMembers : Text :=
  "\x7b\x7bAliases\t\x7b \"config\" : \"CC \u00e9\",\"nav_1\":\"\"\x7d\x7d\x7d".toList

theorem syntaxes_agree_two :
    (twoAliases.map Prod.fst).Nodup ∧ (∀ e ∈ twoAliases, Writable e) ∧
      AsAssignments twoAliases twoAssigned ∧ AsObject twoAliases twoMembers ∧
      '{' ∉ "a \x7d".toList ∧ '{' ∉ "\x7d\x7d b".toList ∧
      (strip ("a \x7d".toList ++ twoAssigned ++ "\x7d\x7d b".toList) = "a \x7d".toList ++ "\x7d\x7d b".toList ∧
        (defined ("a \x7d".toList ++ twoAssigned ++ "\x7d\x7d b".toList)).entries = twoAliases) ∧
      strip ("a \x7d".toList ++ twoMembers ++ "\x7d\x7d b".toList) = "a \x7d".toList ++ "\x7d\x7d b".toList ∧
      (defined ("a \x7d".toList ++ twoMembers ++ "\x7d\x7d b".toList)).entries = twoAliases := by
  have hnames : (twoAliases.map Prod.fst).Nodup := by decide
  have hwritable : ∀ e ∈ twoAliases, Writable e := by
    rw [twoAliases, List.forall_mem_cons, List.forall_mem_singleton]
    exact ⟨⟨⟨by decide, by decide⟩, by decide, by decide, ⟨by decide, by decide, by decide⟩⟩,
      ⟨⟨by decide, by decide⟩, by decide, by decide, ⟨by decide, by decide, by decide⟩⟩⟩
  have hassigned : AsAssignments twoAliases twoAssigned := by
    refine ⟨_, @Assignments.more _ _ "\n ".toList _ (by decide) (by decide) Assignments.last, ?_⟩
    exact @Around.intro _ "aliases".toList " ".toList " ".toList (by decide) (by decide) (by decide)
      (by decide)
  have hmembers : AsObject twoAliases twoMembers := by
    have hfirst : Json.Member ("config".toList, "CC \u00e9".toList) _ :=
      @Json.Member.intro _ " ".toList " ".toList [] (by decide) (by decide) (by decide)
    have hsecond : Json.Member ("nav_1".toList, []) _ :=
      @Json.Member.intro _ [] [] [] (by decide) (by decide) (by decide)
    refine ⟨" ".toList, _, by decide, @Json.Members.more _ _ _ [] _ hfirst (by decide) (.last hsecond), ?_⟩
    exact @Around.intro _ "Aliases".toList "\t".toList [] (by decide) (by decide) (by decide) (by decide)
  have hfront : '{' ∉ "a \x7d".toList := by decide
  have hback : '{' ∉ "\x7d\x7d b".toList := by decide
  exact ⟨hnames, hwritable, hassigned, hmembers, hfront, hback,
    syntaxes_agree hnames hwritable hassigned hmembers hfront hback⟩

end Alias
end PageAssembly
