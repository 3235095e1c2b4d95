/-
  PageAssembly/Proofs/Waterfall/Passing.lean
  ==========================================
  **Texts that the search for a path passes over.**

  Any division without content may be the placeholder of a path, so the search for a path hits
  divisions of all kinds and puts those back that are not for it.  Such a division may go on
  behind a text, with blanks and its closing tag; no other division starts in these.  A text
  is therefore passed over if it leaves no opening tag open and no division for the path
  starts in it (`fill_stretch`).

  Of the placeholders that directives leave, the search replaces those of render directives
  with the path (`fill_placeholder`): their attributes are read back as they were written
  (`fields_written`).
-/
import PageAssembly.Proofs.Chunk.Drafts
import PageAssembly.Waterfall.Placeholder

namespace PageAssembly

open Pattern Markup

/-- The path that the placeholder of a directive asks for. -/
def Deferred.path? : Deferred → Option Text
  | .render r => if r.path = [] then none else some r.path
  | .progressive _ => none

theorem Deferred.exists_render_of_path? {d : Deferred} {path : Text} (h : d.path? = some path) :
    ∃ e, d = .render e ∧ e.path ≠ [] ∧ e.path = path := by
  cases d with
  | progressive p => cases h
  | render e =>
    by_cases hne : e.path = []
    · simp [Deferred.path?, hne] at h
    · exact ⟨e, rfl, hne, by simpa [Deferred.path?, hne] using h⟩

namespace Waterfall

/-! ### Attributes as they are written -/

/-- The attributes with their values as markup shows them. -/
def written (fields : List (Text × Text)) : List (Text × Text) := fields.map fun f => (f.1, escapeValue f.2)

section

variable {name : Text} {fields : List (Text × Text)}

theorem read_field (s : Text) : field.read s = readField s := rfl

theorem readFieldValue_quoted (v r : Text) :
    readFieldValue ('=' :: '"' :: (escapeValue v ++ '"' :: r)) = some (escapeValue v, r) := by
  have hquoted := Attribute.readQuoted_append (not_mem_escapeValue (c := '"') (by decide) v) r
  change (Attribute.readQuoted '"' ('"' :: (escapeValue v ++ '"' :: r)) <|> _) = _
  rw [hquoted]
  rfl

theorem readField_written (hne : name ≠ []) (hname : ∀ c ∈ name, isFieldChar c = true)
    (hlower : name.map Char.toLower = name) (v r : Text) :
    readField (name ++ '=' :: '"' :: (escapeValue v ++ '"' :: r)) = some ((name, escapeValue v), r) := by
  have hequals : isFieldChar '=' = false := by decide
  rw [readField, List.takeWhile_append_of_pos hname, List.dropWhile_append_of_pos hname,
    List.takeWhile_cons_of_neg (by simp [hequals]), List.dropWhile_cons_of_neg (by simp [hequals]), List.append_nil,
    readFieldValue_quoted]
  obtain ⟨c, name, rfl⟩ := List.exists_cons_of_ne_nil hne
  exact congrArg (fun n => some ((n, escapeValue v), r)) hlower

theorem values_written
    (hnames : ∀ f ∈ fields, f.1 ≠ [] ∧ (∀ c ∈ f.1, isFieldChar c = true) ∧ f.1.map Char.toLower = f.1) :
    values (field.pieces (fields.flatMap fun f => Placeholder.field f.1 f.2)) = written fields := by
  induction fields with
  | nil => rfl
  | cons f fields ih =>
    obtain ⟨hne, hname, hlower⟩ := hnames f List.mem_cons_self
    let later := fields.flatMap fun f => Placeholder.field f.1 f.2
    have hsplit : (f :: fields).flatMap (fun f => Placeholder.field f.1 f.2) =
        ' ' :: ((f.1 ++ '=' :: '"' :: (escapeValue f.2 ++ ['"'])) ++ later) := by
      simp [Placeholder.field, later]
    have hspace : field.read (' ' :: ((f.1 ++ '=' :: '"' :: (escapeValue f.2 ++ ['"'])) ++ later)) = none := by
      have hblank : isFieldChar ' ' = false := by decide
      rw [read_field, readField, List.takeWhile_cons_of_neg (by simp [hblank])]
    have hread : field.read ((f.1 ++ '=' :: '"' :: (escapeValue f.2 ++ ['"'])) ++ later) =
        some ((f.1, escapeValue f.2), later) := by
      have hfield := readField_written hne hname hlower f.2 later
      rw [read_field]
      simpa using hfield
    rw [hsplit, pieces_cons_none field hspace, pieces_append field hread]
    exact congrArg ((f.1, escapeValue f.2) :: ·) (ih fun g hg => hnames g (List.mem_cons_of_mem f hg))

/-- Attributes are read back as they were written. -/
theorem fields_written
    (hnames : ∀ f ∈ fields, f.1 ≠ [] ∧ (∀ c ∈ f.1, isFieldChar c = true) ∧ f.1.map Char.toLower = f.1) :
    Waterfall.fields (fields.flatMap fun f => Placeholder.field f.1 f.2) = .ofList (written fields) := by
  rw [Waterfall.fields, find, map_value_locate, values_written hnames]

theorem names_fields (d : Deferred) :
    ∀ f ∈ d.fields, f.1 ≠ [] ∧ (∀ c ∈ f.1, isFieldChar c = true) ∧ f.1.map Char.toLower = f.1 := by
  have hall : ∀ n ∈ Placeholder.idName :: Deferred.otherNames,
      n ≠ [] ∧ (∀ c ∈ n, isFieldChar c = true) ∧ n.map Char.toLower = n := by decide +kernel
  intro f hf
  apply hall
  rcases Deferred.name_of_mem_fields hf with rfl | hname
  · exact List.mem_cons_self
  · exact List.mem_cons_of_mem _ hname

/-- The placeholder of a directive asks for the directive's path. -/
theorem pathOf?_fields (d : Deferred) :
    pathOf? (d.fields.flatMap fun f => Placeholder.field f.1 f.2) = d.path? := by
  rw [pathOf?, fields_written (names_fields d)]
  rcases d with (c | c) | r
  · rfl
  · rfl
  · obtain ⟨attributes, path⟩ := r
    cases path with
    | nil => rfl
    | cons c path =>
      have hget : (OrderedMap.ofList (written (Deferred.render ⟨attributes, c :: path⟩).fields)).get?
          "data-path".toList = some (escapeValue (c :: path)) := rfl
      have hne : escapeValue (c :: path) ≠ [] := by
        intro hnil
        exact List.cons_ne_nil c path (escapeValue_injective hnil)
      obtain ⟨e, es, hes⟩ := List.exists_cons_of_ne_nil hne
      have hback := unescape_escapeValue (c :: path)
      simp only [hget, hes] at hback ⊢
      rw [hback]
      rfl

end

/-! ### Reading a division -/

/-- The opening tag asks for the path. -/
def Points (path a : Text) : Prop := pathOf? a = some path

instance (path : Text) : DecidablePred (Points path) :=
  fun a => inferInstanceAs (Decidable (pathOf? a = some path))

section

variable {s t u r i path content : Text} {o : Option Text} {paths : Set Text}

theorem readDivision_eq_some (h : readDivision s = some (o, r)) :
    ∃ i u, Text.expectCaseless "<div".toList s = some i ∧ i.dropWhile (· != '>') = '>' :: u ∧
      o = pathOf? (i.takeWhile (· != '>')) ∧ Text.expectCaseless "</div>".toList (Text.trimStart u) = some r := by
  simp only [readDivision, Option.bind_eq_bind, Option.bind_eq_some_iff] at h
  obtain ⟨i, hi, h⟩ := h
  split at h
  · cases h
  · split at h
    · cases h
    · split at h
      · cases h
      · next d u hu =>
        simp only [Option.bind_eq_some_iff, Option.pure_def, Option.some.injEq, Prod.mk.injEq] at h
        obtain ⟨v, hv, rfl, rfl⟩ := h
        have hd := List.head_dropWhile_not (· != '>') (hu ▸ List.cons_ne_nil d u)
        simp only [hu, List.head_cons, bne_eq_false_iff_eq] at hd
        exact ⟨_, u, hi, hd ▸ hu, rfl, hv⟩

/-- A whole division is read by what its opening tag holds. -/
theorem readDivision_tag {a blanks : Text} (hbracket : '>' ∉ a)
    (hword : ∀ c ∈ a.head?, Text.isWord c = false) (hblanks : ∀ c ∈ blanks, Text.isBlank c = true)
    (r : Text) :
    readDivision ("<div".toList ++ (a ++ '>' :: (blanks ++ ("</div>".toList ++ r)))) =
      some (pathOf? a, r) := by
  let inside := a ++ '>' :: (blanks ++ ("</div>".toList ++ r))
  have hall : ∀ c ∈ a, (c != '>') = true := fun c hc => bne_iff_ne.2 fun heq => hbracket (heq ▸ hc)
  have hexpect : Text.expectCaseless "<div".toList ("<div".toList ++ inside) = some inside := rfl
  have htake : inside.takeWhile (· != '>') = a := by
    rw [List.takeWhile_append_of_pos hall, List.takeWhile_cons_of_neg (by simp), List.append_nil]
  have hdrop : inside.dropWhile (· != '>') = '>' :: (blanks ++ ("</div>".toList ++ r)) := by
    rw [List.dropWhile_append_of_pos hall, List.dropWhile_cons_of_neg (by simp)]
  have hend : Text.expectCaseless "</div>".toList (Text.trimStart (blanks ++ ("</div>".toList ++ r))) =
      some r := by
    rw [Text.trimStart, List.dropWhile_append_of_pos hblanks]
    rfl
  obtain ⟨c, i, hi, hc⟩ : ∃ c i, inside = c :: i ∧ Text.isWord c = false := by
    cases a with
    | nil => exact ⟨'>', _, rfl, by decide +kernel⟩
    | cons c a => exact ⟨c, _, rfl, hword c rfl⟩
  change readDivision ("<div".toList ++ inside) = _
  rw [readDivision, hexpect]
  rw [hi] at htake hdrop ⊢
  simp only [Option.bind_eq_bind, Option.bind_some, hc, Bool.false_eq_true, if_false, hdrop, htake, hend]
  rfl

/-- A division that starts in a text with a whole opening tag may be closed in what follows. -/
theorem readDivision_stretch {a rest : Text} (ha : opening? Text.sameLetter t = some (some a))
    (h : readDivision (t ++ r) = some (o, rest)) :
    o = pathOf? a ∧ ∃ v u, v ≠ [] ∧ t = v ++ u ∧
      Text.expectCaseless "</div>".toList (Text.trimStart (u ++ r)) = some rest := by
  obtain ⟨i, hi, hclosed, rfl⟩ := opening?_eq_some ha
  obtain ⟨i', u', hi', hu', rfl, hend⟩ := readDivision_eq_some h
  obtain rfl : i ++ r = i' := Option.some.inj ((Text.expectBy_append_of_some hi r).symm.trans hi')
  obtain ⟨w, hlength, rfl⟩ := Text.expectBy_eq_some hi
  obtain ⟨x, u, rfl, hx⟩ := List.eq_append_cons_of_mem hclosed
  refine ⟨congrArg pathOf? (takeWhile_append_of_mem hclosed r), w ++ x ++ ['>'], u, by simp, by simp, ?_⟩
  have hall : ∀ c ∈ x, (c != '>') = true := fun c hc => bne_iff_ne.2 fun heq => hx (heq ▸ hc)
  rw [List.append_assoc, List.cons_append, List.dropWhile_append_of_pos hall, List.dropWhile_cons_of_neg (by simp)]
    at hu'
  rw [(List.cons.inj hu').2]
  exact hend

/-- The opening tag of a division says what it asks for. -/
theorem opening_of_readDivision (h : readDivision s = some (o, r)) :
    ∃ a, opening? Text.sameLetter s = some (some a) ∧ o = pathOf? a := by
  obtain ⟨i, u, hi, hu, rfl, -⟩ := readDivision_eq_some h
  have hi : Text.expectBy Text.sameLetter "<div".toList s = some i := hi
  have hclosed : '>' ∈ i := (List.dropWhile_suffix _).subset (hu ▸ List.mem_cons_self)
  refine ⟨i.takeWhile (· != '>'), ?_, rfl⟩
  rw [opening?, hi]
  exact congrArg some (if_pos hclosed)

theorem readDivision_of_opening? (h : opening? Text.sameLetter s = none) : readDivision s = none := by
  rw [Option.eq_none_iff_forall_ne_some]
  rintro ⟨o, r⟩ hread
  obtain ⟨a, ha, -⟩ := opening_of_readDivision hread
  rw [h] at ha
  cases ha

/-- No division that asks for the path starts in the text, whatever stands behind it. -/
def Apart (path t : Text) : Prop :=
  ∀ z, z ≠ [] → z <:+ t → ∀ r rest, readDivision (z ++ r) ≠ some (some path, rest)

/-- The search for these paths passes over the text, whatever stands behind it. -/
def Passes (paths : Set Text) (t : Text) : Prop := ∀ path ∈ paths, Closed Text.sameLetter t ∧ Apart path t

/-- The search for these paths finds nothing in the text. -/
def Ends (paths : Set Text) (t : Text) : Prop := ∀ path ∈ paths, path ∉ Waterfall.paths t

/-- No opening tag in the text asks for the path. -/
theorem apart_of_lacks (hclosed : Closed Text.sameLetter t) (hlacks : Lacks Text.sameLetter (Points path) t) :
    Apart path t := by
  intro z hne hz r rest hread
  obtain ⟨a, ha, hpath⟩ := opening_of_readDivision hread
  rcases hclosed.cases hz hne r with hnone | ⟨b, hb, hsome⟩
  · rw [hnone] at ha
    cases ha
  · rw [hsome] at ha
    cases ha
    exact hlacks.suffix hz hb hpath.symm

theorem bracket_of_blank {c : Char} (h : Text.isBlank c = true) : Text.sameLetter '<' c = false := by
  rw [← Bool.not_eq_true]
  intro hc
  rw [caseless_bracket c hc] at h
  exact absurd h (by decide)

/-- No opening tag starts at a letter of a closing tag. -/
theorem opening?_of_closing {w z : Text} (hw : w <:+ "</div>".toList)
    (h : List.Forall₂ (fun a c => Text.sameLetter a c = true) w z) (hne : z ≠ []) (q : Text) :
    opening? Text.sameLetter (z ++ q) = none := by
  cases h with
  | nil => exact absurd rfl hne
  | @cons a c w z hac h =>
    by_cases ha : a = '<'
    · -- the whole tag: what follows the bracket is a stroke
      obtain rfl : c = '<' := caseless_bracket c (ha ▸ hac)
      have hwhole : w = "/div>".toList := by
        have hall : ∀ v ∈ "</div>".toList.tails, v.head? = some '<' → v.tail = "/div>".toList := by decide
        exact hall (a :: w) ((List.mem_tails _ _).2 hw) (by rw [ha]; rfl)
      subst hwhole
      obtain ⟨d, z, hd, -, rfl⟩ := List.forall₂_cons_left_iff.1 h
      obtain rfl : d = '/' := eq_of_sameLetter rfl hd
      rfl
    · refine opening?_cons_of_ne ?_ (z ++ q)
      rw [← Bool.not_eq_true]
      intro hc
      rw [caseless_bracket c hc] at hac
      have hall : ∀ b ∈ "</div>".toList, Text.sameLetter b '<' = true → b = '<' := by decide
      exact ha (hall a (hw.subset List.mem_cons_self) hac)

/-- No opening tag starts in what closes a division. -/
theorem exists_closing (h : Text.expectCaseless "</div>".toList (Text.trimStart u) = some r) :
    ∃ x, u = x ++ r ∧ ∀ z, z ≠ [] → z <:+ x → opening? Text.sameLetter (z ++ r) = none := by
  obtain ⟨v, hv, hforall⟩ := Text.forall₂_of_expectBy h
  refine ⟨u.takeWhile Text.isBlank ++ v, ?_, fun z hne hz => ?_⟩
  · rw [List.append_assoc, ← hv]
    exact (List.takeWhile_append_dropWhile).symm
  · rcases suffix_append_cases hz with hz | ⟨y, hy, hyz, rfl⟩
    · obtain ⟨x, rfl⟩ := hz
      exact opening?_of_closing (List.drop_suffix _ _) (List.forall₂_drop_append _ _ _ hforall) hne r
    · obtain ⟨c, y, rfl⟩ := List.exists_cons_of_ne_nil hy
      have hblank := List.mem_takeWhile_imp (hyz.subset List.mem_cons_self)
      exact opening?_cons_of_ne (bracket_of_blank hblank) _

/-! ### Searching for a path -/

/-- The document with pages put in one after another. -/
def fillAll (fills : List (Text × Text)) (document : Text) : Text :=
  fills.foldl (fun document f => fill f.1 f.2 document) document

theorem fill_hit (h : readDivision (t ++ r) = some (o, r)) :
    fill path content (t ++ r) = (if o = some path then content else t) ++ fill path content r := by
  rw [fill, substitute, pieces_append division h]
  rfl

theorem pieces_skipped (h : ∀ z, z ≠ [] → z <:+ t → opening? Text.sameLetter (z ++ r) = none) :
    division.pieces (t ++ r) = t.map Piece.plain ++ division.pieces r :=
  division.pieces_append_of_none fun z hne hz => readDivision_of_opening? (h z hne hz)

/-- A search passes over a text that leaves no opening tag open, as far as `g` can tell: it makes
    of each division that starts in the text what it makes of its letters. -/
theorem flatMap_stretch {β : Type} {g : Piece (Option Text) → List β} (hclosed : Closed Text.sameLetter t)
    (hg : ∀ z, z ≠ [] → z <:+ t → ∀ r rest o, readDivision (z ++ r) = some (o, rest) →
      ∀ w, g (.hit w o) = w.flatMap fun c => g (.plain c)) (r : Text) :
    (division.pieces (t ++ r)).flatMap g = (t.flatMap fun c => g (.plain c)) ++ (division.pieces r).flatMap g := by
  induction hn : t.length using Nat.strongRecOn generalizing t with
  | ind n ih =>
    cases t with
    | nil => rfl
    | cons c t =>
      have hrest : ∀ {t'}, t' <:+ t → (division.pieces (t' ++ r)).flatMap g =
          (t'.flatMap fun c => g (.plain c)) ++ (division.pieces r).flatMap g := by
        intro t' ht'
        have hlength := ht'.length_le
        rw [List.length_cons] at hn
        have hsuffix := ht'.trans (List.suffix_cons c t)
        refine ih t'.length (by omega) (closed_of_suffix fun z hz => hclosed.suffix (hz.trans hsuffix))
          (fun z hne hz => hg z hne (hz.trans hsuffix)) rfl
      cases hread : readDivision (c :: t ++ r) with
      | none =>
        have hnone : readDivision (c :: (t ++ r)) = none := hread
        rw [List.cons_append, pieces_cons_none division hnone, List.flatMap_cons, hrest List.suffix_rfl,
          List.flatMap_cons, List.append_assoc]
      | some m =>
        obtain ⟨o, rest⟩ := m
        rcases hclosed.cases List.suffix_rfl (List.cons_ne_nil c t) r with hnone | ⟨a, ha, -⟩
        · rw [readDivision_of_opening? hnone] at hread
          cases hread
        · have hhit := hg (c :: t) (List.cons_ne_nil c t) List.suffix_rfl r rest o hread
          obtain ⟨rfl, v, u, hv, hsplit, hend⟩ := readDivision_stretch ha hread
          have hu : u <:+ t := by
            obtain ⟨d, v, rfl⟩ := List.exists_cons_of_ne_nil hv
            exact ⟨v, (List.cons.inj hsplit).2.symm⟩
          obtain ⟨x, hx, hskipped⟩ := exists_closing hend
          rw [hsplit] at hread ⊢
          rcases List.append_eq_append_iff.1 hx with ⟨y, rfl, rfl⟩ | ⟨y, rfl, rfl⟩
          · -- the division is closed behind the text
            rw [← List.append_assoc] at hread ⊢
            rw [pieces_append division hread, List.flatMap_cons, hhit,
              pieces_skipped fun z hne hz => hskipped z hne (hz.trans (List.suffix_append u y))]
            simp [List.flatMap_map]
          · -- the division is closed in the text
            have hy : y <:+ t := (List.suffix_append x y).trans hu
            have hassoc : v ++ (x ++ y) ++ r = (v ++ x) ++ (y ++ r) := by simp
            rw [hassoc] at hread ⊢
            rw [pieces_append division hread, List.flatMap_cons, hhit, hrest hy]
            simp

/-- The search for a path passes over a text that leaves no opening tag open and in which no
    division starts that asks for the path. -/
theorem fill_stretch (hclosed : Closed Text.sameLetter t) (hapart : Apart path t) (r : Text) :
    fill path content (t ++ r) = t ++ fill path content r := by
  refine (flatMap_stretch hclosed (fun z hne hz r rest o hread w => ?_) r).trans ?_
  · have hother : o ≠ some path := fun ho => hapart z hne hz r rest (ho ▸ hread)
    exact (if_neg hother).trans (List.flatMap_singleton' w).symm
  · exact congrArg (· ++ fill path content r) (List.flatMap_singleton' t)

/-- The search for a path leaves a document as it is that has no placeholder for it. -/
theorem fill_last (h : path ∉ Waterfall.paths t) : fill path content t = t := by
  refine Eq.trans (List.flatMap_congr fun x hx => ?_) (sources_pieces division t)
  cases x with
  | plain c => rfl
  | hit w o =>
    refine if_neg fun ho => h ?_
    have hmem : o ∈ values (division.pieces t) := List.mem_filterMap.2 ⟨_, hx, rfl⟩
    rw [← map_value_locate 0, ← find] at hmem
    obtain ⟨m, hm, rfl⟩ := List.mem_map.1 hmem
    exact List.mem_filterMap.2 ⟨m, hm, ho⟩

/-! ### Placeholders of directives -/

theorem opening?_tag {a : Text} (ha : '>' ∉ a) :
    opening? Text.sameLetter ("<div".toList ++ a ++ ['>']) = some (some a) := by
  have hall : ∀ c ∈ a, (c != '>') = true := fun c hc => bne_iff_ne.2 fun heq => ha (heq ▸ hc)
  have hexpect : Text.expectBy Text.sameLetter "<div".toList ("<div".toList ++ a ++ ['>']) = some (a ++ ['>']) := rfl
  rw [opening?, hexpect]
  change some (if '>' ∈ a ++ ['>'] then some ((a ++ ['>']).takeWhile (· != '>')) else none) = _
  rw [if_pos (by simp), List.takeWhile_append_of_pos hall, List.takeWhile_cons_of_neg (by simp), List.append_nil]

/-- The only opening tag in an opening tag is itself. -/
theorem opening?_suffix_tag {a z : Text} (hleft : '<' ∉ a) (hright : '>' ∉ a)
    (hz : z <:+ "<div".toList ++ a ++ ['>']) :
    opening? Text.sameLetter z = none ∨ opening? Text.sameLetter z = some (some a) := by
  have hz : z <:+ '<' :: ("div".toList ++ a ++ ['>']) := hz
  rcases List.suffix_cons_iff.1 hz with rfl | hz
  · exact .inr (opening?_tag hright)
  · refine .inl (opening?_of_not_mem caseless_bracket ?_ hz)
    simp [hleft]

theorem placeholder_split (d : Deferred) : d.placeholder =
    ("<div".toList ++ (d.fields.flatMap fun f => Placeholder.field f.1 f.2) ++ ['>']) ++
      (d.caption ++ "</div>".toList) := by
  rw [d.placeholder_eq, Placeholder.division]
  simp

/-- The search for these paths passes over a placeholder that asks for none of them. -/
theorem passes_placeholder {d : Deferred} (h : ∀ path ∈ paths, d.path? ≠ some path) : Passes paths d.placeholder := by
  have htag := fun z => opening?_suffix_tag (z := z) (d.not_mem_fields (c := '<') (by decide))
    (d.not_mem_fields (c := '>') (by decide))
  have hclosed : Closed Text.sameLetter
      ("<div".toList ++ (d.fields.flatMap fun f => Placeholder.field f.1 f.2) ++ ['>']) := by
    refine closed_of_suffix fun z hz => ?_
    rcases htag z hz with hnone | hsome
    · simp [hnone]
    · simp [hsome]
  have hcaption := closed_of_not_mem caseless_bracket d.not_mem_caption
  rw [placeholder_split]
  have hwhole := hclosed.append (hcaption.append (t := "</div>".toList) (by decide))
  refine fun path hpath => ⟨hwhole, apart_of_lacks hwhole (.append hclosed ?_ (.append hcaption ?_ ?_))⟩
  · refine lacks_of_suffix fun z a hz ha => ?_
    rcases htag z hz with hnone | hsome
    · rw [hnone] at ha
      cases ha
    · rw [hsome] at ha
      cases ha
      intro hpoints
      exact h path hpath ((pathOf?_fields d).symm.trans hpoints)
  · exact lacks_of_not_mem caseless_bracket d.not_mem_caption
  · refine lacks_of_suffix fun z a hz ha => ?_
    have hall : ∀ z ∈ "</div>".toList.tails, opening? Text.sameLetter z = none := by decide
    rw [hall z ((List.mem_tails _ _).2 hz)] at ha
    cases ha

theorem readDivision_render {d : Render} (hne : d.path ≠ []) (r : Text) :
    readDivision (d.placeholder ++ r) = some (some d.path, r) := by
  let a := (Deferred.render d).fields.flatMap fun f => Placeholder.field f.1 f.2
  have hbracket : '>' ∉ a := Deferred.not_mem_fields (by decide) _
  have hpath : pathOf? a = some d.path := (pathOf?_fields (.render d)).trans (if_neg hne)
  have hsplit : d.placeholder ++ r = "<div".toList ++ (a ++ '>' :: ([] ++ ("</div>".toList ++ r))) := by
    rw [← Deferred.placeholder, Deferred.placeholder_eq, Placeholder.division]
    simp [a, Deferred.caption]
  have hspace : ∀ c ∈ a.head?, Text.isWord c = false := by
    have hword : Text.isWord ' ' = false := by decide +kernel
    rintro c ⟨⟩
    exact hword
  rw [hsplit, readDivision_tag hbracket hspace (fun c hc => absurd hc List.not_mem_nil) r, hpath]

/-- Searching for a path replaces the placeholders that ask for it. -/
theorem fill_placeholder (d : Deferred) (r : Text) :
    fill path content (d.placeholder ++ r) =
      (if d.path? = some path then content else d.placeholder) ++ fill path content r := by
  by_cases h : d.path? = some path
  · obtain ⟨d, rfl, hne, rfl⟩ := Deferred.exists_render_of_path? h
    rw [if_pos h]
    exact (fill_hit (readDivision_render hne r)).trans (by rw [if_pos rfl])
  · have hpasses : Passes {path} d.placeholder := passes_placeholder fun p hp => by
      obtain rfl : p = path := hp
      exact h
    rw [if_neg h]
    exact fill_stretch (hpasses path rfl).1 (hpasses path rfl).2 r

theorem Passes.fill_append (h : Passes paths t) (hpath : path ∈ paths) (r : Text) :
    fill path content (t ++ r) = t ++ fill path content r :=
  fill_stretch (h path hpath).1 (h path hpath).2 r

theorem Passes.fill_eq (h : Passes paths t) (hpath : path ∈ paths) : fill path content t = t := by
  have halone : fill path content (t ++ []) = t ++ fill path content [] := h.fill_append hpath []
  have hnil : fill path content [] = [] := rfl
  rwa [hnil, List.append_nil] at halone

theorem Passes.append (hs : Passes paths s) (ht : Passes paths t) : Passes paths (s ++ t) := by
  refine fun path hpath => ⟨(hs path hpath).1.append (ht path hpath).1, fun z hne hz r rest => ?_⟩
  rcases suffix_append_cases hz with hz | ⟨y, hy, hys, rfl⟩
  · exact (ht path hpath).2 z hne hz r rest
  · rw [List.append_assoc]
    exact (hs path hpath).2 y hy hys (t ++ r) rest

theorem passes_of_not_mem (h : '<' ∉ t) : Passes paths t :=
  have hclosed := closed_of_not_mem caseless_bracket h
  fun _ _ => ⟨hclosed, apart_of_lacks hclosed (lacks_of_not_mem caseless_bracket h)⟩

theorem passes_flatMap {α : Type} {f : α → Text} {as : List α} (h : ∀ a ∈ as, Passes paths (f a)) :
    Passes paths (as.flatMap f) :=
  Text.of_flatMap (passes_of_not_mem List.not_mem_nil) (fun _ _ => Passes.append) h

end

end Waterfall
end PageAssembly
