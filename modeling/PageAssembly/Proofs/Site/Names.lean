/-
  PageAssembly/Proofs/Site/Names.lean
  ===================================
  **A render path names a file, whatever it holds.**

  A text has one division into segments at its slashes (`segments_parts`).  A render path with a
  segment of one or two dots has no file.  Every other one has names that are safe to join to a
  folder: the low line stands for each character that is not allowed, so a segment keeps its
  length, and no replacement makes a dot or a slash (`safe_of_spells`).  There is one name for
  each segment that is not empty, and the suffix of pages goes to the last (`ofPath?_safe`).
-/
import Mathlib.Data.List.Forall2
import PageAssembly.Proofs.Site.Paths
import PageAssembly.Site.PagePath

namespace PageAssembly

/-- The parts of a text, joined by the separator, give the text. -/
theorem Text.intercalate_parts (d : Char) (s : Text) : [d].intercalate (parts d s) = s := by
  induction s with
  | nil => rfl
  | cons c s ih =>
    obtain ⟨p, ps, hparts⟩ := List.exists_cons_of_ne_nil (parts_ne_nil d s)
    rw [hparts] at ih
    by_cases hc : c = d
    · rw [hc, parts_cons_self, hparts, List.intercalate_cons_cons, ih]
      rfl
    · rw [parts_cons_of_ne hc hparts]
      cases ps with
      | nil =>
        rw [List.intercalate_singleton] at ih ⊢
        rw [ih]
      | cons q ps =>
        rw [List.intercalate_cons_cons] at ih ⊢
        rw [List.cons_append, List.cons_append, ih]

namespace PagePath

/-! ### Segments and names -/

/-- The segments of a path: texts without slashes that give the path when slashes join them. -/
structure Segments (path : Text) (segs : List Text) : Prop where
  nonempty : segs ≠ []
  unslashed : ∀ s ∈ segs, '/' ∉ s
  joined : ['/'].intercalate segs = path

theorem segments_parts (path : Text) : Segments path (Text.parts '/' path) where
  nonempty := Text.parts_ne_nil '/' path
  unslashed _ := Text.not_mem_of_mem_parts
  joined := Text.intercalate_parts '/' path

/-- The characters that names are made of. -/
def Allowed (c : Char) : Prop := Text.isWord c = true ∨ c = '.' ∨ c = '-'

/-- A name that leads to an entry of the folder that it is joined to, and to nothing else. -/
structure Safe (name : Text) : Prop where
  nonempty : name ≠ []
  not_self : name ≠ ['.']
  not_parent : name ≠ ['.', '.']
  allowed : ∀ c ∈ name, Allowed c

/-- The second character stands for the first in a name. -/
def StandsFor (c d : Char) : Prop := (Allowed c ∧ d = c) ∨ (¬Allowed c ∧ d = '_')

/-- The name says the segment, character by character. -/
def Spells (seg name : Text) : Prop := List.Forall₂ StandsFor seg name

variable {c d : Char} {seg name path : Text} {names : List Text}

theorem Safe.isName (h : Safe name) : IsName name where
  nonempty := h.nonempty
  not_self := h.not_self
  not_parent := h.not_parent
  no_slash hslash := by
    have hnot : ¬Allowed '/' := by
      unfold Allowed
      decide
    exact hnot (h.allowed '/' hslash)

theorem StandsFor.allowed (h : StandsFor c d) : Allowed d := by
  rcases h with ⟨hc, rfl⟩ | ⟨-, rfl⟩
  · exact hc
  · exact .inl (by decide)

/-- Nothing but a dot becomes a dot. -/
theorem StandsFor.eq_dot (h : StandsFor c '.') : c = '.' := by
  rcases h with ⟨-, hc⟩ | ⟨-, hc⟩
  · exact hc.symm
  · exact absurd hc (by decide)

theorem exists_of_mem_right {α β : Type} {R : α → β → Prop} {as : List α} {bs : List β}
    (h : List.Forall₂ R as bs) {b : β} (hb : b ∈ bs) : ∃ a ∈ as, R a b := by
  induction h with
  | nil => cases hb
  | @cons a b' as bs hab _ ih =>
    rcases List.mem_cons.1 hb with rfl | hb
    · exact ⟨a, List.mem_cons_self, hab⟩
    · obtain ⟨a', ha', hab'⟩ := ih hb
      exact ⟨a', List.mem_cons_of_mem a ha', hab'⟩

theorem Spells.allowed (h : Spells seg name) : ∀ d ∈ name, Allowed d := by
  intro d hd
  obtain ⟨c, -, hcd⟩ := exists_of_mem_right h hd
  exact hcd.allowed

theorem spells_safeChar (seg : Text) : Spells seg (seg.map safeChar) := by
  rw [Spells, List.forall₂_map_right_iff, List.forall₂_same]
  intro c _
  have hallowed : (Text.isWord c || c == '.' || c == '-') = true ↔ Allowed c := by
    simp [Allowed, or_assoc]
  by_cases h : Allowed c
  · exact .inl ⟨h, if_pos (hallowed.2 h)⟩
  · exact .inr ⟨h, if_neg fun hc => h (hallowed.1 hc)⟩

/-- A segment that is neither empty nor a dot or two is spelled by a safe name. -/
theorem safe_of_spells (h : Spells seg name) (hne : seg ≠ []) (hself : seg ≠ ['.'])
    (hparent : seg ≠ ['.', '.']) : Safe name where
  nonempty := by
    rintro rfl
    exact hne (List.forall₂_nil_right_iff.1 h)
  not_self := by
    rintro rfl
    obtain ⟨c, rest, hc, hrest, rfl⟩ := List.forall₂_cons_right_iff.1 h
    rw [hc.eq_dot, List.forall₂_nil_right_iff.1 hrest] at hself
    exact hself rfl
  not_parent := by
    rintro rfl
    obtain ⟨c, rest, hc, htail, rfl⟩ := List.forall₂_cons_right_iff.1 h
    obtain ⟨d, rest, hd, hrest, rfl⟩ := List.forall₂_cons_right_iff.1 htail
    rw [hc.eq_dot, hd.eq_dot, List.forall₂_nil_right_iff.1 hrest] at hparent
    exact hparent rfl
  allowed := h.allowed

/-- What ends in the suffix of pages is safe if its characters are allowed, whatever stands in
    front. -/
theorem safe_page (h : ∀ c ∈ name, Allowed c) : Safe (name ++ ".md".toList) where
  nonempty := by simp
  not_self hs := by simpa using congrArg List.getLast? hs
  not_parent hs := by simpa using congrArg List.getLast? hs
  allowed := by
    have hsuffix : ∀ c ∈ ['.', 'm', 'd'], Allowed c := by
      rw [List.forall_mem_cons, List.forall_mem_cons, List.forall_mem_singleton]
      exact ⟨.inr (.inl rfl), .inl (by decide), .inl (by decide)⟩
    exact List.forall_mem_append.2 ⟨h, hsuffix⟩

/-! ### The file of a path -/

theorem withSuffix_append (stems : List Text) (last : Text) :
    withSuffix (stems ++ [last]) = stems ++ [last ++ ".md".toList] := by
  induction stems with
  | nil => rfl
  | cons s stems ih =>
    cases stems with
    | nil => rfl
    | cons s' stems => exact congrArg (s :: ·) ih

theorem mem_segments : seg ∈ segments path ↔ seg ∈ Text.parts '/' path ∧ seg ≠ [] := by
  rw [segments, List.mem_filter, decide_eq_true_iff]

/-- A path has no file exactly if one of its segments is a dot or two. -/
theorem ofPath?_eq_none_iff :
    ofPath? path = none ↔ ['.'] ∈ Text.parts '/' path ∨ ['.', '.'] ∈ Text.parts '/' path := by
  have hdots : ((segments path).any fun p => p = ['.'] || p = ['.', '.']) = true ↔
      ['.'] ∈ Text.parts '/' path ∨ ['.', '.'] ∈ Text.parts '/' path := by
    simp only [List.any_eq_true, Bool.or_eq_true, decide_eq_true_iff, and_or_left, exists_or,
      exists_eq_right, mem_segments]
    simp
  rw [← hdots, ofPath?]
  simp only [ite_eq_left_iff, reduceCtorEq, imp_false, Decidable.not_not]

/-- The names of a path's file: the index where there is no segment, and else the spellings of the
    segments, with the suffix behind the last. -/
theorem names_of_ofPath? (h : ofPath? path = some names) :
    (segments path = [] ∧ names = ["index.md".toList]) ∨
      ∃ stems last, names = stems ++ [last ++ ".md".toList] ∧
        List.Forall₂ Spells (segments path) (stems ++ [last]) := by
  unfold ofPath? at h
  dsimp only at h
  split at h
  · cases h
  · obtain rfl := Option.some.inj h
    by_cases hnone : segments path = []
    · left
      rw [hnone]
      exact ⟨rfl, rfl⟩
    · right
      have hspelled : List.Forall₂ Spells (segments path) ((segments path).map fun s => s.map safeChar) := by
        rw [List.forall₂_map_right_iff, List.forall₂_same]
        exact fun s _ => spells_safeChar s
      rw [if_neg (by simpa using hnone)]
      rcases List.eq_nil_or_concat ((segments path).map fun s => s.map safeChar) with hnil | ⟨stems, last, hlast⟩
      · exact absurd (List.map_eq_nil_iff.1 hnil) hnone
      · rw [List.concat_eq_append] at hlast
        rw [hlast] at hspelled ⊢
        exact ⟨stems, last, withSuffix_append stems last, hspelled⟩

/-- The names of a path's file are safe, and there is one at least. -/
theorem safe_of_ofPath? (h : ofPath? path = some names) : names ≠ [] ∧ ∀ name ∈ names, Safe name := by
  have hdots : ¬(['.'] ∈ Text.parts '/' path ∨ ['.', '.'] ∈ Text.parts '/' path) := by
    rw [← ofPath?_eq_none_iff, h]
    exact Option.some_ne_none names
  rcases names_of_ofPath? h with ⟨-, rfl⟩ | ⟨stems, last, rfl, hspelled⟩
  · refine ⟨List.cons_ne_nil _ _, List.forall_mem_singleton.2 ?_⟩
    have hindex : Safe ("index".toList ++ ".md".toList) := safe_page (spells_safeChar "index".toList).allowed
    exact hindex
  · refine ⟨by simp, List.forall_mem_append.2 ⟨fun name hname => ?_, List.forall_mem_singleton.2 ?_⟩⟩
    · obtain ⟨seg, hseg, hspells⟩ := exists_of_mem_right hspelled (List.mem_append_left [last] hname)
      obtain ⟨hpart, hne⟩ := mem_segments.1 hseg
      refine safe_of_spells hspells hne ?_ ?_
      · rintro rfl
        exact hdots (.inl hpart)
      · rintro rfl
        exact hdots (.inr hpart)
    · obtain ⟨seg, -, hspells⟩ := exists_of_mem_right hspelled (List.mem_append_right stems (List.mem_singleton_self last))
      exact safe_page hspells.allowed

/-- A render path has no file exactly if a segment between its slashes is a dot or two.  Otherwise
    its file has safe names: the index if all segments are empty, and else one for each segment
    that is not, which spells it and, if it is the last, goes on with the suffix of pages. -/
theorem ofPath?_safe (path : Text) :
    ∃ segs, Segments path segs ∧
      (ofPath? path = none ↔ ['.'] ∈ segs ∨ ['.', '.'] ∈ segs) ∧
      ∀ names, ofPath? path = some names →
        names ≠ [] ∧ (∀ name ∈ names, Safe name) ∧
          (((∀ s ∈ segs, s = []) ∧ names = ["index.md".toList]) ∨
            ∃ stems last, names = stems ++ [last ++ ".md".toList] ∧
              List.Forall₂ Spells (segs.filter (· ≠ [])) (stems ++ [last])) := by
  refine ⟨Text.parts '/' path, segments_parts path, ofPath?_eq_none_iff, fun names h => ?_⟩
  obtain ⟨hne, hsafe⟩ := safe_of_ofPath? h
  refine ⟨hne, hsafe, ?_⟩
  rcases names_of_ofPath? h with ⟨hnone, hnames⟩ | hspelled
  · refine .inl ⟨fun s hs => ?_, hnames⟩
    by_contra hfilled
    exact List.not_mem_nil (hnone ▸ mem_segments.2 ⟨hs, hfilled⟩)
  · exact .inr hspelled

/-- A path with a query, an empty segment and letters beyond ASCII. -/
example : ofPath? "/b//é 1?page=2/".toList = some ["b".toList, "é_1_page_2.md".toList] := by decide

end PagePath
end PageAssembly
