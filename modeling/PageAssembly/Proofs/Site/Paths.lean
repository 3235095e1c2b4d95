/-
  PageAssembly/Proofs/Site/Paths.lean
  ===================================
  **Where a path leads, and what finding that out depends on.**

  A path is followed here without a tree, by its components alone: a name leads down, and
  two dots lead up (`Place.follow`).  If a tree leads somewhere along a path, it leads there
  (`walk_eq_follow`).

  What decides whether a path leaves a folder is its depth below that folder (`climb`).  A
  path that never climbs out stays below the folder, and finding its end needs only what the
  tree has below the folder: the tree may be cut down to it (`walk_within`).
-/
import PageAssembly.Site.FileTree

namespace PageAssembly

/-! ### Parts between slashes -/

namespace Text

variable {d c : Char} {s p : Text} {ps : List Text}

theorem parts_ne_nil (d : Char) (s : Text) : parts d s ≠ [] := by
  cases s with
  | nil => simp [parts]
  | cons c s =>
    rw [parts]
    split
    · simp
    · split <;> simp

theorem parts_cons_self (d : Char) (s : Text) : parts d (d :: s) = [] :: parts d s := by
  rw [parts]
  split
  · next h => exact absurd h (parts_ne_nil d s)
  · next h => rw [if_pos rfl, h]

theorem parts_cons_of_ne (hc : c ≠ d) (h : parts d s = p :: ps) :
    parts d (c :: s) = (c :: p) :: ps := by
  rw [parts, h]
  exact if_neg hc

theorem not_mem_of_mem_parts (h : p ∈ parts d s) : d ∉ p := by
  induction s generalizing p with
  | nil =>
    rw [parts, List.mem_singleton] at h
    simp [h]
  | cons c s ih =>
    by_cases hc : c = d
    · rw [hc, parts_cons_self, List.mem_cons] at h
      rcases h with rfl | h
      · exact List.not_mem_nil
      · exact ih h
    · obtain ⟨q, qs, hq⟩ := List.exists_cons_of_ne_nil (parts_ne_nil d s)
      rw [parts_cons_of_ne hc hq, List.mem_cons] at h
      rw [hq] at ih
      rcases h with rfl | h
      · intro hmem
        rcases List.mem_cons.1 hmem with rfl | hmem
        · exact hc rfl
        · exact ih (List.mem_cons_self ..) hmem
      · exact ih (List.mem_cons_of_mem _ h)

theorem parts_of_not_mem (h : d ∉ s) : parts d s = [s] := by
  induction s with
  | nil => rfl
  | cons c s ih =>
    rw [List.mem_cons, not_or] at h
    exact parts_cons_of_ne (Ne.symm h.1) (ih h.2)

/-- What stands behind a text, and has no separator, goes to its last part. -/
theorem exists_parts_append {t : Text} (ht : d ∉ t) (s : Text) :
    ∃ init last, parts d s = init ++ [last] ∧ parts d (s ++ t) = init ++ [last ++ t] := by
  induction s with
  | nil => exact ⟨[], [], rfl, parts_of_not_mem ht⟩
  | cons c s ih =>
    obtain ⟨init, last, hs, hst⟩ := ih
    by_cases hc : c = d
    · refine ⟨[] :: init, last, ?_, ?_⟩
      · rw [hc, parts_cons_self, hs, List.cons_append]
      · rw [hc, List.cons_append, parts_cons_self, hst, List.cons_append]
    · cases init with
      | nil =>
        exact ⟨[], c :: last, parts_cons_of_ne hc hs, parts_cons_of_ne hc hst⟩
      | cons q init =>
        exact ⟨(c :: q) :: init, last, parts_cons_of_ne hc hs, parts_cons_of_ne hc hst⟩

end Text

/-! ### Names -/

/-- A text that stands in a path for an entry of a folder. -/
structure IsName (s : Text) : Prop where
  nonempty : s ≠ []
  not_self : s ≠ ['.']
  not_parent : s ≠ ['.', '.']
  no_slash : '/' ∉ s

/-- What ends in the suffix of pages is a name, whatever stands in front. -/
theorem isName_of_page {s : Text} (h : '/' ∉ s) : IsName (s ++ ".md".toList) where
  nonempty := by simp
  not_self hs := by simpa using congrArg List.getLast? hs
  not_parent hs := by simpa using congrArg List.getLast? hs
  no_slash hmem := by
    rcases List.mem_append.1 hmem with hmem | hmem
    · exact h hmem
    · revert hmem
      decide

namespace FileTree

variable {t : FileTree} {base names : List Text} {n m : Nat} {cs : List Text}

theorem components_name {s : Text} (h : IsName s) : components s = [s] := by
  rw [components, Text.parts_of_not_mem h.no_slash]
  simp [h.nonempty, h.not_self]

/-- The components of a part that ends in the suffix of pages: a name is the last one, and
    those before it are components of the part without the suffix. -/
theorem exists_components_page (s : Text) :
    ∃ init last more, components s = init ++ more ∧ IsName last ∧
      components (s ++ ".md".toList) = init ++ [last] := by
  obtain ⟨init, last, hs, hpage⟩ := Text.exists_parts_append (by decide : '/' ∉ ".md".toList) s
  have hlast : IsName (last ++ ".md".toList) :=
    isName_of_page (Text.not_mem_of_mem_parts (by rw [hs]; simp))
  refine ⟨init.filter fun c => c ≠ [] && c ≠ ['.'], last ++ ".md".toList,
    [last].filter fun c => c ≠ [] && c ≠ ['.'], ?_, hlast, ?_⟩
  · rw [components, hs, List.filter_append]
  · have hself := hlast.not_self
    rw [components, hpage, List.filter_append]
    simpa using hself

/-- A path of parts that do not start it anew has their components one after the other. -/
theorem join_relative (p : Place) {parts : List Text} (h : ∀ part ∈ parts, isAbsolute part = false) :
    join p parts = (p, parts.flatMap components) := by
  -- The fold carries the components of the parts that were joined so far.
  suffices hfold : ∀ done : List Text, parts.foldl (fun p part =>
      if isAbsolute part then (.above, components part) else (p.1, p.2 ++ components part)) (p, done) =
      (p, done ++ parts.flatMap components) from hfold []
  induction parts with
  | nil => simp
  | cons part parts ih =>
    intro done
    have hpart : isAbsolute part = false := h part (List.mem_cons_self ..)
    rw [List.foldl_cons, hpart, List.flatMap_cons, ← List.append_assoc]
    exact ih (fun q hq => h q (List.mem_cons_of_mem _ hq)) _

theorem isAbsolute_name {s : Text} (h : IsName s) : isAbsolute s = false := by
  cases s with
  | nil => rfl
  | cons c s =>
    have hc : c ≠ '/' := fun hc => h.no_slash (by simp [hc])
    simp [isAbsolute, hc]

/-! ### Following a path without a tree -/

end FileTree

namespace Place

/-- Where a component leads, if all that it can lead through are folders. -/
def next : Place → Text → Place
  | .above, _ => .above
  | .inside names, c =>
    if c = ['.', '.'] then if names.isEmpty then .above else .inside names.dropLast
    else .inside (names ++ [c])

def follow (p : Place) (cs : List Text) : Place := cs.foldl next p

theorem next_parent (names : List Text) (name : Text) :
    (Place.inside (names ++ [name])).next ['.', '.'] = .inside names := by
  simp [next]

theorem next_of_ne {c : Text} (names : List Text) (h : c ≠ ['.', '.']) :
    (Place.inside names).next c = .inside (names ++ [c]) := if_neg h

end Place

namespace FileTree

variable {t : FileTree} {base names : List Text} {n m : Nat} {cs : List Text}

theorem step_inside (t : FileTree) (names : List Text) (c : Text) :
    t.step (.inside names) c =
      if t.isFolder (.inside names) then some ((Place.inside names).next c) else none := by
  simp only [step, Place.next]
  split
  · split
    · split <;> rfl
    · rfl
  · rfl

theorem next_of_step {p q : Place} {c : Text} (h : t.step p c = some q) : q = p.next c := by
  cases p with
  | above =>
    unfold step at h
    split at h
    · simp only at h
      split at h
      · cases h
        rfl
      · cases h
    · cases h
  | inside names =>
    rw [step_inside] at h
    split at h
    · cases h
      rfl
    · cases h

/-- A tree leads to where the path leads without it. -/
theorem walk_eq_follow {p q : Place} (h : t.walk p cs = some q) : q = p.follow cs := by
  induction cs generalizing p with
  | nil =>
    cases h
    rfl
  | cons c cs ih =>
    rw [walk, Option.bind_eq_some_iff] at h
    obtain ⟨q', hstep, hwalk⟩ := h
    rw [Place.follow, List.foldl_cons, ← next_of_step hstep]
    exact ih hwalk

/-! ### Depth -/

/-- How deep below a folder components lead, from a depth below it; nothing where they lead
    out of it in between. -/
def climb : Nat → List Text → Option Nat
  | n, [] => some n
  | n, c :: cs =>
    if c = ['.', '.'] then if n = 0 then none else climb (n - 1) cs
    else climb (n + 1) cs

theorem climb_append (n : Nat) (cs ds : List Text) :
    climb n (cs ++ ds) = (climb n cs).bind fun m => climb m ds := by
  induction cs generalizing n with
  | nil => rfl
  | cons c cs ih =>
    rw [List.cons_append, climb, climb]
    split
    · split
      · rfl
      · exact ih (n - 1)
    · exact ih (n + 1)

theorem climb_names (n : Nat) (h : ∀ c ∈ cs, IsName c) : climb n cs = some (n + cs.length) := by
  induction cs generalizing n with
  | nil => rfl
  | cons c cs ih =>
    obtain ⟨hc, hcs⟩ := List.forall_mem_cons.1 h
    rw [climb, if_neg hc.not_parent, ih _ hcs, List.length_cons]
    congr 1
    omega

/-- The end of a path that does not climb out of a folder, and its depth below it. -/
theorem follow_of_climb (base names : List Text) (h : climb names.length cs = some m) :
    ∃ names', names'.length = m ∧
      (Place.inside (base ++ names)).follow cs = .inside (base ++ names') := by
  induction cs generalizing names with
  | nil =>
    cases h
    exact ⟨names, rfl, rfl⟩
  | cons c cs ih =>
    rw [climb] at h
    rw [Place.follow, List.foldl_cons]
    split at h
    · next hc =>
      rcases List.eq_nil_or_concat names with rfl | ⟨front, name, rfl⟩
      · cases h
      · rw [if_neg (by simp), List.concat_eq_append, List.length_append] at h
        rw [hc, List.concat_eq_append, ← List.append_assoc, Place.next_parent]
        exact ih _ h
    · next hc =>
      rw [Place.next_of_ne _ hc, List.append_assoc]
      exact ih _ (by simpa using h)

/-! ### What the end of a path depends on -/

/-- The tree with nothing but what it has at and below some names. -/
def within (t : FileTree) (base : List Text) : FileTree where
  files := t.files.filter fun f => base.isPrefixOf f.1
  folders := t.folders.filter fun f => base.isPrefixOf f

theorem isPrefixOf_of_append {path : List Text} (h : (base ++ names).isPrefixOf path = true) :
    base.isPrefixOf path = true := by
  rw [List.isPrefixOf_iff_prefix] at h ⊢
  exact (List.prefix_append base names).trans h

theorem isFolder_of_ne_nil (t : FileTree) (h : names ≠ []) :
    t.isFolder (.inside names) =
      (t.folders.any (fun f => names.isPrefixOf f) || t.files.any (fun f => isBelow names f.1)) := by
  cases names with
  | nil => exact absurd rfl h
  | cons name names => rfl

theorem isFolder_parent {name : Text} (h : t.isFolder (.inside (names ++ [name])) = true) :
    t.isFolder (.inside names) = true := by
  by_cases hnames : names = []
  · rw [hnames]
    rfl
  rw [isFolder_of_ne_nil _ (by simp), Bool.or_eq_true, List.any_eq_true, List.any_eq_true] at h
  rw [isFolder_of_ne_nil _ hnames, Bool.or_eq_true, List.any_eq_true, List.any_eq_true]
  rcases h with ⟨f, hf, hprefix⟩ | ⟨f, hf, hbelow⟩
  · exact .inl ⟨f, hf, isPrefixOf_of_append hprefix⟩
  · simp only [isBelow, Bool.and_eq_true, decide_eq_true_eq] at hbelow ⊢
    -- the file has the longer path in front of it, so the shorter one is not its own path
    refine .inr ⟨f, hf, isPrefixOf_of_append hbelow.1, ?_⟩
    intro heq
    have hlength := (List.isPrefixOf_iff_prefix.1 hbelow.1).length_le
    rw [← heq, List.length_append, List.length_singleton] at hlength
    omega

theorem isFolder_within (t : FileTree) (hbase : base ≠ []) (names : List Text) :
    (t.within base).isFolder (.inside (base ++ names)) = t.isFolder (.inside (base ++ names)) := by
  have hne : base ++ names ≠ [] := by simp [hbase]
  rw [isFolder_of_ne_nil _ hne, isFolder_of_ne_nil _ hne, within, List.any_filter, List.any_filter]
  congr 1
  · congr 1
    funext f
    cases h : (base ++ names).isPrefixOf f with
    | false => simp
    | true => simp [isPrefixOf_of_append h]
  · congr 1
    funext f
    cases h : (base ++ names).isPrefixOf f.1 with
    | false => simp [isBelow, h]
    | true => simp [isBelow, isPrefixOf_of_append h]

theorem lookup_filter {α β : Type} [BEq α] [LawfulBEq α] {p : α → Bool} {k : α} (h : p k = true)
    (xs : List (α × β)) : (xs.filter fun x => p x.1).lookup k = xs.lookup k := by
  induction xs with
  | nil => rfl
  | cons x xs ih =>
    obtain ⟨a, b⟩ := x
    by_cases hk : k = a
    · subst hk
      simp [h]
    · have hne : (k == a) = false := by simpa using hk
      cases hp : p a with
      | false => simp [hp, List.lookup_cons, hne, ih]
      | true => simp [hp, List.lookup_cons, hne, ih]

theorem read?_within (t : FileTree) (base names : List Text) :
    (t.within base).read? (.inside (base ++ names)) = t.read? (.inside (base ++ names)) :=
  lookup_filter (p := base.isPrefixOf) (by simp [List.isPrefixOf_iff_prefix]) t.files

theorem below?_eq_none {path : List Text} {size : Nat} (h : base.isPrefixOf path = false) :
    below? (base ++ names) path size = none := by
  have hnot : (base ++ names).isPrefixOf path = false := by
    cases hp : (base ++ names).isPrefixOf path with
    | false => rfl
    | true => rw [isPrefixOf_of_append hp] at h; cases h
  rw [below?, hnot]
  rfl

theorem listing_within (t : FileTree) (base names : List Text) :
    (t.within base).listing (.inside (base ++ names)) = t.listing (.inside (base ++ names)) := by
  -- What was taken out of the tree stands in no listing below the names that were kept.
  have hkept : ∀ (path : List Text) (size : Nat),
      (if base.isPrefixOf path = true then below? (base ++ names) path size else none) =
        below? (base ++ names) path size := by
    intro path size
    split
    · rfl
    · next h => rw [below?_eq_none (eq_false_of_ne_true h)]
  simp only [listing, within, List.filterMap_filter, hkept]

/-- Along a path that does not climb out of a folder, the tree below the folder leads to the
    same place as the whole tree. -/
theorem walk_within (t : FileTree) (hbase : base ≠ []) (names : List Text)
    (h : climb names.length cs = some m) :
    (t.within base).walk (.inside (base ++ names)) cs = t.walk (.inside (base ++ names)) cs := by
  induction cs generalizing names with
  | nil => rfl
  | cons c cs ih =>
    rw [climb] at h
    rw [walk, walk, step_inside, step_inside, isFolder_within t hbase]
    split
    · rw [Option.bind_some, Option.bind_some]
      split at h
      · next hc =>
        rcases List.eq_nil_or_concat names with rfl | ⟨front, name, rfl⟩
        · cases h
        · rw [if_neg (by simp), List.concat_eq_append, List.length_append] at h
          rw [hc, List.concat_eq_append, ← List.append_assoc, Place.next_parent]
          exact ih _ h
      · next hc =>
        rw [Place.next_of_ne _ hc, List.append_assoc]
        exact ih _ (by simpa using h)
    · rfl

end FileTree
end PageAssembly
