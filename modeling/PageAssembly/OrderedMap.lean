/-
  PageAssembly/OrderedMap.lean
  ============================
  **Maps that remember the order in which their keys came.**

  Attributes of a directive, alias tables, named arguments and cache entries are all
  maps whose order shows: a key keeps the place where it first came, and takes the
  value that came last.  The map is its list of entries together with the proof that
  no key stands twice.

  Main statements: `get?_insert` (what a look-up finds after an insertion) and
  `keys_insert` (where the key stands).
-/

namespace PageAssembly

/-- A map from distinct keys to values, in the order of the keys' first insertion. -/
structure OrderedMap (κ : Type) (ν : Type) where
  entries : List (κ × ν)
  distinct : (entries.map Prod.fst).Nodup
deriving DecidableEq

namespace OrderedMap

variable {κ ν : Type} [DecidableEq κ]

/-! ### Entries as a list -/

/-- The entries with `v` under `k`: in the place of the entry that `k` has, else at the end. -/
def put (k : κ) (v : ν) : List (κ × ν) → List (κ × ν)
  | [] => [(k, v)]
  | e :: es => if e.1 = k then (k, v) :: es else e :: put k v es

/-- The value under `k` among the entries. -/
def at? (k : κ) : List (κ × ν) → Option ν
  | [] => none
  | e :: es => if e.1 = k then some e.2 else at? k es

theorem keys_put (k : κ) (v : ν) (es : List (κ × ν)) :
    (put k v es).map Prod.fst =
      if k ∈ es.map Prod.fst then es.map Prod.fst else es.map Prod.fst ++ [k] := by
  induction es with
  | nil => simp [put]
  | cons e es ih =>
    by_cases h : e.1 = k
    · simp [put, h]
    · have h' : ¬ k = e.1 := fun hk => h hk.symm
      by_cases hk : k ∈ es.map Prod.fst
      · simp only [put, h, if_false, List.map_cons, ih, if_pos hk]
        simp only [List.mem_cons, hk, or_true, if_true]
      · simp only [put, h, if_false, List.map_cons, ih, if_neg hk]
        simp only [List.mem_cons, h', hk, or_self, if_false, List.cons_append]

theorem nodup_put (k : κ) (v : ν) {es : List (κ × ν)} (h : (es.map Prod.fst).Nodup) :
    ((put k v es).map Prod.fst).Nodup := by
  rw [keys_put]
  split
  · exact h
  · next hk =>
    refine List.nodup_append.2 ⟨h, by simp, ?_⟩
    intro a ha b hb
    simp only [List.mem_singleton] at hb
    subst hb
    exact fun hab => hk (hab ▸ ha)

theorem at?_put (k j : κ) (v : ν) (es : List (κ × ν)) :
    at? j (put k v es) = if k = j then some v else at? j es := by
  induction es with
  | nil => simp [put, at?]
  | cons e es ih =>
    by_cases h : e.1 = k
    · by_cases hj : k = j <;> simp [put, at?, h, hj]
    · by_cases hj : k = j
      · subst hj
        simp [put, at?, h, ih]
      · simp [put, at?, h, ih, hj]

theorem mem_put {k : κ} {v : ν} {es : List (κ × ν)} {e : κ × ν} (h : e ∈ put k v es) :
    e = (k, v) ∨ e ∈ es := by
  induction es with
  | nil => exact .inl (List.mem_singleton.1 h)
  | cons f es ih =>
    simp only [put] at h
    split at h
    · exact (List.mem_cons.1 h).imp_right (List.mem_cons_of_mem _)
    · rcases List.mem_cons.1 h with rfl | h
      · exact .inr List.mem_cons_self
      · exact (ih h).imp_right (List.mem_cons_of_mem _)

theorem mem_of_at? {k : κ} {v : ν} {es : List (κ × ν)} (h : at? k es = some v) : (k, v) ∈ es := by
  induction es with
  | nil => cases h
  | cons e es ih =>
    unfold at? at h
    split at h
    · next hkey =>
      cases h
      exact hkey ▸ List.mem_cons_self
    · exact List.mem_cons_of_mem _ (ih h)

theorem at?_of_mem {k : κ} {v : ν} {es : List (κ × ν)} (hes : (es.map Prod.fst).Nodup)
    (h : (k, v) ∈ es) : at? k es = some v := by
  induction es with
  | nil => cases h
  | cons e es ih =>
    obtain ⟨hfresh, hes⟩ := List.nodup_cons.1 hes
    unfold at?
    rcases List.mem_cons.1 h with rfl | h
    · exact if_pos rfl
    · have hne : e.1 ≠ k := fun hkey => hfresh (hkey ▸ List.mem_map_of_mem h)
      rw [if_neg hne]
      exact ih hes h

/-! ### The map -/

def empty : OrderedMap κ ν := ⟨[], List.nodup_nil⟩

instance : EmptyCollection (OrderedMap κ ν) := ⟨empty⟩
instance : Inhabited (OrderedMap κ ν) := ⟨empty⟩

/-- The map with `v` under `k`; a key that is there keeps its place. -/
def insert (m : OrderedMap κ ν) (k : κ) (v : ν) : OrderedMap κ ν :=
  ⟨put k v m.entries, nodup_put k v m.distinct⟩

def get? (m : OrderedMap κ ν) (k : κ) : Option ν := at? k m.entries

def contains (m : OrderedMap κ ν) (k : κ) : Bool := (m.get? k).isSome

/-- The map with the entries of a list put in one after another. -/
def insertAll (m : OrderedMap κ ν) (es : List (κ × ν)) : OrderedMap κ ν :=
  es.foldl (fun m e => m.insert e.1 e.2) m

/-- The map that a list of entries gives; the last value of a key counts. -/
def ofList (es : List (κ × ν)) : OrderedMap κ ν := empty.insertAll es

def filter (m : OrderedMap κ ν) (p : κ × ν → Bool) : OrderedMap κ ν :=
  ⟨m.entries.filter p, m.distinct.sublist (List.filter_sublist.map Prod.fst)⟩

/-- The map with every value replaced by what `f` makes of its entry. -/
def mapEntries {μ : Type} (m : OrderedMap κ ν) (f : κ → ν → μ) : OrderedMap κ μ :=
  ⟨m.entries.map fun e => (e.1, f e.1 e.2), by simpa [Function.comp_def] using m.distinct⟩

def keys (m : OrderedMap κ ν) : List κ := m.entries.map Prod.fst

def size (m : OrderedMap κ ν) : Nat := m.entries.length

def isEmpty (m : OrderedMap κ ν) : Bool := m.entries.isEmpty

@[simp] theorem get?_empty (k : κ) : (empty : OrderedMap κ ν).get? k = none := rfl

@[simp] theorem get?_insert (m : OrderedMap κ ν) (k j : κ) (v : ν) :
    (m.insert k v).get? j = if k = j then some v else m.get? j :=
  at?_put k j v m.entries

theorem get?_eq_some_iff {m : OrderedMap κ ν} {k : κ} {v : ν} :
    m.get? k = some v ↔ (k, v) ∈ m.entries :=
  ⟨mem_of_at?, at?_of_mem m.distinct⟩

theorem mem_entries_insertAll {m : OrderedMap κ ν} {es : List (κ × ν)} {e : κ × ν}
    (h : e ∈ (m.insertAll es).entries) : e ∈ es ∨ e ∈ m.entries := by
  induction es generalizing m with
  | nil => exact .inr h
  | cons f es ih =>
    rcases ih h with hes | hinsert
    · exact .inl (List.mem_cons_of_mem _ hes)
    · rcases mem_put hinsert with rfl | hm
      · exact .inl List.mem_cons_self
      · exact .inr hm

theorem keys_insert (m : OrderedMap κ ν) (k : κ) (v : ν) :
    (m.insert k v).keys = if k ∈ m.keys then m.keys else m.keys ++ [k] :=
  keys_put k v m.entries

end OrderedMap
end PageAssembly
