/-
  PageAssembly/Proofs/Inclusion/Page.lean
  =======================================
  **A page with its includes filled in.**

  `weave f g` is what the reader of a page with the signs `g` should see when `f` says
  what becomes of each include: the inner text of every protected block, that text in
  the place of every include, and all other signs as they stand.

  Resolution takes a longer way.  It finds the includes in the page with placeholders,
  splices their contents in at offsets, and restores the blocks afterwards.  On every page
  the contents come to stand among the signs, one after another, in the places of the
  includes (`put`, `splice_eq_veiled_put`).  `restore_splice` says that the long way gives
  the same text for a page in which no block lies inside an include.  `values_inclusions`
  says that such a page has the same includes under all tokens.
-/
import PageAssembly.Proofs.Directive.Steady
import PageAssembly.Proofs.Verbatim.Restoring

namespace PageAssembly

/-- The include that a part of a page is. -/
def Stretch.inclusion? : Stretch Directive → Option Inclusion
  | .plain _ => none
  | .hit _ d => d.inclusion?

/-- The part with `f` in the place of an include. -/
def Stretch.woven (f : Inclusion → Text) (s : Stretch Directive) : Text :=
  match s.inclusion? with
  | some i => f i
  | none => Signs.bare s.signs

/-- The part with `f` in the place of an include; none when `f` does not know it. -/
def Stretch.woven? (f : Inclusion → Option Text) (s : Stretch Directive) : Option Text :=
  match s.inclusion? with
  | some i => f i
  | none => some (Signs.bare s.signs)

namespace Signs

/-- The includes of a page, in order. -/
def includes (g : Signs) : List Inclusion := (Directive.stretches g).filterMap Stretch.inclusion?

/-- The page with `f` in the place of every include. -/
def weave (f : Inclusion → Text) (g : Signs) : Text :=
  (Directive.stretches g).flatMap (Stretch.woven f)

/-- No protected block lies inside an include. -/
def Apart (g : Signs) : Prop :=
  ∀ s ∈ Directive.stretches g, s.inclusion?.isSome → ∀ x ∈ s.signs, x.isLetter

instance (g : Signs) : Decidable g.Apart :=
  inferInstanceAs (Decidable (∀ s ∈ Directive.stretches g, s.inclusion?.isSome → ∀ x ∈ s.signs, x.isLetter))

/-! ### Texts in the place of includes -/

/-- The parts with the letters of the next text in the place of every include, as long as
    there are texts. -/
def putAll : List (Stretch Directive) → List Text → Signs
  | [], _ => []
  | s :: ss, ts =>
    match s.inclusion?, ts with
    | some _, t :: ts => t.map .letter ++ putAll ss ts
    | _, ts => s.signs ++ putAll ss ts

/-- The page with the letters of the next text in the place of every include. -/
def put (ts : List Text) (g : Signs) : Signs := putAll (Directive.stretches g) ts

section

variable {s : Stretch Directive} {ss : List (Stretch Directive)} {ts : List Text}

theorem putAll_of_none (h : s.inclusion? = none) : putAll (s :: ss) ts = s.signs ++ putAll ss ts := by
  simp [putAll, h]

theorem putAll_nil : putAll (s :: ss) [] = s.signs ++ putAll ss [] := by simp [putAll]

theorem putAll_of_some {i : Inclusion} (h : s.inclusion? = some i) (t : Text) :
    putAll (s :: ss) (t :: ts) = t.map .letter ++ putAll ss ts := by simp [putAll, h]

end

theorem numbers_putAll_sublist (ss : List (Stretch Directive)) (ts : List Text) :
    (putAll ss ts).numbers.Sublist (Signs.numbers (ss.flatMap Stretch.signs)) := by
  induction ss generalizing ts with
  | nil => exact List.Sublist.refl _
  | cons s ss ih =>
    rw [List.flatMap_cons, numbers_append]
    unfold putAll
    split
    · rw [numbers_append, numbers_letters, List.nil_append]
      exact (ih _).trans (List.sublist_append_right _ _)
    · rw [numbers_append]
      exact List.Sublist.append (List.Sublist.refl _) (ih _)

theorem block_mem_of_mem_putAll {ss : List (Stretch Directive)} {ts : List Text} {n : Nat} {w : Text}
    (h : Sign.block n w ∈ putAll ss ts) : Sign.block n w ∈ ss.flatMap Stretch.signs := by
  induction ss generalizing ts with
  | nil => cases h
  | cons s ss ih =>
    rw [List.flatMap_cons, List.mem_append]
    unfold putAll at h
    split at h
    · rcases List.mem_append.1 h with h | h
      · obtain ⟨c, _, hc⟩ := List.mem_map.1 h
        cases hc
      · exact Or.inr (ih h)
    · exact (List.mem_append.1 h).imp id ih

/-- Nothing but includes is replaced. -/
theorem mem_putAll {ss : List (Stretch Directive)} {s : Stretch Directive} (hs : s ∈ ss)
    (hnone : s.inclusion? = none) {x : Sign} (hx : x ∈ s.signs) (ts : List Text) :
    x ∈ putAll ss ts := by
  induction ss generalizing ts with
  | nil => cases hs
  | cons s' ss ih =>
    unfold putAll
    rcases List.mem_cons.1 hs with rfl | hs
    · rw [hnone]
      exact List.mem_append_left _ hx
    · split <;> exact List.mem_append_right _ (ih hs _)

theorem signs_stretches (g : Signs) : (Directive.stretches g).flatMap Stretch.signs = g := by
  obtain ⟨ss, hss, -, -, hstretches⟩ := Directive.exists_stretches g
  have hsigns : ∀ s : Stretch (Veil → Directive), (s.map fun d => d Veil.bar).signs = s.signs := by
    intro s
    cases s <;> rfl
  rw [hstretches, List.flatMap_map, ← hss]
  simp only [hsigns]

theorem numbers_put_sublist (ts : List Text) (g : Signs) : (g.put ts).numbers.Sublist g.numbers := by
  have h := numbers_putAll_sublist (Directive.stretches g) ts
  rwa [signs_stretches] at h

theorem block_mem_of_mem_put {ts : List Text} {g : Signs} {n : Nat} {w : Text}
    (h : Sign.block n w ∈ g.put ts) : Sign.block n w ∈ g := by
  have hg := block_mem_of_mem_putAll h
  rwa [signs_stretches] at hg

theorem bare_putAll_map (f : Inclusion → Text) (ss : List (Stretch Directive)) :
    (putAll ss ((ss.filterMap Stretch.inclusion?).map f)).bare = ss.flatMap (Stretch.woven f) := by
  induction ss with
  | nil => rfl
  | cons s ss ih =>
    rw [List.flatMap_cons, Stretch.woven, ← ih]
    cases hs : s.inclusion? with
    | none => rw [List.filterMap_cons_none hs, putAll_of_none hs, bare_append]
    | some i =>
      rw [List.filterMap_cons_some hs, List.map_cons, putAll_of_some hs, bare_append, bare_letters]

theorem bare_put_map (f : Inclusion → Text) (g : Signs) :
    (g.put (g.includes.map f)).bare = g.weave f := bare_putAll_map f _

/-! ### The includes under a veil -/

/-- An include says the same under all veils, and what is none is none under any. -/
theorem Apart.inclusion?_eq {g : Signs} (hg : g.Apart) {ss : List (Stretch (Veil → Directive))}
    (hsaid : ∀ h d, Stretch.hit h d ∈ ss → Directive.Says h d)
    (hstretches : Directive.stretches g = ss.map (Stretch.map fun d => d Veil.bar))
    {v : Veil} (hv : v.Wordlike) {s : Stretch (Veil → Directive)} (hs : s ∈ ss) :
    (s.map fun d => d v).inclusion? = (s.map fun d => d Veil.bar).inclusion? := by
  cases s with
  | plain x => rfl
  | hit h d =>
    have hd := hsaid h d hs
    -- an include is all letters, and so says the same; what is none is none under every veil
    by_cases hsome : (d Veil.bar).inclusion?.isSome
    · have hmem : Stretch.hit h (d Veil.bar) ∈ Directive.stretches g := by
        rw [hstretches]
        exact List.mem_map_of_mem hs
      have hletters := hg _ hmem hsome
      exact congrArg Directive.inclusion? (hd.eq_of_letters hletters v Veil.bar)
    · have hnone : (d v).inclusion? = none := by
        rw [← Option.not_isSome_iff_eq_none, hd.isSome_inclusion? hv Veil.wordlike_bar]
        exact hsome
      have hbar : (d Veil.bar).inclusion? = none := Option.not_isSome_iff_eq_none.1 hsome
      exact hnone.trans hbar.symm

theorem values_pieces (v : Veil) (ss : List (Stretch (Veil → Directive))) :
    (Pattern.values (ss.flatMap (Stretch.pieces v))).filterMap Directive.inclusion? =
      ss.filterMap fun s => (s.map fun d => d v).inclusion? := by
  induction ss with
  | nil => rfl
  | cons s ss ih =>
    cases s with
    | plain x =>
      rw [List.flatMap_cons, Pattern.values_append, Stretch.pieces, Pattern.values_plain,
        List.nil_append, ih]
      rfl
    | hit h d =>
      rw [List.flatMap_cons, Stretch.pieces, List.singleton_append, Pattern.values_hit,
        List.filterMap_cons, List.filterMap_cons, ih]
      rfl

theorem map_value_collect (f : Directive → Option α) (s : Text) :
    (Directive.collect f s).map Located.value =
      (Pattern.values (Directive.pattern.pieces s)).filterMap f := by
  rw [← Pattern.map_value_locate 0, Directive.collect, Directive.find, Pattern.find]
  induction Pattern.locate 0 (Directive.pattern.pieces s) with
  | nil => rfl
  | cons m ms ih =>
    cases h : f m.value with
    | none => simpa [Located.filterMap, h] using ih
    | some b => simpa [Located.filterMap, h] using ih

/-- A page has the same includes whatever its placeholders are. -/
theorem Apart.values_inclusions {g : Signs} (hg : g.Apart) {v : Veil} (hv : v.Wordlike) :
    (Directive.inclusions (g.veiled v)).map Located.value = g.includes := by
  obtain ⟨ss, -, hsaid, hpieces, hstretches⟩ := Directive.exists_stretches g
  rw [Directive.inclusions, map_value_collect, hpieces v hv, values_pieces, includes, hstretches,
    List.filterMap_map]
  exact List.filterMap_congr fun s hs => hg.inclusion?_eq hsaid hstretches hv hs

/-! ### Filling in -/

theorem veiled_putAll {v : Veil} (hv : v.Wordlike) {ss : List (Stretch (Veil → Directive))}
    (hsaid : ∀ h d, Stretch.hit h d ∈ ss → Directive.Says h d) (ts : List Text) :
    (putAll (ss.map (Stretch.map fun d => d Veil.bar)) ts).veiled v =
      (Pattern.assign Directive.inclusion? (ss.flatMap (Stretch.pieces v)) ts).flatMap
        (Pattern.replaced id) := by
  induction ss generalizing ts with
  | nil => rfl
  | cons s ss ih =>
    have htail := fun ts => ih (fun h d hd => hsaid h d (List.mem_cons_of_mem _ hd)) ts
    rw [List.map_cons, List.flatMap_cons]
    cases s with
    | plain x =>
      rw [putAll_of_none rfl, veiled_append, Stretch.pieces, Pattern.assign_plain,
        List.flatMap_append, ← htail]
      simp [Stretch.map, Stretch.signs, List.flatMap_map, Pattern.replaced]
    | hit h d =>
      have hsame := (hsaid h d List.mem_cons_self).isSome_inclusion? hv Veil.wordlike_bar
      rw [Stretch.pieces, List.singleton_append]
      cases hd : (d v).inclusion? with
      | none =>
        have hbar : (Stretch.hit h (d Veil.bar)).inclusion? = none := by
          rw [hd] at hsame
          exact Option.isNone_iff_eq_none.1 (Option.isSome_eq_false_iff.1 hsame.symm)
        rw [Stretch.map, putAll_of_none hbar, Pattern.assign_of_none hd, veiled_append, htail,
          List.flatMap_cons]
        rfl
      | some i =>
        obtain ⟨j, hbar⟩ : ∃ j, (Stretch.hit h (d Veil.bar)).inclusion? = some j := by
          rw [hd] at hsame
          exact Option.isSome_iff_exists.1 hsame.symm
        rw [Stretch.map]
        cases ts with
        | nil =>
          rw [putAll_nil, Pattern.assign_nil, veiled_append, htail, List.flatMap_cons]
          rfl
        | cons t ts =>
          rw [putAll_of_some hbar, Pattern.assign_of_some hd, veiled_append, veiled_letters, htail,
            List.flatMap_cons]
          rfl

/-- Texts that are spliced into a masked page for its includes stand among its signs. -/
theorem splice_eq_veiled_put {v : Veil} (hv : v.Wordlike) (g : Signs) (ts : List Text) :
    (g.veiled v).splice (List.zipWith Pattern.editWith (Directive.inclusions (g.veiled v)) ts) =
      (g.put ts).veiled v := by
  obtain ⟨ss, -, hsaid, hpieces, hstretches⟩ := Directive.exists_stretches g
  rw [put, hstretches, veiled_putAll hv hsaid, ← hpieces v hv]
  exact Pattern.splice_zipWith _ _ _ _

/-- What resolution puts in the place of an include, when `f` says what becomes of each. -/
def fill (f : Inclusion → Text) (i : Located Inclusion) : Edit := ⟨i.start, i.stop, f i.value⟩

/-- The includes of a masked page are filled in among its signs. -/
theorem Apart.splice_eq_veiled {g : Signs} (hg : g.Apart) {v : Veil} (hv : v.Wordlike)
    (f : Inclusion → Text) :
    (g.veiled v).splice ((Directive.inclusions (g.veiled v)).map (fill f)) =
      (g.put (g.includes.map f)).veiled v := by
  rw [← splice_eq_veiled_put hv, ← hg.values_inclusions hv, List.map_map, List.zipWith_map_right,
    List.zipWith_self]
  rfl

/-- Splicing the contents into the masked page and restoring its blocks fills the page in.
    The page may have lost signs before. -/
theorem Apart.restore_splice {t s : Text} (ht : Verbatim.IsToken t) {g : Signs} (hg : g.Apart)
    (hsub : g.Sublist (Verbatim.signs s)) (f : Inclusion → Text) (hfree : ¬ t <:+: g.weave f) :
    Verbatim.restore (Verbatim.blocks t s)
        ((g.veiled (Verbatim.placeholder t)).splice
          ((Directive.inclusions (g.veiled (Verbatim.placeholder t))).map (fill f))) =
      g.weave f := by
  rw [hg.splice_eq_veiled (Verbatim.wordlike_placeholder ht), ← bare_put_map]
  rw [← bare_put_map] at hfree
  -- What was lost from the page, and what was put in, are no blocks that could be restored twice.
  refine Verbatim.restore_veiled ht hfree
    ((Verbatim.nodup_numbers hsub).sublist (numbers_put_sublist _ g)) ?_
  exact fun m w hw => hsub.subset (block_mem_of_mem_put hw)

/-! ### Filling in what may not be known -/

/-- The page with `f` in the place of every include; none when `f` does not know one. -/
def weave? (f : Inclusion → Option Text) (g : Signs) : Option Text :=
  ((Directive.stretches g).mapM (Stretch.woven? f)).map List.flatten

theorem mapM_woven? {f? : Inclusion → Option Text} {f : Inclusion → Text}
    {ss : List (Stretch Directive)}
    (h : ∀ i ∈ ss.filterMap Stretch.inclusion?, f? i = some (f i)) :
    ss.mapM (Stretch.woven? f?) = some (ss.map (Stretch.woven f)) := by
  induction ss with
  | nil => rfl
  | cons s ss ih =>
    cases hs : s.inclusion? with
    | none =>
      have htail := ih fun i hi => h i (by simpa [hs] using hi)
      simp [List.mapM_cons, Stretch.woven?, hs, htail, Stretch.woven]
    | some i =>
      have hhead := h i (by simp [hs])
      have htail := ih fun j hj => h j (by
        rw [List.filterMap_cons, hs]
        exact List.mem_cons_of_mem _ hj)
      simp [List.mapM_cons, Stretch.woven?, hs, htail, hhead, Stretch.woven]

theorem weave?_eq_some {f? : Inclusion → Option Text} {f : Inclusion → Text} {g : Signs}
    (h : ∀ i ∈ g.includes, f? i = some (f i)) : g.weave? f? = some (g.weave f) := by
  rw [weave?, mapM_woven? h, weave]
  rfl

theorem mapM_woven?_mono {f f' : Inclusion → Option Text} (h : ∀ i x, f i = some x → f' i = some x)
    {ss : List (Stretch Directive)} {xs : List Text} (hss : ss.mapM (Stretch.woven? f) = some xs) :
    ss.mapM (Stretch.woven? f') = some xs := by
  induction ss generalizing xs with
  | nil => exact hss
  | cons s ss ih =>
    simp only [List.mapM_cons, Option.bind_eq_bind, Option.bind_eq_some_iff, Option.pure_def,
      Option.some.injEq] at hss ⊢
    obtain ⟨x, hx, xs', hxs', rfl⟩ := hss
    refine ⟨x, ?_, xs', ih hxs', rfl⟩
    rw [Stretch.woven?] at hx ⊢
    cases hs : s.inclusion? with
    | none => rwa [hs] at hx
    | some i =>
      rw [hs] at hx
      exact h i x hx

theorem weave?_mono {f f' : Inclusion → Option Text} (h : ∀ i x, f i = some x → f' i = some x)
    {g : Signs} {text : Text} (hg : g.weave? f = some text) : g.weave? f' = some text := by
  simp only [weave?, Option.map_eq_some_iff] at hg ⊢
  obtain ⟨xs, hxs, rfl⟩ := hg
  exact ⟨xs, mapM_woven?_mono h hxs, rfl⟩

theorem mapM_woven?_unique {f f' : Inclusion → Option Text} {ss : List (Stretch Directive)}
    (h : ∀ i ∈ ss.filterMap Stretch.inclusion?, ∀ a b, f i = some a → f' i = some b → a = b)
    {xs ys : List Text} (hxs : ss.mapM (Stretch.woven? f) = some xs)
    (hys : ss.mapM (Stretch.woven? f') = some ys) : xs = ys := by
  induction ss generalizing xs ys with
  | nil => exact Option.some.inj (hxs.symm.trans hys)
  | cons s ss ih =>
    simp only [List.mapM_cons, Option.bind_eq_bind, Option.bind_eq_some_iff, Option.pure_def,
      Option.some.injEq] at hxs hys
    obtain ⟨x, hx, xs', hxs', rfl⟩ := hxs
    obtain ⟨y, hy, ys', hys', rfl⟩ := hys
    rw [Stretch.woven?] at hx hy
    cases hs : s.inclusion? with
    | none =>
      rw [hs] at hx hy
      have htail := ih (fun i hi => h i (by rwa [List.filterMap_cons_none hs])) hxs' hys'
      rw [Option.some.inj (hx.symm.trans hy), htail]
    | some i =>
      rw [hs] at hx hy
      rw [List.filterMap_cons_some hs, List.forall_mem_cons] at h
      rw [h.1 x y hx hy, ih h.2 hxs' hys']

/-- A page is filled in in one way, if what is known of its includes is the same. -/
theorem weave?_unique {f f' : Inclusion → Option Text} {g : Signs} {text text' : Text}
    (h : ∀ i ∈ g.includes, ∀ a b, f i = some a → f' i = some b → a = b)
    (htext : g.weave? f = some text) (htext' : g.weave? f' = some text') : text = text' := by
  simp only [weave?, Option.map_eq_some_iff] at htext htext'
  obtain ⟨xs, hxs, rfl⟩ := htext
  obtain ⟨ys, hys, rfl⟩ := htext'
  rw [mapM_woven?_unique h hxs hys]

/-- A page is filled in for good once each of its includes is. -/
theorem exists_weave? {f : Nat → Inclusion → Option Text} {g : Signs} {r : Nat}
    (h : ∀ i ∈ g.includes, ∃ text, ∀ n, r ≤ n → f n i = some text) :
    ∃ text, ∀ n, r ≤ n → g.weave? (f n) = some text := by
  choose! text htext using h
  exact ⟨g.weave text, fun n hn => weave?_eq_some fun i hi => htext i hi n hn⟩

end Signs
end PageAssembly
