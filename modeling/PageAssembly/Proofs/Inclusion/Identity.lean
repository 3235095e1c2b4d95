/-
  PageAssembly/Proofs/Inclusion/Identity.lean
  ===========================================
  **What a resolution key tells of the call.**

  A key joins the contract, the function, the path and the parameters with separators, and
  escapes nothing.  So it can be taken apart again only where no part holds the separator
  behind it: then includes with one key make one call (`call_same_of_key_eq`).  The names of
  parameters are words, which hold no separator anyway.

  Where a separator does occur, two different calls may share a key (`keys_collide`), and so
  a fetch and a cache entry.
-/
import PageAssembly.Inclusion.Resolution
import PageAssembly.Proofs.Text.Weaving
import PageAssembly.Proofs.Verbatim.Restoring

namespace PageAssembly

/-! ### Calls up to the order of named arguments -/

/-- The arguments are the same; named arguments may come in any order. -/
def Arguments.Same : Arguments → Arguments → Prop
  | .positional as, .positional bs => as = bs
  | .named m, .named n => m.entries.Perm n.entries
  | _, _ => False

instance : DecidableRel Arguments.Same
  | .positional as, .positional bs => inferInstanceAs (Decidable (as = bs))
  | .named m, .named n => inferInstanceAs (Decidable (m.entries.Perm n.entries))
  | .positional _, .named _ => inferInstanceAs (Decidable False)
  | .named _, .positional _ => inferInstanceAs (Decidable False)

/-- The calls have one target, one function and the same arguments. -/
def Call.Same (c d : Call) : Prop :=
  c.target = d.target ∧ c.function = d.function ∧ c.arguments.Same d.arguments

instance : DecidableRel Call.Same := fun _ _ => inferInstanceAs (Decidable (_ ∧ _ ∧ _))

/-! ### The names of attributes -/

/-- All names are words that are not empty. -/
def Attributes.Named (m : Attributes) : Prop :=
  ∀ e ∈ m.entries, e.1 ≠ [] ∧ ∀ c ∈ e.1, Text.isWord c = true

theorem Attributes.named_ofText (s : Text) : (ofText s).Named := by
  intro e he
  rcases OrderedMap.mem_entries_insertAll he with he | he
  · obtain ⟨m, hm, rfl⟩ := List.mem_map.1 he
    obtain ⟨r, hread⟩ := Pattern.read_of_hit (Pattern.hit_of_mem_locate hm)
    simp only [Attribute.pattern, Attribute.readAttribute, Option.map_eq_some_iff] at hread
    obtain ⟨⟨n, t⟩, hn, hread⟩ := hread
    have hvalue : m.value.1 = n := by
      split at hread
      · exact (congrArg (·.1.1) hread).symm
      · exact (congrArg (·.1.1) hread).symm
    rw [hvalue]
    refine ⟨(Attribute.nonempty_of_readName hn).1, ?_⟩
    simp only [Attribute.readName] at hn
    split at hn
    · cases hn
    · next hw =>
      cases hn
      rw [← hw]
      exact List.all_eq_true.1 List.all_takeWhile
  · cases he

/-- The parameters of an include that a text holds are named by words. -/
theorem Directive.named_params {s : Text} {i : Located Inclusion} (hi : i ∈ inclusions s) :
    i.value.params.Named := by
  obtain ⟨m, hm, hmi⟩ := List.mem_filterMap.1 hi
  obtain ⟨j, hj, rfl⟩ := Option.map_eq_some_iff.1 hmi
  obtain ⟨r, hread⟩ := Pattern.read_of_hit (Pattern.hit_of_mem_locate hm)
  simp only [pattern, readDirective, Option.bind_eq_bind, Option.bind_eq_some_iff, Option.pure_def,
    Option.some.injEq, Prod.mk.injEq] at hread
  obtain ⟨_, -, ⟨k, u⟩, -, ⟨b, v⟩, -, hvalue, -⟩ := hread
  have hattributes : j.attributes = Attributes.ofText b := by
    rw [← hvalue] at hj
    simp only [inclusion?] at hj
    split at hj
    · obtain ⟨c, -, rfl⟩ := Option.map_eq_some_iff.1 hj
      rfl
    · cases hj
  intro e he
  have hmem : e ∈ j.attributes.entries := List.mem_of_mem_filter he
  rw [hattributes] at hmem
  exact Attributes.named_ofText b e hmem

namespace Inclusion

/-! ### Taking a key apart -/

/-- No part of the include holds the separator behind it, and a path that is given is not
    empty. -/
structure Separable (i : Inclusion) (target : Text) : Prop where
  target : ':' ∉ target
  func : '|' ∉ i.func.getD []
  path : '|' ∉ i.path.getD []
  given : i.path ≠ some []
  params : ∀ e ∈ i.params.entries, ',' ∉ keyPart e

instance (i : Inclusion) (target : Text) : Decidable (i.Separable target) :=
  decidable_of_iff (':' ∉ target ∧ '|' ∉ i.func.getD [] ∧ '|' ∉ i.path.getD [] ∧ i.path ≠ some [] ∧
      ∀ e ∈ i.params.entries, ',' ∉ keyPart e)
    ⟨fun ⟨h₁, h₂, h₃, h₄, h₅⟩ => ⟨h₁, h₂, h₃, h₄, h₅⟩, fun ⟨h₁, h₂, h₃, h₄, h₅⟩ => ⟨h₁, h₂, h₃, h₄, h₅⟩⟩

theorem insertByName_perm (e : Text × AttributeValue) (es : List (Text × AttributeValue)) :
    (insertByName e es).Perm (e :: es) := by
  induction es with
  | nil => exact .refl _
  | cons f es ih =>
    unfold insertByName
    split
    · exact .refl _
    · exact (ih.cons f).trans (.swap e f es)

theorem byName_perm (params : Attributes) : (byName params).Perm params.entries := by
  have hperm : ∀ es : List (Text × AttributeValue), (es.foldr insertByName []).Perm es := by
    intro es
    induction es with
    | nil => exact .refl _
    | cons e es ih => exact (insertByName_perm e _).trans (ih.cons e)
  exact hperm params.entries

theorem eq_nil_of_intercalate {ps : List Text} (hps : ∀ p ∈ ps, p ≠ [])
    (h : [','].intercalate ps = []) : ps = [] := by
  rcases ps with - | ⟨p, - | ⟨q, ps⟩⟩
  · rfl
  · simp [hps p] at h
  · simp at h

/-- Parts that are not empty can be told apart between commas. -/
theorem intercalate_inj {ps qs : List Text} (hps : ∀ p ∈ ps, ',' ∉ p ∧ p ≠ [])
    (hqs : ∀ q ∈ qs, ',' ∉ q ∧ q ≠ []) (h : [','].intercalate ps = [','].intercalate qs) :
    ps = qs := by
  by_cases hp : ps = []
  · subst hp
    exact (eq_nil_of_intercalate (fun q hq => (hqs q hq).2) h.symm).symm
  · by_cases hq : qs = []
    · subst hq
      exact eq_nil_of_intercalate (fun p hp => (hps p hp).2) h
    · rw [← List.splitOn_intercalate ',' (fun p hp => (hps p hp).1) hp, h,
        List.splitOn_intercalate ',' (fun q hq => (hqs q hq).1) hq]

theorem keyPart_inj {e f : Text × AttributeValue} (he : '=' ∉ e.1) (hf : '=' ∉ f.1)
    (h : keyPart e = keyPart f) : e = f := by
  obtain ⟨n, v⟩ := e
  obtain ⟨m, w⟩ := f
  cases v with
  | flag =>
    cases w with
    | flag => rw [show n = m from h]
    | text w =>
      -- The name of the flag would hold the equals sign that ends the other name.
      have hn : n = m ++ '=' :: w := h
      exact absurd (by simp [hn]) he
  | text v =>
    cases w with
    | flag =>
      have hm : n ++ '=' :: v = m := h
      exact absurd (by simp [← hm]) hf
    | text w =>
      obtain ⟨rfl, rfl⟩ := Text.append_cons_inj he hf h
      rfl

theorem map_keyPart_inj {es fs : List (Text × AttributeValue)} (hes : ∀ e ∈ es, '=' ∉ e.1)
    (hfs : ∀ f ∈ fs, '=' ∉ f.1) (h : es.map keyPart = fs.map keyPart) : es = fs := by
  induction es generalizing fs with
  | nil => exact (List.map_eq_nil_iff.1 h.symm).symm
  | cons e es ih =>
    cases fs with
    | nil => cases h
    | cons f fs =>
      obtain ⟨hhead, htail⟩ := List.cons.inj h
      obtain ⟨he, hes⟩ := List.forall_mem_cons.1 hes
      obtain ⟨hf, hfs⟩ := List.forall_mem_cons.1 hfs
      rw [keyPart_inj he hf hhead, ih hes hfs htail]

theorem not_mem_of_named {m : Attributes} (hm : m.Named) {e : Text × AttributeValue}
    (he : e ∈ m.entries) {c : Char} (hc : Text.isWord c = false) : c ∉ e.1 := by
  intro hmem
  have hword := (hm e he).2 c hmem
  rw [hc] at hword
  cases hword

theorem keyPart_ne_nil {m : Attributes} (hm : m.Named) {e : Text × AttributeValue}
    (he : e ∈ m.entries) : keyPart e ≠ [] := by
  obtain ⟨name, v⟩ := e
  cases v with
  | flag => exact (hm _ he).1
  | text v => simp [keyPart]

/-- Separable includes with one key have one contract, function, path and set of parameters. -/
theorem parts_of_key_eq {i j : Inclusion} {t u : Text} (hi : i.Separable t) (hj : j.Separable u)
    (hinamed : i.params.Named) (hjnamed : j.params.Named) (h : i.key t = j.key u) :
    t = u ∧ i.func.getD [] = j.func.getD [] ∧ i.path = j.path ∧
      i.params.entries.Perm j.params.entries := by
  obtain ⟨htarget, hrest⟩ := Text.append_cons_inj hi.target hj.target h
  obtain ⟨hfunc, hrest⟩ := Text.append_cons_inj hi.func hj.func hrest
  obtain ⟨hpath, hrest⟩ := Text.append_cons_inj hi.path hj.path hrest
  have hparts : (byName i.params).map keyPart = (byName j.params).map keyPart := by
    apply intercalate_inj ?_ ?_ hrest
    · intro p hp
      obtain ⟨e, he, rfl⟩ := List.mem_map.1 hp
      exact ⟨hi.params e ((byName_perm _).subset he), keyPart_ne_nil hinamed ((byName_perm _).subset he)⟩
    · intro p hp
      obtain ⟨e, he, rfl⟩ := List.mem_map.1 hp
      exact ⟨hj.params e ((byName_perm _).subset he), keyPart_ne_nil hjnamed ((byName_perm _).subset he)⟩
  have hequals : ∀ {m : Attributes}, m.Named → ∀ e ∈ byName m, '=' ∉ e.1 := fun hm e he =>
    not_mem_of_named hm ((byName_perm _).subset he) (by decide)
  have hsorted := map_keyPart_inj (hequals hinamed) (hequals hjnamed) hparts
  refine ⟨htarget, hfunc, ?_, ?_⟩
  -- A missing path and an empty one look the same in a key.
  · have hgiven := hi.given
    have hgiven' := hj.given
    cases hp : i.path <;> cases hq : j.path <;> simp_all
  · exact ((byName_perm _).symm.trans (hsorted ▸ .refl _)).trans (byName_perm _)

/-! ### What a call takes from its include -/

theorem isParameterized_eq (i : Inclusion) :
    i.isParameterized = (!i.params.isEmpty || Text.endsWith "_include".toList (i.func.getD [])) := by
  unfold isParameterized
  cases i.func <;> rfl

theorem arguments_same {i j : Inclusion} (hfunc : i.func.getD [] = j.func.getD [])
    (hpath : i.path = j.path) (hparams : i.params.entries.Perm j.params.entries)
    (viewer : Option Text) (aliases : Aliases) :
    (i.arguments viewer aliases).Same (j.arguments viewer aliases) := by
  have hempty : i.params.isEmpty = j.params.isEmpty := hparams.isEmpty_eq
  have hkind : i.isParameterized = j.isParameterized := by
    rw [isParameterized_eq, isParameterized_eq, hempty, hfunc]
  unfold arguments
  rw [hkind]
  split
  · exact hparams.map _
  · rw [hpath]
    rfl

end Inclusion

theorem renderFunction_getD (func : Option Text) :
    renderFunction func = renderFunction (some (func.getD [])) := by
  cases func <;> rfl

namespace Resolution

open Inclusion (Separable)

/-- Separable includes with one key make the same call, wherever they are found. -/
theorem call_same_of_key_eq {s s' : Text} {i j : Located Inclusion}
    (hi : i ∈ Directive.inclusions s) (hj : j ∈ Directive.inclusions s')
    (contract contract' : Text) (viewer : Option Text) (aliases : Aliases)
    (hsi : i.value.Separable (plan contract aliases i).target)
    (hsj : j.value.Separable (plan contract' aliases j).target)
    (hkey : (plan contract aliases i).key = (plan contract' aliases j).key) :
    ((plan contract aliases i).call viewer aliases).Same
      ((plan contract' aliases j).call viewer aliases) := by
  obtain ⟨htarget, hfunc, hpath, hparams⟩ := Inclusion.parts_of_key_eq hsi hsj
    (Directive.named_params hi) (Directive.named_params hj) hkey
  refine ⟨htarget, ?_, Inclusion.arguments_same hfunc hpath hparams viewer aliases⟩
  simp only [Planned.call, plan]
  rw [renderFunction_getD, hfunc, ← renderFunction_getD]

/-- A contract may be named by an alias or be the current one, and parameters may be
    swapped. -/
theorem call_same_of_swapped :
    ∃ i ∈ Directive.inclusions "{{include contract=@x func=f b=2 a}}".toList,
    ∃ j ∈ Directive.inclusions "{{include a contract=SELF b=2 func=f}}".toList,
      ((plan "Z".toList (.ofList [("x".toList, "Y".toList)]) i).call none
          (.ofList [("x".toList, "Y".toList)])).Same
        ((plan "Y".toList (.ofList [("x".toList, "Y".toList)]) j).call none
          (.ofList [("x".toList, "Y".toList)])) := by
  have hkeys : ∃ i ∈ Directive.inclusions "{{include contract=@x func=f b=2 a}}".toList,
      ∃ j ∈ Directive.inclusions "{{include a contract=SELF b=2 func=f}}".toList,
        let aliases : Aliases := .ofList [("x".toList, "Y".toList)]
        i.value.Separable (plan "Z".toList aliases i).target ∧
        j.value.Separable (plan "Y".toList aliases j).target ∧
        (plan "Z".toList aliases i).key = (plan "Y".toList aliases j).key := by
    decide +kernel
  obtain ⟨i, hi, j, hj, hsi, hsj, hkey⟩ := hkeys
  exact ⟨i, hi, j, hj, call_same_of_key_eq hi hj _ _ _ _ hsi hsj hkey⟩

/-- One key stands for different calls of the two includes, though the second is separable. -/
def Confused (i j : Located Inclusion) : Prop :=
  j.value.Separable (plan [] OrderedMap.empty j).target ∧
    (plan [] OrderedMap.empty i).key = (plan [] OrderedMap.empty j).key ∧
    ¬ ((plan [] OrderedMap.empty i).call none OrderedMap.empty).Same
      ((plan [] OrderedMap.empty j).call none OrderedMap.empty)

instance (i j : Located Inclusion) : Decidable (Confused i j) := inferInstanceAs (Decidable (_ ∧ _ ∧ ¬ _))

/-- Pairs of includes.  The first of each pair is not separable, each time for another reason. -/
def collisions : List (Text × Text) :=
  [("{{include contract=X:f}}", "{{include contract=X func=f:}}"),
    ("{{include contract=X func=a|b path=c=}}", "{{include contract=X func=a path=b c=|}}"),
    ("{{include contract=X path=a|b=}}", "{{include contract=X path=a b=|}}"),
    ("\x7b\x7binclude contract=X path=\"\"\x7d\x7d", "{{include contract=X}}"),
    ("{{include contract=X limit=1,offset=2}}", "{{include contract=X limit=1 offset=2}}")].map
    fun p => (p.1.toList, p.2.toList)

theorem keys_collide : collisions.Forall fun p =>
    ∃ i ∈ Directive.inclusions p.1, ∃ j ∈ Directive.inclusions p.2, Confused i j := by
  decide +kernel

end Resolution
end PageAssembly
