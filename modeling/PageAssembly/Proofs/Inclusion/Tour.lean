/-
  PageAssembly/Proofs/Inclusion/Tour.lean
  =======================================
  **The naive expansion of a page with aliases in scope.**

  An alias holds in the document that defines it and in all documents below it, and
  nowhere else.  So an include is met with a table of its own: the one that the asked page
  was started with, extended by the definitions of every document that the include is
  nested in, from the outermost to the innermost.  `Scoped` is an include with its table, and
  `Tour.expand` is the expansion that reads every include in its scope and keeps nothing.

  A tour is what there is to expand in this way.  Two tours *agree* when includes with one
  key expand to one text, whatever their tables are; tours that agree fit on one sheet
  that gives the text of a key (`exists_sheet`).  An orderly tour has a ranking, along which
  the expansion ends (`Orderly.exists_ranking`).
-/
import PageAssembly.Proofs.Alias.Reading
import PageAssembly.Proofs.Inclusion.Journey

namespace PageAssembly

/-- An include with the aliases in force in the document that it stands in. -/
structure Scoped extends Link where
  aliases : Aliases

deriving instance DecidableEq for Inclusion, Link, Scoped

namespace Scoped

def of (inForce : Aliases) (contract : Text) (i : Inclusion) : Scoped :=
  ⟨Link.of inForce contract i, inForce⟩

def key (x : Scoped) : Text := x.toLink.key

/-- The call that the include makes; aliases in its arguments are those of its scope. -/
def call (x : Scoped) (viewer : Option Text) : Call := x.toLink.call viewer x.aliases

/-- The aliases in force in the page `s` of the include: its own, over those around the include. -/
def inForce (x : Scoped) (s : Text) : Aliases := Aliases.extend x.aliases (Alias.own s)

end Scoped

/-- The includes of a page that belongs to `contract`, where the aliases `inForce` hold. -/
def Signs.scoped (g : Signs) (inForce : Aliases) (contract : Text) : List Scoped :=
  g.includes.map (Scoped.of inForce contract)

/-- The page with the texts that the sheet has for the keys of its includes. -/
def Signs.filledFrom (g : Signs) (inForce : Aliases) (contract : Text) (sheet : Text → Text) : Text :=
  g.weave fun i => sheet (Scoped.of inForce contract i).key

def Scoped.inner (x : Scoped) (s : Text) : List Scoped :=
  (Alias.body s).scoped (x.inForce s) x.target

/-- What there is to expand. -/
structure Tour where
  answers : Call → Except RemoteFailure Text
  viewer : Option Text
  top : List Scoped

namespace Tour

def reply (j : Tour) (x : Scoped) : Except RemoteFailure Text := j.answers (x.call j.viewer)

/-- The include is one that the expansion comes by. -/
inductive Meets (j : Tour) : Scoped → Prop
  | top {x : Scoped} : x ∈ j.top → Meets j x
  | inner {x x' : Scoped} {s : Text} :
      Meets j x → j.reply x = .ok s → x' ∈ x.inner s → Meets j x'

def Leads (j : Tour) (a b : Text) : Prop :=
  ∃ x s x', j.Meets x ∧ j.reply x = .ok s ∧ x' ∈ x.inner s ∧ x.key = a ∧ x'.key = b

/-- The text of an include in its scope, when includes are nested less deep than the bound. -/
def expand (j : Tour) : Nat → Scoped → Option Text
  | 0, _ => none
  | n + 1, x =>
    match j.reply x with
    | .error e => some (Marker.includeFailed e.reason)
    | .ok s => (Alias.body s).weave? fun i => expand j n (.of (x.inForce s) x.target i)

/-- A page in which the aliases `inForce` hold, with its includes expanded. -/
def expandPage (j : Tour) (n : Nat) (inForce : Aliases) (contract : Text) (g : Signs) :
    Option Text :=
  g.weave? fun i => j.expand n (.of inForce contract i)

/-- Includes with one key, of one tour or of two, expand to one text. -/
def Agrees (j k : Tour) : Prop :=
  ∀ x y, j.Meets x → k.Meets y → x.key = y.key → ∀ m n text text',
    j.expand m x = some text → k.expand n y = some text' → text = text'

/-- Includes with one key get one answer, and the finitely many keys do not lead back to
    themselves. -/
structure Orderly (j : Tour) : Prop where
  replies : ∀ x y, j.Meets x → j.Meets y → x.key = y.key → j.reply x = j.reply y
  finite : {key | ∃ x, j.Meets x ∧ x.key = key}.Finite
  acyclic : ∀ key, ¬ Relation.TransGen j.Leads key key

variable {j k : Tour} {x y : Scoped} {s : Text}

theorem Agrees.symm (h : j.Agrees k) : k.Agrees j := by
  intro x y hx hy hkey m n text text' htext htext'
  exact (h y x hy hx hkey.symm n m text' text htext' htext).symm

theorem mem_inner {i : Inclusion} (hi : i ∈ (Alias.body s).includes) :
    Scoped.of (x.inForce s) x.target i ∈ x.inner s :=
  List.mem_map_of_mem hi

theorem expand_mono {m n : Nat} {text : Text} (h : j.expand n x = some text) (hm : n ≤ m) :
    j.expand m x = some text := by
  induction n generalizing x m text with
  | zero => cases h
  | succ n ih =>
    obtain ⟨m, rfl⟩ : ∃ k, m = k + 1 := ⟨m - 1, by omega⟩
    cases hs : j.reply x with
    | error e => simpa only [expand, hs] using h
    | ok s =>
      simp only [expand, hs] at h ⊢
      refine Signs.weave?_mono ?_ h
      intro i text hi
      exact ih hi (by omega)

/-- Expansions of an include may not end, but they never differ. -/
theorem expand_unique {m n : Nat} {text text' : Text} (h : j.expand m x = some text)
    (h' : j.expand n x = some text') : text = text' :=
  Option.some.inj
    ((expand_mono h (Nat.le_max_left m n)).symm.trans (expand_mono h' (Nat.le_max_right m n)))

theorem expandPage_mono {m n : Nat} {inForce : Aliases} {contract text : Text} {g : Signs}
    (h : j.expandPage n inForce contract g = some text) (hm : n ≤ m) :
    j.expandPage m inForce contract g = some text :=
  Signs.weave?_mono (fun _ _ hi => expand_mono hi hm) h

theorem expandPage_unique {m n : Nat} {inForce : Aliases} {contract text text' : Text} {g : Signs}
    (h : j.expandPage m inForce contract g = some text)
    (h' : j.expandPage n inForce contract g = some text') : text = text' :=
  Option.some.inj
    ((expandPage_mono h (Nat.le_max_left m n)).symm.trans
      (expandPage_mono h' (Nat.le_max_right m n)))

/-- Tours agree if includes with one key get one answer, and the tables of two such includes
    make no difference to the keys in their page. -/
theorem agrees_of_keys (h : ∀ x y, j.Meets x → k.Meets y → x.key = y.key →
    j.reply x = k.reply y ∧
      ∀ s, j.reply x = .ok s → (x.inner s).map Scoped.key = (y.inner s).map Scoped.key) :
    j.Agrees k := by
  intro x y hx hy hkey m
  -- On the first expansion's depth alone: the second ends too, but perhaps at another depth.
  induction m generalizing x y with
  | zero =>
    intro n text text' htext
    cases htext
  | succ m ih =>
    intro n text text' htext htext'
    cases n with
    | zero => cases htext'
    | succ n =>
      obtain ⟨hreply, hinner⟩ := h x y hx hy hkey
      cases hs : j.reply x with
      | error e =>
        have hs' : k.reply y = .error e := hreply.symm.trans hs
        simp only [expand, hs, hs', Option.some.injEq] at htext htext'
        exact htext.symm.trans htext'
      | ok s =>
        have hs' : k.reply y = .ok s := hreply.symm.trans hs
        have hkeys := hinner s hs
        simp only [Scoped.inner, Signs.scoped, List.map_map, List.map_inj_left] at hkeys
        simp only [expand, hs, hs'] at htext htext'
        refine Signs.weave?_unique ?_ htext htext'
        intro i hi a b ha hb
        have hxi := hx.inner hs (mem_inner hi)
        have hyi := hy.inner hs' (mem_inner hi)
        exact ih _ _ hxi hyi (hkeys i hi) n a b ha hb

/-! ### Rankings -/

/-- A rank for every key, which falls from an include to those of its page. -/
structure Ranking (j : Tour) where
  rank : Text → Nat
  bound : Nat
  rank_lt_bound : ∀ {x}, j.Meets x → rank x.key < bound
  rank_lt : ∀ {x s x'}, j.Meets x → j.reply x = .ok s → x' ∈ x.inner s → rank x'.key < rank x.key

theorem Orderly.exists_ranking (hj : j.Orderly) : Nonempty j.Ranking := by
  have hmet : ∀ a b, j.Leads a b → ∃ x, j.Meets x ∧ x.key = b := by
    rintro _ _ ⟨x, s, x', hx, hs, hin, _, rfl⟩
    exact ⟨x', hx.inner hs hin, rfl⟩
  obtain ⟨rank, hle, hlt⟩ := exists_rank hj.finite hmet hj.acyclic
  refine ⟨rank, {key | ∃ x, j.Meets x ∧ x.key = key}.ncard + 1, ?_, ?_⟩
  · intro x _
    exact Nat.lt_succ_of_le (hle x.key)
  · intro x s x' hx hs hin
    exact hlt _ _ ⟨x, s, x', hx, hs, hin, rfl, rfl⟩

/-- All deep enough expansions of an include that is met give one text. -/
theorem Ranking.exists_expand (c : j.Ranking) (hx : j.Meets x) :
    ∃ text, ∀ n, c.rank x.key < n → j.expand n x = some text := by
  induction hr : c.rank x.key using Nat.strongRecOn generalizing x with
  | ind r ih =>
    cases hs : j.reply x with
    | error e =>
      refine ⟨Marker.includeFailed e.reason, ?_⟩
      intro n hn
      obtain ⟨m, rfl⟩ := Nat.exists_eq_add_of_lt hn
      simp only [expand, hs]
    | ok s =>
      -- the includes of the page have lower ranks, so each of them has its text
      have hinner : ∀ i ∈ (Alias.body s).includes,
          ∃ text, ∀ n, r ≤ n → j.expand n (.of (x.inForce s) x.target i) = some text := by
        intro i hi
        have hin : Scoped.of (x.inForce s) x.target i ∈ x.inner s := mem_inner hi
        have hlt := c.rank_lt hx hs hin
        rw [hr] at hlt
        obtain ⟨text, htext⟩ := ih _ hlt (hx.inner hs hin) rfl
        exact ⟨text, fun n hn => htext n (by omega)⟩
      obtain ⟨text, htext⟩ := Signs.exists_weave? hinner
      refine ⟨text, ?_⟩
      intro n hn
      obtain ⟨m, rfl⟩ : ∃ m, n = m + 1 := ⟨n - 1, by omega⟩
      simp only [expand, hs]
      exact htext m (by omega)

/-! ### Texts by key -/

/-- The sheet has, for every key that is met, what the includes with this key expand to. -/
def Fits (j : Tour) (sheet : Text → Text) : Prop :=
  ∀ x n text, j.Meets x → j.expand n x = some text → text = sheet x.key

/-- Tours of which any two agree fit on one sheet. -/
theorem exists_sheet (ks : List Tour) (h : ∀ j ∈ ks, ∀ k ∈ ks, j.Agrees k) :
    ∃ sheet, ∀ k ∈ ks, k.Fits sheet := by
  have hkey : ∀ key, ∃ text, ∀ k ∈ ks, ∀ x n text', k.Meets x → x.key = key →
      k.expand n x = some text' → text' = text := by
    intro key
    -- A key that nothing expands under may have any text.
    by_cases hknown : ∃ j ∈ ks, ∃ x m text, j.Meets x ∧ x.key = key ∧ j.expand m x = some text
    · obtain ⟨j, hj, x, m, text, hx, rfl, htext⟩ := hknown
      refine ⟨text, ?_⟩
      intro k hk y n text' hy hyx htext'
      exact h k hk j hj y x hy hx hyx n m text' text htext' htext
    · refine ⟨[], ?_⟩
      intro k hk x n text' hx hxkey htext'
      exact absurd ⟨k, hk, x, n, text', hx, hxkey, htext'⟩ hknown
  choose sheet hsheet using hkey
  refine ⟨sheet, ?_⟩
  intro k hk x n text hx htext
  exact hsheet x.key k hk x n text hx rfl htext

section

variable {sheet : Text → Text}

theorem expand_eq (c : j.Ranking) (hfits : j.Fits sheet) (hx : j.Meets x) {n : Nat}
    (hn : c.rank x.key < n) : j.expand n x = some (sheet x.key) := by
  obtain ⟨text, htext⟩ := c.exists_expand hx
  rw [htext n hn, hfits x n text hx (htext n hn)]

theorem sheet_of_error (c : j.Ranking) (hfits : j.Fits sheet) (hx : j.Meets x) {e : RemoteFailure}
    (h : j.reply x = .error e) : sheet x.key = Marker.includeFailed e.reason := by
  have hexpand := expand_eq c hfits hx (Nat.lt_succ_self _)
  simp only [expand, h] at hexpand
  exact (Option.some.inj hexpand).symm

theorem sheet_of_ok (c : j.Ranking) (hfits : j.Fits sheet) (hx : j.Meets x)
    (h : j.reply x = .ok s) :
    sheet x.key = (Alias.body s).filledFrom (x.inForce s) x.target sheet := by
  have hexpand := expand_eq c hfits hx (Nat.lt_succ_self _)
  simp only [expand, h] at hexpand
  rw [Signs.weave?_eq_some
    (f := fun i => sheet (Scoped.of (x.inForce s) x.target i).key)] at hexpand
  · exact (Option.some.inj hexpand).symm
  · intro i hi
    have hin : Scoped.of (x.inForce s) x.target i ∈ x.inner s := mem_inner hi
    exact expand_eq c hfits (hx.inner h hin) (c.rank_lt hx h hin)

theorem expandPage_eq (c : j.Ranking) (hfits : j.Fits sheet) {inForce : Aliases} {contract : Text}
    {g : Signs} (htop : j.top = g.scoped inForce contract) {n : Nat} (hn : c.bound ≤ n) :
    j.expandPage n inForce contract g = some (g.filledFrom inForce contract sheet) := by
  apply Signs.weave?_eq_some
  intro i hi
  have hx : j.Meets (.of inForce contract i) := by
    apply Meets.top
    rw [htop]
    exact List.mem_map_of_mem hi
  exact expand_eq c hfits hx (Nat.lt_of_lt_of_le (c.rank_lt_bound hx) hn)

end

/-! ### Tours on a finite chart -/

/-- The includes of the page that an include brings in, if it brings one in. -/
def below (j : Tour) (x : Scoped) : List Scoped :=
  match j.reply x with
  | .ok s => x.inner s
  | .error _ => []

/-- The list holds every include that is met. -/
structure Chart (j : Tour) (xs : List Scoped) : Prop where
  top : ∀ x ∈ j.top, x ∈ xs
  below : ∀ x ∈ xs, ∀ x' ∈ j.below x, x' ∈ xs

instance (xs : List Scoped) : Decidable (j.Chart xs) :=
  decidable_of_iff ((∀ x ∈ j.top, x ∈ xs) ∧ ∀ x ∈ xs, ∀ x' ∈ j.below x, x' ∈ xs)
    ⟨fun h => ⟨h.1, h.2⟩, fun h => ⟨h.top, h.below⟩⟩

namespace Chart

variable {xs ys : List Scoped}

theorem mem_below {x' : Scoped} (hs : j.reply x = .ok s) (hx' : x' ∈ x.inner s) :
    x' ∈ j.below x := by
  rw [Tour.below, hs]
  exact hx'

theorem mem (h : j.Chart xs) (hx : j.Meets x) : x ∈ xs := by
  induction hx with
  | top hx => exact h.top _ hx
  | inner _ hs hx' ih => exact h.below _ ih _ (mem_below hs hx')

/-- A rank that falls along the chart keeps keys from leading back to themselves. -/
theorem orderly (h : j.Chart xs)
    (hreplies : ∀ x ∈ xs, ∀ y ∈ xs, x.key = y.key → j.reply x = j.reply y) (rank : Text → Nat)
    (hrank : ∀ x ∈ xs, ∀ x' ∈ j.below x, rank x'.key < rank x.key) : j.Orderly := by
  constructor
  · intro x y hx hy
    exact hreplies x (h.mem hx) y (h.mem hy)
  · refine (xs.map Scoped.key).finite_toSet.subset ?_
    rintro _ ⟨x, hx, rfl⟩
    exact List.mem_map_of_mem (h.mem hx)
  · apply acyclic_of_rank rank
    rintro _ _ ⟨x, s, x', hx, hs, hin, rfl, rfl⟩
    exact hrank x (h.mem hx) x' (mem_below hs hin)

/-- Whether the tables make a difference can be seen on the charts. -/
theorem agrees (hj : j.Chart xs) (hk : k.Chart ys)
    (h : ∀ x ∈ xs, ∀ y ∈ ys, x.key = y.key → j.reply x = k.reply y ∧
      ∀ s ∈ (j.reply x).toOption, (x.inner s).map Scoped.key = (y.inner s).map Scoped.key) :
    j.Agrees k := by
  apply agrees_of_keys
  intro x y hx hy hkey
  obtain ⟨hreply, hkeys⟩ := h x (hj.mem hx) y (hk.mem hy) hkey
  refine ⟨hreply, ?_⟩
  intro s hs
  apply hkeys
  rw [hs]
  rfl

end Chart

end Tour
end PageAssembly
