/-
  PageAssembly/Proofs/Inclusion/Termination.lean
  ==============================================
  **When the includes of a page come to an end.**

  A site is a finite table of pages, but its keys need not be finitely many.  A block
  inside an include is shown by a placeholder, so the key of the include has the token in
  it, which is another one each time the page is opened.  No such key is met again, and no
  cycle is found through it.

  All other keys are finitely many.  So includes come to an end if no page gets back to
  itself through includes that hold a block alone (`run_eq_of_not_feeds`): with every page
  that is opened a further one of the finitely many keys is used up, or the page is lower
  in the order in which pages feed each other.  And they do not come to an end on the page
  that includes itself with a block among the parameters (`run_feedingText`).
-/
import PageAssembly.Proofs.Inclusion.Chart
import PageAssembly.Proofs.Inclusion.Depth
import PageAssembly.Proofs.Inclusion.Traversal
import Mathlib.Data.List.Sublists

namespace PageAssembly

open Verbatim (IsToken placeholder)

/-! ### Includes without blocks -/

theorem Signs.veiled_infix_of_mem {v : Veil} {g : Signs} {x : Sign} (h : x ∈ g) :
    x.veiled v <:+: g.veiled v := by
  obtain ⟨a, b, rfl⟩ := List.append_of_mem h
  exact ⟨veiled v a, veiled v b, by simp⟩

theorem Stretch.exists_hit {β : Type} {v : Veil} {ss : List (Stretch (Veil → β))} {w : Text} {a : β}
    (h : Piece.hit w a ∈ ss.flatMap (Stretch.pieces v)) :
    ∃ g f, Stretch.hit g f ∈ ss ∧ w = g.veiled v ∧ a = f v := by
  obtain ⟨s, hs, hmem⟩ := List.mem_flatMap.1 h
  cases s with
  | plain x => simp [Stretch.pieces] at hmem
  | hit g f =>
    obtain ⟨rfl, rfl⟩ : w = g.veiled v ∧ a = f v := by simpa [Stretch.pieces] using hmem
    exact ⟨g, f, hs, rfl, rfl⟩

/-- The includes that letters of the page can make. -/
def Verbatim.sayings (s : Text) : List Inclusion :=
  (signs s).sublists.filterMap fun body =>
    Directive.inclusion? ⟨.inclusion, Attributes.ofText (Signs.bare body)⟩

/-- What an include in the text says is said by one of its stretches. -/
theorem Directive.exists_hit {g : Signs} {v : Veil} {ss : List (Stretch (Veil → Directive))}
    (hpieces : pattern.pieces (g.veiled v) = ss.flatMap (Stretch.pieces v)) {i : Located Inclusion}
    (hi : i ∈ inclusions (g.veiled v)) :
    ∃ h d, Stretch.hit h d ∈ ss ∧ i.source = h.veiled v ∧ (d v).inclusion? = some i.value := by
  obtain ⟨m, hm, hmi⟩ := List.mem_filterMap.1 hi
  obtain ⟨a, ha, rfl⟩ := Option.map_eq_some_iff.1 hmi
  have hhit := Pattern.hit_of_mem_locate hm
  rw [hpieces] at hhit
  obtain ⟨h, d, hd, hsource, hvalue⟩ := Stretch.exists_hit hhit
  exact ⟨h, d, hd, hsource, by rw [← hvalue]; exact ha⟩

/-- What a stretch of letters says is one of finitely many includes. -/
theorem Verbatim.mem_sayings_of_says {t s : Text} {ss : List (Stretch (Veil → Directive))}
    (hss : ss.flatMap Stretch.signs = Alias.left t s) {h : Signs} {d : Veil → Directive}
    (hd : Stretch.hit h d ∈ ss) (hsaid : Directive.Says h d) (hletters : ∀ x ∈ h, x.isLetter) {v : Veil}
    {i : Inclusion} (hi : (d v).inclusion? = some i) : i ∈ sayings s := by
  obtain ⟨k, body, hbody, rfl⟩ := hsaid
  have hsub : body.Sublist (signs s) := by
    have hin : h <:+: Alias.left t s := by
      obtain ⟨as, bs, rfl⟩ := List.append_of_mem hd
      exact ⟨as.flatMap Stretch.signs, bs.flatMap Stretch.signs, by simp [← hss, Stretch.signs]⟩
    exact (hbody.trans hin).sublist.trans (Alias.left_sublist t s)
  rw [Directive.under, Signs.veiled_eq_bare fun x hx => hletters x (hbody.subset hx)] at hi
  refine List.mem_filterMap.2 ⟨body, List.mem_sublists.2 hsub, ?_⟩
  have hkind : k = .inclusion := by
    by_contra hne
    simp [Directive.inclusion?, hne] at hi
  exact hkind ▸ hi

/-- An include that holds no block is one of finitely many, whatever the token is. -/
theorem Verbatim.mem_sayings {t s : Text} (ht : IsToken t) {i : Located Inclusion}
    (hi : i ∈ Directive.inclusions (Alias.strip (mask t s)))
    (hfree : ∀ n, ¬ placeholder t n <:+: i.source) : i.value ∈ sayings s := by
  rw [← Alias.veiled_left ht] at hi
  obtain ⟨ss, hss, hsaid, hpieces, -⟩ := Directive.exists_stretches (Alias.left t s)
  obtain ⟨g, d, hg, hsource, hvalue⟩ := Directive.exists_hit (hpieces _ (wordlike_placeholder ht)) hi
  refine mem_sayings_of_says hss hg (hsaid g d hg) (fun x hx => ?_) hvalue
  cases x with
  | letter c => rfl
  | block n inner =>
    have hoccurs := Signs.veiled_infix_of_mem (v := placeholder t) hx
    rw [← hsource] at hoccurs
    exact absurd hoccurs (hfree n)

/-- So is every include of a page that has no block inside an include. -/
theorem Verbatim.mem_sayings_of_apart {t s : Text} (ht : IsToken t) (hs : (Alias.left t s).Apart)
    {i : Located Inclusion} (hi : i ∈ Directive.inclusions (Alias.strip (mask t s))) :
    i.value ∈ sayings s := by
  have hv := wordlike_placeholder ht
  rw [← Alias.veiled_left ht] at hi
  obtain ⟨ss, hss, hsaid, hpieces, hstretches⟩ := Directive.exists_stretches (Alias.left t s)
  obtain ⟨g, d, hg, -, hvalue⟩ := Directive.exists_hit (hpieces _ hv) hi
  have hbar : (d Veil.bar).inclusion? = some i.value :=
    (hs.inclusion?_eq hsaid hstretches hv hg).symm.trans hvalue
  have hmem : Stretch.hit g (d Veil.bar) ∈ Directive.stretches (Alias.left t s) := by
    rw [hstretches]
    exact List.mem_map_of_mem hg
  have hletters := hs _ hmem (Option.isSome_iff_exists.2 ⟨_, hbar⟩)
  exact mem_sayings_of_says hss hg (hsaid g d hg) hletters hvalue

/-! ### Pages that are opened -/

/-- A page that is opened, with the contract that it belongs to and the aliases above it. -/
structure Opened where
  text : Text
  contract : Text
  aliases : Aliases

namespace Opened

open Resolution (Planned)

/-- What the page plans to include when its blocks are masked with the token `t`. -/
def plans (t : Text) (o : Opened) : List Planned := Resolution.plans t o.text o.contract o.aliases

/-- The page `raw`, opened for an include of this page. -/
def below (t : Text) (o : Opened) (p : Planned) (raw : Text) : Opened :=
  ⟨raw, p.target, Aliases.extend o.aliases (Alias.defined (Verbatim.mask t o.text))⟩

end Opened

/-- The page that an include calls for. -/
def Pages.calledBy (pages : Pages) (p : Resolution.Planned) : Option Text :=
  pages.page? p.target (some (renderFunction p.place.value.func))

/-- The include holds a block, which the token `t` shows. -/
def Resolution.Planned.HoldsBlock (t : Text) (p : Planned) : Prop :=
  ∃ n, placeholder t n <:+: p.place.source

section

variable (pages : Pages) (token : Nat → Text) (start : Opened)

/-- The pages that may be opened from the first one on.  A page may have been fetched for
    another include with the same key. -/
inductive Visits : Opened → Prop
  | start : Visits start
  | inner {o o' : Opened} {p p' : Resolution.Planned} {n n' : Nat} {raw : Text} :
      Visits o → p ∈ o.plans (token n) → Visits o' → p' ∈ o'.plans (token n') → p'.key = p.key →
      pages.calledBy p' = some raw → Visits (o.below (token n) p raw)

/-- The page is what an include with the key calls for. -/
def Brings (key raw : Text) : Prop :=
  ∃ o n p, Visits pages token start o ∧ p ∈ o.plans (token n) ∧ p.key = key ∧
    pages.calledBy p = some raw

def Marked (key : Text) : Prop :=
  ∃ o n p, Visits pages token start o ∧ p ∈ o.plans (token n) ∧ p.key = key ∧ p.HoldsBlock (token n)

/-- The page `s` has an include which holds a block and which brings in the page `raw`. -/
def Feeds (s raw : Text) : Prop :=
  ∃ o n p, Visits pages token start o ∧ o.text = s ∧ p ∈ o.plans (token n) ∧
    Marked pages token start p.key ∧ Brings pages token start p.key raw

/-- The keys of the includes that hold no block and call for a page of the table. -/
def plainKeys : List Text :=
  (start.text :: pages.map Prod.snd).flatMap fun s =>
    (Verbatim.sayings s).flatMap fun i => pages.map fun e => i.key e.1.1

end

namespace Pages

variable {pages : Pages} {token : Nat → Text} {start : Opened} {p : Resolution.Planned} {raw : Text}

theorem mem_of_calledBy (h : pages.calledBy p = some raw) :
    ∃ e ∈ pages, e.1.1 = p.target ∧ e.2 = raw := by
  obtain ⟨e, he, rfl⟩ := Option.map_eq_some_iff.1 h
  have htest := List.find?_some he
  simp only [Bool.and_eq_true, beq_iff_eq] at htest
  exact ⟨e, List.mem_of_find?_eq_some he, htest.1, rfl⟩

theorem answers_of_calledBy (h : pages.calledBy p = some raw) (viewer : Option Text) (aliases : Aliases) :
    pages.answers (p.call viewer aliases) = .ok raw := by
  have hpage : pages.page? (p.call viewer aliases).target (p.call viewer aliases).function =
      pages.calledBy p := rfl
  rw [answers, hpage, h]

theorem answers_of_not_called (h : pages.calledBy p = none) (viewer : Option Text) (aliases : Aliases) :
    ∃ f, pages.answers (p.call viewer aliases) = .error f := by
  have hpage : pages.page? (p.call viewer aliases).target (p.call viewer aliases).function =
      pages.calledBy p := rfl
  rw [answers, hpage, h]
  exact ⟨_, rfl⟩

end Pages

section

variable {pages : Pages} {token : Nat → Text} {start : Opened}

/-- All pages that are opened, but for the first one, are in the table. -/
theorem Visits.text_mem {o : Opened} (h : Visits pages token start o) :
    o.text ∈ start.text :: pages.map Prod.snd := by
  cases h with
  | start => exact List.mem_cons_self
  | inner _ _ _ _ _ hraw =>
    obtain ⟨e, he, _, rfl⟩ := Pages.mem_of_calledBy hraw
    exact List.mem_cons_of_mem _ (List.mem_map_of_mem he)

/-- What is brought in under a key that no include with a block has, has a plain key. -/
theorem mem_plainKeys (htokens : ∀ n, IsToken (token n)) {key raw : Text}
    (hbrings : Brings pages token start key raw) (hmarked : ¬ Marked pages token start key) :
    key ∈ plainKeys pages start := by
  obtain ⟨o, n, p, ho, hp, rfl, hraw⟩ := hbrings
  obtain ⟨e, he, htarget, -⟩ := Pages.mem_of_calledBy hraw
  obtain ⟨i, hi, rfl⟩ := List.mem_map.1 hp
  have hsaying := Verbatim.mem_sayings (htokens n) hi fun m hoccurs =>
    hmarked ⟨o, n, _, ho, hp, rfl, m, hoccurs⟩
  refine List.mem_flatMap.2 ⟨o.text, ho.text_mem, List.mem_flatMap.2 ⟨_, hsaying, ?_⟩⟩
  refine List.mem_map.2 ⟨e, he, ?_⟩
  rw [htarget]
  rfl

end

namespace Resolution

variable {τ : Type} {pages : Pages} {start : Opened} {env : Setting Unit τ}

/-- What was fetched failed, or is a page that an include with the key calls for. -/
def Tabled (pages : Pages) (env : Setting Unit τ) (start : Opened) (p : Pass Unit τ) : Prop :=
  ∀ key x, p.fetched.get? key = some x →
    (∃ f, x = .error (.remote f)) ∨ ∃ raw, x = .ok raw ∧ Brings pages env.token start key raw

theorem indifferent_tabled : Indifferent (Tabled pages env start) := ⟨fun _ _ => id, fun _ _ => id⟩

theorem tabled_fetch (hhost : env.host = Host.ofAnswers pages.answers) {o : Opened} {n : Nat}
    {p : Planned} (ho : Visits pages env.token start o) (hp : p ∈ o.plans (env.token n))
    (aliases : Aliases) {q : Pass Unit τ} (hq : Tabled pages env start q) :
    Tabled pages env start (fetch env p.key (p.call env.viewer aliases) q).2 ∧
      ((∃ f, (fetch env p.key (p.call env.viewer aliases) q).1 = .error (.remote f)) ∨
        ∃ raw, (fetch env p.key (p.call env.viewer aliases) q).1 = .ok raw ∧
          Brings pages env.token start p.key raw) := by
  cases h : q.fetched.get? p.key with
  | some x =>
    rw [fetch_of_some env h]
    exact ⟨hq, hq p.key x h⟩
  | none =>
    have hfound : (∃ f, Host.content (p.call env.viewer aliases)
          (env.host.answer (p.call env.viewer aliases) q.exchange.world).1 = .error (.remote f)) ∨
        ∃ raw, Host.content (p.call env.viewer aliases)
          (env.host.answer (p.call env.viewer aliases) q.exchange.world).1 = .ok raw ∧
          Brings pages env.token start p.key raw := by
      rw [hhost, Host.content_ofAnswers]
      cases hcalled : pages.calledBy p with
      | none =>
        obtain ⟨f, hf⟩ := Pages.answers_of_not_called hcalled env.viewer aliases
        exact Or.inl ⟨f, by rw [hf]; rfl⟩
      | some raw =>
        have hraw := Pages.answers_of_calledBy hcalled env.viewer aliases
        exact Or.inr ⟨raw, by rw [hraw]; rfl, o, n, p, ho, hp, rfl, hcalled⟩
    rw [fetch_of_none env _ h]
    refine ⟨fun key x hx => ?_, hfound⟩
    rw [OrderedMap.get?_insert] at hx
    split at hx
    · next hkey =>
      cases hx
      exact hkey ▸ hfound
    · exact hq key x hx

section

variable [Sub τ] [LT τ] [DecidableLT τ]

/-- One page: it ends if all pages end that its includes bring in. -/
theorem keeps_opened (hhost : env.host = Host.ofAnswers pages.answers) {sure : Prop}
    {document : Document Unit τ} {o : Opened} (ho : Visits pages env.token start o) (n : Nat)
    {above : List Text}
    (hdoc : ∀ p ∈ o.plans (env.token n), p.key ∉ above → ∀ raw, Brings pages env.token start p.key raw →
      Keeps (Tabled pages env start) sure (fun _ => True)
        (document raw p.target (p.key :: above) (o.below (env.token n) p raw).aliases)) :
    Keeps (Tabled pages env start) sure (fun _ => True)
      (resolveMasked document env (env.token n) o.text o.contract above o.aliases) := by
  refine keeps_resolveMasked indifferent_tabled
    (fun p x => (∃ f, x = .error (.remote f)) ∨ ∃ raw, x = .ok raw ∧ Brings pages env.token start p.key raw)
    (fun p hp q hq => tabled_fetch hhost ho hp _ hq) ?failed ?document fun _ _ _ _ _ _ hq => hq
  case failed =>
    rintro p - e (⟨f, hf⟩ | ⟨raw, hraw, -⟩)
    · cases hf
      exact ⟨f, rfl⟩
    · cases hraw
  case document =>
    rintro p hp habove raw (⟨f, hf⟩ | ⟨raw', hraw, hbrings⟩)
    · cases hf
    · cases hraw
      exact hdoc p hp habove raw hbrings

/-- Going down, keys are used up, or else the pages feed each other. -/
theorem keeps_resolve_opened (hhost : env.host = Host.ofAnswers pages.answers)
    (htokens : ∀ n, IsToken (env.token n)) {rank : Text → Nat} {most : Nat} (hmost : ∀ s, rank s ≤ most)
    (hrank : ∀ s raw, Feeds pages env.token start s raw → rank raw < rank s) (depth : Nat) {o : Opened}
    (ho : Visits pages env.token start o) {above : List Text} :
    Keeps (Tabled pages env start)
      ((room (plainKeys pages start).toFinset above).card * (most + 1) + rank o.text < depth)
      (fun _ => True) (resolve env depth o.text o.contract above o.aliases) := by
  induction depth generalizing o above with
  | zero => exact Keeps.throw _ (Nat.not_lt_zero _)
  | succ depth ih =>
    refine keeps_resolveWith indifferent_tabled fun n => ?_
    refine keeps_opened hhost ho n fun p hp habove raw hbrings => ?_
    have hvisits : Visits pages env.token start (o.below (env.token n) p raw) := by
      obtain ⟨o', n', p', ho', hp', hkey, hcalled⟩ := hbrings
      exact .inner ho hp ho' hp' hkey hcalled
    refine Keeps.mono (ih hvisits) (fun hsure => ?_) fun _ => id
    have htext : (o.below (env.token n) p raw).text = raw := rfl
    rw [htext]
    by_cases hmarked : Marked pages env.token start p.key
    · have hlt := hrank o.text raw ⟨o, n, p, ho, rfl, hp, hmarked, hbrings⟩
      have hroom := Nat.mul_le_mul_right (most + 1)
        (room_cons_le (plainKeys pages start).toFinset p.key above)
      omega
    · have hplain := List.mem_toFinset.2 (mem_plainKeys htokens hbrings hmarked)
      have hroom := Nat.mul_le_mul_right (most + 1) (Nat.succ_le_of_lt (room_cons_lt hplain habove))
      have hle := hmost raw
      rw [Nat.succ_mul] at hroom
      omega

/-- If no page gets back to itself through includes that hold a block, then the pass ends,
    from every desk and under every bound that is high enough, and the bound is not seen. -/
theorem run_eq_of_not_feeds (pages : Pages) (hhost : env.host = Host.ofAnswers pages.answers)
    (htokens : ∀ n, IsToken (env.token n)) (s contract : Text) (aliases : Aliases)
    (hfeeds : ∀ x, ¬ Relation.TransGen (Feeds pages env.token ⟨s, contract, aliases⟩) x x) :
    ∃ bound, ∀ d, ∃ r d', ∀ depth, bound ≤ depth →
      run env depth s contract aliases d = (.ok r, d') := by
  have hfinite : {raw | ∃ e ∈ pages, e.2 = raw}.Finite := by
    refine (pages.map Prod.snd).finite_toSet.subset ?_
    rintro _ ⟨e, he, rfl⟩
    exact List.mem_map_of_mem he
  have hinto : ∀ x raw, Feeds pages env.token ⟨s, contract, aliases⟩ x raw → ∃ e ∈ pages, e.2 = raw := by
    rintro x raw ⟨_, _, _, _, _, _, _, o, n, p, _, _, _, hcalled⟩
    obtain ⟨e, he, _, rfl⟩ := Pages.mem_of_calledBy hcalled
    exact ⟨e, he, rfl⟩
  obtain ⟨rank, hmost, hrank⟩ := exists_rank hfinite hinto hfeeds
  obtain ⟨bound, hbound⟩ : ∃ n, (room (plainKeys pages ⟨s, contract, aliases⟩).toFinset []).card *
      ({raw | ∃ e ∈ pages, e.2 = raw}.ncard + 1) + rank s < n := ⟨_, Nat.lt_succ_self _⟩
  refine ⟨bound, fun d => ?_⟩
  obtain ⟨-, -, hends⟩ := keeps_resolve_opened hhost htokens hmost hrank bound .start
    { d with fetched := OrderedMap.empty } (by rintro key x ⟨⟩)
  obtain ⟨r, hr⟩ := hends hbound
  exact ⟨r, _, fun depth hdepth => (run_eq_of_le hr hdepth).trans (Prod.ext hr rfl)⟩

end

/-! ### A page that includes itself with a block among the parameters -/

def feedingText : Text := "{{include contract=X p={{noparse}}a{{/noparse}}}}".toList

theorem signs_feedingText : Verbatim.signs feedingText =
    "\x7b\x7binclude contract=X p=".toList.map .letter ++
      .block 0 "a".toList :: "\x7d\x7d".toList.map .letter := by
  decide +kernel

theorem mask_feedingText (t : Text) :
    Verbatim.mask t feedingText =
      "\x7b\x7binclude contract=X p=".toList ++ placeholder t 0 ++ "\x7d\x7d".toList := by
  rw [Verbatim.mask_eq_veiled, signs_feedingText, Signs.veiled_append, Signs.veiled_letters,
    Signs.veiled_cons, Signs.veiled_letters, List.append_assoc]
  rfl

theorem attributes_feedingText {t : Text} (ht : IsToken t) :
    Attributes.ofText ("contract=X p=".toList ++ placeholder t 0) =
      OrderedMap.ofList [("contract".toList, .text "X".toList), ("p".toList, .text (placeholder t 0))] := by
  have hfirst : Attribute.pattern.read ("contract=X".toList ++ (" p=".toList ++ placeholder t 0)) =
      some (("contract".toList, .text "X".toList), " p=".toList ++ placeholder t 0) := rfl
  have hblank : Attribute.pattern.read (' ' :: ("p=".toList ++ placeholder t 0)) = none := rfl
  have hsecond : Attribute.pattern.read (("p=".toList ++ placeholder t 0) ++ []) =
      some (("p".toList, .text (placeholder t 0)), []) := by
    have hname : Attribute.readName ("p=".toList ++ placeholder t 0) =
      some ("p".toList, '=' :: placeholder t 0) := rfl
    have hvalue := Attribute.readValue_veil (Verbatim.wordlike_placeholder ht) 0
    rw [List.append_nil]
    simp only [Attribute.pattern, Attribute.readAttribute, hname, Option.map_some, Attribute.readAssigned,
      hvalue]
  have hpieces := Attribute.pattern.pieces_append hfirst
  rw [show " p=".toList ++ placeholder t 0 = ' ' :: ("p=".toList ++ placeholder t 0) from rfl,
    Attribute.pattern.pieces_cons_none hblank] at hpieces
  have hrest := Attribute.pattern.pieces_append hsecond
  rw [List.append_nil, Pattern.pieces_nil] at hrest
  rw [hrest] at hpieces
  rw [Attributes.ofText, Pattern.find, Pattern.map_value_locate]
  have hsplit : "contract=X p=".toList ++ placeholder t 0 =
      "contract=X".toList ++ ' ' :: ("p=".toList ++ placeholder t 0) := rfl
  rw [hsplit, hpieces]
  rfl

theorem find_feedingText {t : Text} (ht : IsToken t) : Alias.find (Verbatim.mask t feedingText) = [] := by
  let rest := "include contract=X p=".toList ++ placeholder t 0 ++ "\x7d\x7d".toList
  have hmask : Verbatim.mask t feedingText = '{' :: '{' :: rest := by
    rw [mask_feedingText]
    rfl
  have hbrace : '{' ∉ rest := by
    simp only [rest, List.mem_append, not_or]
    exact ⟨⟨by decide, (Verbatim.wordlike_placeholder ht).not_mem (by decide) 0⟩, by decide⟩
  have hfirst : Alias.pattern.read ('{' :: '{' :: rest) = none := rfl
  have hsecond : Alias.pattern.read ('{' :: rest) = none := rfl
  rw [Alias.find, Pattern.find, hmask, Alias.pattern.pieces_cons_none hfirst,
    Alias.pattern.pieces_cons_none hsecond, Pattern.locate, Pattern.locate,
    Pattern.pieces_of_not_mem Alias.read_eq_none hbrace, Pattern.locate_letters]
  rfl

/-- The page plans to include itself, under a key that shows the token. -/
theorem plans_feedingText {t : Text} (ht : IsToken t) (contract : Text) :
    ∃ i, plans t feedingText contract OrderedMap.empty =
      [⟨i, "X".toList, "X:||p=".toList ++ placeholder t 0⟩] ∧ i.value.func = none := by
  have hbrace : '}' ∉ "contract=X p=".toList ++ placeholder t 0 := by
    rw [List.mem_append, not_or]
    exact ⟨by decide, (Verbatim.wordlike_placeholder ht).not_mem (by decide) 0⟩
  have hsource : Verbatim.mask t feedingText ++ [] = Directive.opening ++ Directive.Kind.inclusion.word ++
      ' ' :: (("contract=X p=".toList ++ placeholder t 0) ++ Directive.closing ++ []) := by
    rw [mask_feedingText, List.append_nil, List.append_nil, List.append_assoc, List.append_assoc]
    rfl
  have hread := Directive.readDirective_eq_some_iff.2
    ⟨.inclusion, ' ', _, hsource, by decide, by simp, hbrace, rfl⟩
  have hpieces := Directive.pattern.pieces_append hread
  rw [List.append_nil, Pattern.pieces_nil, attributes_feedingText ht] at hpieces
  have hstrip : Alias.strip (Verbatim.mask t feedingText) = Verbatim.mask t feedingText := by
    rw [Alias.strip, find_feedingText ht]
    rfl
  have hdefined : Alias.defined (Verbatim.mask t feedingText) = OrderedMap.empty := by
    rw [Alias.defined, find_feedingText ht]
    rfl
  have hinclusion : Directive.inclusion? ⟨.inclusion, OrderedMap.ofList
      [("contract".toList, .text "X".toList), ("p".toList, .text (placeholder t 0))]⟩ =
      some ⟨OrderedMap.ofList [("contract".toList, .text "X".toList), ("p".toList, .text (placeholder t 0))],
        "X".toList⟩ := rfl
  have hplan : plans t feedingText contract OrderedMap.empty =
      [plan contract OrderedMap.empty ⟨0, 0 + (Verbatim.mask t feedingText).length, Verbatim.mask t feedingText,
        ⟨OrderedMap.ofList [("contract".toList, .text "X".toList), ("p".toList, .text (placeholder t 0))],
          "X".toList⟩⟩] := by
    rw [plans, hstrip, hdefined, Directive.inclusions, Directive.collect, Directive.find, Pattern.find, hpieces]
    simp only [Pattern.locate, List.filterMap_cons, Located.filterMap, hinclusion, Option.map_some,
      List.filterMap_nil, List.map_cons, List.map_nil]
    rfl
  have hkey : Inclusion.key ⟨OrderedMap.ofList
      [("contract".toList, .text "X".toList), ("p".toList, .text (placeholder t 0))], "X".toList⟩ "X".toList =
      "X:||p=".toList ++ placeholder t 0 ++ [] := rfl
  rw [List.append_nil] at hkey
  rw [← hkey]
  exact ⟨_, hplan, rfl⟩

/-! ### The same page on a site where it does not come back -/

def ringPages : Pages :=
  [(("X".toList, "render".toList), "x({{include contract=Y}})".toList),
    (("Y".toList, "render".toList), "y({{include contract=X}})".toList)]

theorem mask_ring {s : Text} (hs : s ∈ ringPages.map Prod.snd) (t : Text) :
    Verbatim.mask t s = s ∧ Alias.find s = [] := by
  have hall : ∀ s ∈ ringPages.map Prod.snd, Verbatim.spans s = [] ∧ Alias.find s = [] := by
    decide +kernel
  exact ⟨Verbatim.mask_eq_self (hall s hs).1 t, (hall s hs).2⟩

/-- The pages of the ring plan includes that hold no block and have no parameters. -/
theorem plans_ring {s : Text} (hs : s ∈ ringPages.map Prod.snd) {t contract : Text} {p : Planned}
    (hp : p ∈ plans t s contract OrderedMap.empty) : '=' ∉ p.key ∧ '_' ∉ p.place.source := by
  have hall : ∀ s ∈ ringPages.map Prod.snd, ∀ i ∈ Directive.inclusions (Alias.strip s),
      i.value.contract ≠ "SELF".toList ∧
        '=' ∉ i.value.key (Aliases.resolve OrderedMap.empty i.value.contract) ∧ '_' ∉ i.source := by
    decide +kernel
  obtain ⟨hmask, hfind⟩ := mask_ring hs t
  rw [plans, hmask, Alias.defined, hfind] at hp
  obtain ⟨i, hi, rfl⟩ := List.mem_map.1 hp
  obtain ⟨hself, hkey, hsource⟩ := hall s hs i hi
  refine ⟨?_, hsource⟩
  have htarget : Aliases.target OrderedMap.empty i.value.contract contract =
      Aliases.resolve OrderedMap.empty i.value.contract := if_neg hself
  have hplan : (plan contract OrderedMap.empty i).key =
      i.value.key (Aliases.target OrderedMap.empty i.value.contract contract) := rfl
  rw [htarget] at hplan
  exact hplan ▸ hkey

/-- The page with the block comes first, and pages of the ring come after it. -/
theorem visits_ring {token : Nat → Text} (htokens : ∀ n, IsToken (token n)) {o : Opened}
    (ho : Visits ringPages token ⟨feedingText, "P".toList, OrderedMap.empty⟩ o) :
    o.aliases = OrderedMap.empty ∧ (o.text = feedingText ∨ o.text ∈ ringPages.map Prod.snd) := by
  refine ⟨?_, List.mem_cons.1 ho.text_mem⟩
  induction ho with
  | start => rfl
  | @inner o _ _ _ n _ _ ho _ _ _ _ _ ih _ =>
    have hdefined : Alias.defined (Verbatim.mask (token n) o.text) = OrderedMap.empty := by
      rcases List.mem_cons.1 ho.text_mem with htext | htext
      · rw [htext, Alias.defined, find_feedingText (htokens n)]
        rfl
      · obtain ⟨hmask, hfind⟩ := mask_ring htext (token n)
        rw [hmask, Alias.defined, hfind]
        rfl
    rw [Opened.below, ih, hdefined]
    rfl

/-- Only the page with the block feeds others. -/
theorem feeds_ring {token : Nat → Text} (htokens : ∀ n, IsToken (token n)) {s raw : Text}
    (h : Feeds ringPages token ⟨feedingText, "P".toList, OrderedMap.empty⟩ s raw) :
    s = feedingText ∧ raw ∈ ringPages.map Prod.snd := by
  obtain ⟨o, n, p, ho, rfl, hp, ⟨o', n', p', ho', hp', hkey, m, hoccurs⟩, _, _, _, _, _, _, hcalled⟩ := h
  obtain ⟨e, he, -, rfl⟩ := Pages.mem_of_calledBy hcalled
  refine ⟨?_, List.mem_map_of_mem he⟩
  obtain ⟨haliases, htext⟩ := visits_ring htokens ho
  obtain ⟨haliases', htext'⟩ := visits_ring htokens ho'
  refine htext.resolve_right fun htext => ?_
  rw [Opened.plans, haliases] at hp
  rw [Opened.plans, haliases'] at hp'
  obtain ⟨hkeyp, -⟩ := plans_ring htext hp
  rcases htext' with htext' | htext'
  · -- the key of the include with the block shows its parameter
    obtain ⟨i, hi, -⟩ := plans_feedingText (htokens n') o'.contract
    rw [htext', hi, List.mem_singleton] at hp'
    rw [← hkey, hp'] at hkeyp
    exact hkeyp (List.mem_append_left _ (by decide))
  · obtain ⟨-, hsource⟩ := plans_ring htext' hp'
    exact hsource (hoccurs.subset List.mem_cons_self)

/-- The pages of the ring include each other, and the first page has a block in its
    include; a pass ends all the same. -/
theorem run_ring :
    ∃ bound, ∀ d, ∃ r d', ∀ depth, bound ≤ depth →
      run ringPages.setting depth feedingText "P".toList OrderedMap.empty d = (.ok r, d') := by
  refine run_eq_of_not_feeds ringPages rfl Verbatim.isToken_token _ _ _ fun x hx => ?_
  obtain ⟨_, hhead, -⟩ := Relation.TransGen.head'_iff.1 hx
  obtain ⟨_, -, htail⟩ := Relation.TransGen.tail'_iff.1 hx
  have hin := (feeds_ring Verbatim.isToken_token htail).2
  rw [(feeds_ring Verbatim.isToken_token hhead).1] at hin
  exact absurd hin (by decide +kernel)

end Resolution
end PageAssembly
