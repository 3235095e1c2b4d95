/-
  PageAssembly/Proofs/Inclusion/Inert.lean
  ========================================
  **What stands in a protected block does not matter.**

  Resolution works on the masked page, which shows a block as its number.  So two pages
  that differ inside one block only are one page to it: the same calls are made, the same
  is cached, and the same outcomes are spliced in.  The text of the block comes back at
  the end, in the place where its placeholder was (`run_wrapped`).

  The placeholder has to be there at the end.  That is so if no alias directive and no
  include reaches over it (`Sheltered`); then its sign is left when alias directives are
  gone (`block_mem_left`) and when the includes are filled in (`Signs.block_mem_put`).
-/
import PageAssembly.Proofs.Inclusion.Chart
import PageAssembly.Proofs.Verbatim.Wrapping

namespace PageAssembly

variable {α : Type}

/-- Where the word occurs in the text, none of the matches overlaps it. -/
def Text.Avoided (w s : Text) (ms : List (Located α)) : Prop :=
  ∀ k < s.length, w <+: s.drop k → ∀ m ∈ ms, m.stop ≤ k ∨ k + w.length ≤ m.start

instance (w s : Text) (ms : List (Located α)) : Decidable (Text.Avoided w s ms) :=
  inferInstanceAs (Decidable
    (∀ k < s.length, w <+: s.drop k → ∀ m ∈ ms, m.stop ≤ k ∨ k + w.length ≤ m.start))

theorem Text.Avoided.covers_eq_false {w a b : Text} {ms : List (Located α)} (hw : w ≠ [])
    (h : Text.Avoided w (a ++ w ++ b) ms) {m : Located α} (hm : m ∈ ms) :
    m.covers a.length = false := by
  have hpos : 0 < w.length := List.length_pos_iff.2 hw
  have hoccurs : w <+: (a ++ w ++ b).drop a.length := by
    rw [List.append_assoc, List.drop_left]
    exact List.prefix_append w b
  have hapart := h a.length (by simp only [List.length_append]; omega) hoccurs m hm
  rw [Bool.eq_false_iff, Ne, Located.covers, Bool.and_eq_true, decide_eq_true_eq, decide_eq_true_eq]
  omega

namespace Signs

/-! ### A block among the signs -/

/-- What stands in front of the first occurrence of the sign. -/
def front (x : Sign) (g : Signs) : Signs := g.takeWhile (· != x)

/-- What stands behind the first occurrence of the sign. -/
def back (x : Sign) (g : Signs) : Signs := (g.dropWhile (· != x)).tail

theorem front_append_back {x : Sign} {g : Signs} (h : x ∈ g) : g.front x ++ x :: g.back x = g := by
  obtain ⟨a, b, rfl, ha⟩ := List.eq_append_cons_of_mem h
  have hne : ∀ y ∈ a, (y != x) = true := fun y hy => bne_iff_ne.2 fun hyx => ha (hyx ▸ hy)
  rw [front, back, List.takeWhile_append_of_pos hne, List.dropWhile_append_of_pos hne]
  simp

theorem sources_pieces (v : Veil) (ss : List (Stretch (Veil → Directive))) :
    (ss.flatMap (Stretch.pieces v)).flatMap Piece.source = Signs.veiled v (ss.flatMap Stretch.signs) := by
  induction ss with
  | nil => rfl
  | cons s ss ih =>
    rw [List.flatMap_cons, List.flatMap_append, ih, List.flatMap_cons, veiled_append]
    cases s with
    | plain x => simp [Stretch.pieces, Stretch.signs, List.flatMap_map, Piece.source]
    | hit h d => simp [Stretch.pieces, Stretch.signs, Piece.source]

/-- An include stands where the signs in front of it end. -/
theorem mem_inclusions {v : Veil} {ss ss₁ ss₂ : List (Stretch (Veil → Directive))} {h : Signs}
    {d : Veil → Directive} (hss : ss = ss₁ ++ .hit h d :: ss₂)
    (hpieces : Directive.pattern.pieces (Signs.veiled v (ss.flatMap Stretch.signs)) =
      ss.flatMap (Stretch.pieces v))
    {i : Inclusion} (hi : (d v).inclusion? = some i) :
    ⟨(Signs.veiled v (ss₁.flatMap Stretch.signs)).length,
        (Signs.veiled v (ss₁.flatMap Stretch.signs)).length + (h.veiled v).length, h.veiled v, i⟩ ∈
      Directive.inclusions (Signs.veiled v (ss.flatMap Stretch.signs)) := by
  rw [Directive.inclusions, Directive.collect, Directive.find, Pattern.find, hpieces, hss,
    List.flatMap_append, Pattern.locate_append, sources_pieces, Nat.zero_add]
  refine List.mem_filterMap.2 ⟨_, List.mem_append_right _ List.mem_cons_self, ?_⟩
  simp [Located.filterMap, hi]

/-- A block that no include reaches over stays when the includes are filled in. -/
theorem block_mem_put {v : Veil} (hv : v.Wordlike) {g : Signs} {n : Nat} {w : Text}
    (h : Sign.block n w ∈ g)
    (havoided : Text.Avoided (v n) (g.veiled v) (Directive.inclusions (g.veiled v))) (ts : List Text) :
    Sign.block n w ∈ g.put ts := by
  obtain ⟨ss, rfl, hsaid, hpieces, hstretches⟩ := Directive.exists_stretches g
  obtain ⟨s, hs, hblock⟩ := List.mem_flatMap.1 h
  have hnone : (s.map fun d => d Veil.bar).inclusion? = none := by
    cases s with
    | plain x => rfl
    | hit k d =>
      refine Option.eq_none_iff_forall_ne_some.2 fun j hj => ?_
      obtain ⟨i, hi⟩ : ∃ i, (d v).inclusion? = some i := by
        rw [← Option.isSome_iff_exists, (hsaid k d hs).isSome_inclusion? hv Veil.wordlike_bar]
        exact Option.isSome_iff_exists.2 ⟨j, hj⟩
      -- the include would reach over the block
      obtain ⟨ss₁, ss₂, hss⟩ := List.append_of_mem hs
      obtain ⟨k₁, k₂, rfl⟩ := List.append_of_mem hblock
      have htext : Signs.veiled v (ss.flatMap Stretch.signs) =
          (Signs.veiled v (ss₁.flatMap Stretch.signs) ++ Signs.veiled v k₁) ++ v n ++
            (Signs.veiled v k₂ ++ Signs.veiled v (ss₂.flatMap Stretch.signs)) := by
        simp [hss, Stretch.signs, Sign.veiled]
      have hmem := mem_inclusions hss (hpieces v hv) hi
      rw [htext] at havoided hmem
      have hpos : 0 < (v n).length := List.length_pos_iff.2 (hv.ne_nil n)
      have hapart := havoided.covers_eq_false (hv.ne_nil n) hmem
      simp only [Located.covers, veiled_append, veiled_cons, Sign.veiled, List.length_append,
        Bool.and_eq_false_iff, decide_eq_false_iff_not] at hapart
      omega
  rw [put, hstretches]
  refine mem_putAll (List.mem_map_of_mem hs) hnone ?_ ts
  cases s <;> exact hblock

end Signs

namespace Alias

open Verbatim (placeholder wrap mask signs spans Balanced IsToken)

/-- A block that no alias directive reaches over is left when alias directives are gone. -/
theorem block_mem_left {t s : Text} (ht : IsToken t) {n : Nat} {w : Text}
    (h : Sign.block n w ∈ signs s)
    (havoided : Text.Avoided (placeholder t n) (mask t s) (find (mask t s))) :
    Sign.block n w ∈ left t s := by
  have hv := Verbatim.wordlike_placeholder ht
  obtain ⟨g₁, g₂, hg⟩ := List.append_of_mem h
  have hmask : mask t s =
      Signs.veiled (placeholder t) g₁ ++ placeholder t n ++ Signs.veiled (placeholder t) g₂ := by
    rw [Verbatim.mask_eq_veiled, hg]
    simp [Sign.veiled]
  have hkeep : gone (pattern.find (mask t s)) (Signs.veiled (placeholder t) g₁).length = false := by
    rw [gone, List.any_eq_false]
    intro m hm
    have hfind : m ∈ find (mask t s) := hm
    rw [hmask] at havoided hfind
    exact Bool.eq_false_iff.1 (havoided.covers_eq_false (hv.ne_nil n) hfind)
  rw [left, hg, Signs.outside_append, Nat.zero_add, Signs.outside, if_neg (by simp [hkeep])]
  exact List.mem_append_right _ List.mem_cons_self

end Alias

namespace Resolution

open Verbatim

/-! ### Pages with one text in a block -/

theorem mask_wrap (t : Text) {p x : Text} (hp : Balanced p) (hx : Balanced x) (s : Text) :
    mask t (p ++ wrap x ++ s) = mask t (p ++ wrap [] ++ s) := by
  rw [mask_eq_veiled, mask_eq_veiled, signs_wrap hp hx, signs_wrap hp balanced_nil]
  simp [Sign.veiled]

/-- A protected block between `p` and `s` that no include and no alias directive reaches
    over, when blocks are masked with the token `t`.  The masked page does not depend on
    the text in the block. -/
structure Sheltered (t p s : Text) : Prop where
  token : IsToken t
  balanced : Balanced p
  aliases : Text.Avoided (placeholder t (spans p).length) (mask t (p ++ wrap [] ++ s))
    (Alias.find (mask t (p ++ wrap [] ++ s)))
  includes : Text.Avoided (placeholder t (spans p).length)
    (Alias.strip (mask t (p ++ wrap [] ++ s)))
    (Directive.inclusions (Alias.strip (mask t (p ++ wrap [] ++ s))))

/-- With a token, the rest can be computed. -/
theorem Sheltered.of_parts {t p s : Text} (ht : IsToken t)
    (h : Balanced p ∧
      Text.Avoided (placeholder t (spans p).length) (mask t (p ++ wrap [] ++ s))
        (Alias.find (mask t (p ++ wrap [] ++ s))) ∧
      Text.Avoided (placeholder t (spans p).length) (Alias.strip (mask t (p ++ wrap [] ++ s)))
        (Directive.inclusions (Alias.strip (mask t (p ++ wrap [] ++ s))))) : Sheltered t p s :=
  ⟨ht, h.1, h.2.1, h.2.2⟩

/-- The sign of the block between `p` and `s`, when it holds nothing. -/
def emptyBlock (p : Text) : Sign := .block (spans p).length []

/-- The signs of the page with nothing in the block, when `ts` became of its includes. -/
def framed (t p s : Text) (ts : List Text) : Signs := (Alias.left t (p ++ wrap [] ++ s)).put ts

namespace Sheltered

variable {t p s : Text}

theorem block_mem_framed (h : Sheltered t p s) (ts : List Text) : emptyBlock p ∈ framed t p s ts := by
  have hsigns : emptyBlock p ∈ signs (p ++ wrap [] ++ s) := by
    rw [signs_wrap h.balanced balanced_nil, emptyBlock]
    exact List.mem_append_right _ List.mem_cons_self
  have hleft := Alias.block_mem_left h.token hsigns h.aliases
  refine Signs.block_mem_put (wordlike_placeholder h.token) hleft ?_ ts
  rw [Alias.veiled_left h.token]
  exact h.includes

/-- The other blocks of the finished page are blocks of the page, whatever `x` is. -/
theorem mem_signs_of_mem_framed (h : Sheltered t p s) {x : Text} (hx : Balanced x) {ts : List Text}
    {m : Nat} {w : Text} (hw : Sign.block m w ∈ framed t p s ts) (hm : m ≠ (spans p).length) :
    Sign.block m w ∈ signs (p ++ wrap x ++ s) := by
  have hsigns := (Alias.left_sublist t _).subset (Signs.block_mem_of_mem_put hw)
  rw [signs_wrap h.balanced balanced_nil, List.mem_append, List.mem_cons] at hsigns
  rw [signs_wrap h.balanced hx, List.mem_append, List.mem_cons]
  rcases hsigns with hfront | hblock | hback
  · exact Or.inl hfront
  · exact absurd (Sign.block.inj hblock).1 hm
  · exact Or.inr (Or.inr hback)

/-- Whatever is in the block, the page is restored around it in the same way. -/
theorem restore_framed (h : Sheltered t p s) {x : Text} (hx : Balanced x) (ts : List Text)
    (hfree : ¬ t <:+: ((framed t p s ts).front (emptyBlock p)).bare ++ x ++
      ((framed t p s ts).back (emptyBlock p)).bare) :
    restore (blocks t (p ++ wrap x ++ s))
        ((Alias.strip (mask t (p ++ wrap x ++ s))).splice (List.zipWith Pattern.editWith
          (Directive.inclusions (Alias.strip (mask t (p ++ wrap x ++ s)))) ts)) =
      ((framed t p s ts).front (emptyBlock p)).bare ++ x ++
        ((framed t p s ts).back (emptyBlock p)).bare := by
  have hframed := Signs.front_append_back (h.block_mem_framed ts)
  generalize (framed t p s ts).front (emptyBlock p) = a at hfree hframed ⊢
  generalize (framed t p s ts).back (emptyBlock p) = b at hfree hframed ⊢
  -- the same signs, with the text in the block
  have hveiled : Signs.veiled (placeholder t) (framed t p s ts) =
      Signs.veiled (placeholder t) (a ++ .block (spans p).length x :: b) := by
    rw [← hframed]
    simp [emptyBlock, Sign.veiled]
  have hbare : Signs.bare (a ++ .block (spans p).length x :: b) = a.bare ++ x ++ b.bare := by
    simp [Sign.bare]
  have hnumbers : Signs.numbers (a ++ .block (spans p).length x :: b) = (framed t p s ts).numbers := by
    rw [← hframed]
    simp [emptyBlock]
  have hnodup : (framed t p s ts).numbers.Nodup :=
    (nodup_numbers (Alias.left_sublist t _)).sublist (Signs.numbers_put_sublist ts _)
  have hone : (spans p).length ∉ Signs.numbers (a ++ b) := by
    rw [← hnumbers, Signs.numbers_append, Signs.numbers_block, List.nodup_middle, List.nodup_cons,
      ← Signs.numbers_append] at hnodup
    exact hnodup.1
  have hother : ∀ m w, Sign.block m w ∈ a ++ b → Sign.block m w ∈ signs (p ++ wrap x ++ s) := by
    intro m w hw
    have hmem : Sign.block m w ∈ framed t p s ts := by
      rw [← hframed]
      exact List.mem_append.2 ((List.mem_append.1 hw).imp id (List.mem_cons_of_mem _))
    refine h.mem_signs_of_mem_framed hx hmem ?_
    rintro rfl
    exact hone (Signs.mem_numbers.2 ⟨w, hw⟩)
  have hstripped : Alias.strip (mask t (p ++ wrap x ++ s)) =
      (Alias.left t (p ++ wrap [] ++ s)).veiled (placeholder t) := by
    rw [mask_wrap t h.balanced hx, Alias.veiled_left h.token]
  rw [hstripped, Signs.splice_eq_veiled_put (wordlike_placeholder h.token)]
  refine (congrArg (restore _) hveiled).trans ?_
  rw [← hbare] at hfree ⊢
  refine restore_veiled h.token hfree (hnumbers ▸ hnodup) fun m w hw => ?_
  rcases List.mem_append.1 hw with hw | hw
  · exact hother m w (List.mem_append_left _ hw)
  · rcases List.mem_cons.1 hw with hblock | hw
    · rw [hblock, signs_wrap h.balanced hx]
      exact List.mem_append_right _ List.mem_cons_self
    · exact hother m w (List.mem_append_right _ hw)

end Sheltered

/-! ### A pass over such a page -/

variable {ω τ : Type}

theorem start_wrap {p x : Text} (hp : Balanced p) (hx : Balanced x) (s : Text) (d : Desk ω τ) :
    start (p ++ wrap x ++ s) d = { d with drawn := d.drawn + 1, fetched := OrderedMap.empty } := by
  have hblocks : hasBlocks (p ++ wrap x ++ s) = true := by
    rw [hasBlocks, spans_wrap hp hx]
    simp
  rw [start, drawnAfter, if_pos hblocks]

section

variable [Sub τ] [LT τ] [DecidableLT τ]

/-- The work on a page's own includes. -/
def ownOutcomes (document : Document ω τ) (env : Setting ω τ) (t s contract : Text)
    (aliases : Aliases) : Work ω τ (List (Planned × Outcome)) :=
  outcomes (outcome document env [] (Aliases.extend aliases (Alias.defined (mask t s))))
    OrderedMap.empty (plans t s contract aliases)

/-- The outcomes stand in the places of the page's own includes. -/
theorem edits_ownOutcomes {document : Document ω τ} {env : Setting ω τ} {t s contract : Text}
    {aliases : Aliases} {q : Pass ω τ} {os : List (Planned × Outcome)}
    (h : ((ownOutcomes document env t s contract aliases).run q).1 = .ok os) :
    os.map edit = List.zipWith Pattern.editWith (Directive.inclusions (Alias.strip (mask t s)))
      (os.map fun o => o.2.content) := by
  have hone : ∀ p ∈ plans t s contract aliases, Keeps (fun _ => True) False (fun _ => True)
      (outcome document env [] (Aliases.extend aliases (Alias.defined (mask t s))) p) :=
    fun p _ _ _ => ⟨trivial, fun _ _ => trivial, False.elim⟩
  have hplans := (keeps_outcomes hone (fun _ _ _ _ _ _ _ => trivial)
    (fun p _ o (_ : OrderedMap.empty.get? p.key = some o) => trivial) q trivial).2.1 os h
  have hplaces : os.map (fun o => o.1.place) = Directive.inclusions (Alias.strip (mask t s)) := by
    have hmap := congrArg (List.map Planned.place) hplans.1
    rw [plans, List.map_map, List.map_map] at hmap
    exact hmap.trans (List.map_id _)
  rw [← hplaces, List.zipWith_map, List.zipWith_self]
  rfl

/-- What a pass gives when the outcomes of the page's own includes are found. -/
def assembled (t s : Text) (work : Except Failure (List (Planned × Outcome)) × Pass ω τ) :
    Except Failure Resolution × Desk ω τ :=
  (work.1.map (assemble (Alias.strip (mask t s)) (blocks t s)), work.2.toDesk)

theorem run_eq_assembled (env : Setting ω τ) (depth : Nat) (s contract : Text) (aliases : Aliases)
    (d : Desk ω τ) :
    run env (depth + 1) s contract aliases d = assembled (env.token d.drawn) s
      ((ownOutcomes (resolve env depth) env (env.token d.drawn) s contract aliases).run (start s d)) := by
  have hassemble : resolveMasked (resolve env depth) env (env.token d.drawn) s contract [] aliases =
      (ownOutcomes (resolve env depth) env (env.token d.drawn) s contract aliases >>= fun os =>
        pure (assemble (Alias.strip (mask (env.token d.drawn) s)) (blocks (env.token d.drawn) s) os)) :=
    rfl
  rw [run_eq_resolveMasked, hassemble, bind_run]
  generalize (ownOutcomes (resolve env depth) env (env.token d.drawn) s contract aliases).run
    (start s d) = work
  rcases work with ⟨e | os, q⟩
  · rfl
  · rfl

/-- The contents that are spliced into the page; none when the work broke off. -/
def contents : Except Failure (List (Planned × Outcome)) → List Text
  | .ok os => os.map fun o => o.2.content
  | .error _ => []

/-- The signs of the finished page around an empty block. -/
def finished (env : Setting ω τ) (p s contract : Text) (aliases : Aliases) (d : Desk ω τ) : Nat → Signs
  | 0 => []
  | depth + 1 =>
    let t := env.token d.drawn
    let s' := p ++ wrap [] ++ s
    framed t p s (contents ((ownOutcomes (resolve env depth) env t s' contract aliases).run (start s' d)).1)

/-- What the reader of the finished page sees in front of the block. -/
def before (env : Setting ω τ) (depth : Nat) (p s contract : Text) (aliases : Aliases)
    (d : Desk ω τ) : Text :=
  ((finished env p s contract aliases d depth).front (emptyBlock p)).bare

/-- What the reader of the finished page sees behind the block. -/
def behind (env : Setting ω τ) (depth : Nat) (p s contract : Text) (aliases : Aliases)
    (d : Desk ω τ) : Text :=
  ((finished env p s contract aliases d depth).back (emptyBlock p)).bare

/-- A pass does not look into a protected block: whatever balanced text is in it, the calls,
    the cache, the keys and the report of a cycle are as for an empty block, and the text
    comes back as it was between parts that do not depend on it. -/
theorem run_wrapped (env : Setting ω τ) (depth : Nat) {p s : Text} (contract : Text)
    (aliases : Aliases) (d : Desk ω τ) (h : Sheltered (env.token d.drawn) p s) {x : Text}
    (hx : Balanced x)
    (hfree : ¬ env.token d.drawn <:+: before env depth p s contract aliases d ++ x ++
      behind env depth p s contract aliases d) :
    run env depth (p ++ wrap x ++ s) contract aliases d =
      ((run env depth (p ++ wrap [] ++ s) contract aliases d).1.map fun r =>
          { r with
            content := before env depth p s contract aliases d ++ x ++
              behind env depth p s contract aliases d },
        (run env depth (p ++ wrap [] ++ s) contract aliases d).2) := by
  cases depth with
  | zero => rfl
  | succ depth =>
    have hmask := mask_wrap (env.token d.drawn) h.balanced hx s
    have hstart : start (p ++ wrap x ++ s) d = start (p ++ wrap [] ++ s) d := by
      rw [start_wrap h.balanced hx, start_wrap h.balanced balanced_nil]
    have hown : ownOutcomes (resolve env depth) env (env.token d.drawn) (p ++ wrap x ++ s) contract
        aliases = ownOutcomes (resolve env depth) env (env.token d.drawn) (p ++ wrap [] ++ s) contract
        aliases := by
      rw [ownOutcomes, ownOutcomes, plans, plans, hmask]
    simp only [before, behind, finished] at hfree ⊢
    generalize hwork : (ownOutcomes (resolve env depth) env (env.token d.drawn) (p ++ wrap [] ++ s)
      contract aliases).run (start (p ++ wrap [] ++ s) d) = work at hfree ⊢
    rw [run_eq_assembled, run_eq_assembled, hown, hstart, hwork]
    rcases work with ⟨e | os, q⟩
    · simp only [assembled, Except.map]
    · have hrestore := h.restore_framed hx (contents (.ok os)) hfree
      have hedits := edits_ownOutcomes (congrArg Prod.fst hwork)
      simp only [contents] at hrestore ⊢
      rw [hmask, ← hedits] at hrestore
      simp only [assembled, Except.map, assemble, hmask, hrestore]

end

/-! ### A block full of directives, among others -/

def shelteredPages : Pages :=
  [(("A".toList, "render".toList), "a{{noparse}}{{include contract=B}}{{/noparse}}".toList),
    (("B".toList, "render".toList), "b".toList)]

def shelteredFront : Text := "{{aliases p=A}}x{{noparse}}y{{/noparse}}{{include contract=p}}".toList

def shelteredInner : Text :=
  "{{include contract=B}}{{aliases q=B}}{{chunk collection=c index=1}}{{noparse}}z{{/noparse}}".toList

def shelteredBack : Text := "{{include contract=B}}{{noparse}}{{include contract=A}}{{/noparse}}".toList

theorem sheltered_shelteredFront :
    Sheltered (shelteredPages.setting.token Desk.new.drawn) shelteredFront shelteredBack :=
  .of_parts (isToken_token 0) (by decide +kernel)

theorem run_wrapped_shelteredInner :
    (run shelteredPages.setting 3 (shelteredFront ++ wrap shelteredInner ++ shelteredBack) "C".toList
        OrderedMap.empty .new).1 =
      .ok ⟨"xya{{include contract=B}}".toList ++ shelteredInner ++ "b{{include contract=A}}".toList,
        false, ["B:||".toList, "A:||".toList]⟩ := by
  rw [run_wrapped shelteredPages.setting 3 "C".toList OrderedMap.empty .new sheltered_shelteredFront
    (by decide +kernel) (by decide +kernel)]
  decide +kernel

end Resolution
end PageAssembly
