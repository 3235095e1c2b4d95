/-
  PageAssembly/Proofs/Inclusion/Settled.lean
  ==========================================
  **What a reader sees of a resolved page.**

  The page that a pass gives is the bare text of signs: those of the page that are left when
  alias directives are gone, with the contents of the includes among them (`settled`).  A block that
  no directive reaches over is one of these signs, so the text in it stands in the page between the bare
  text of what is in front of it and behind it (`content_of_spared`).
-/
import PageAssembly.Proofs.Inclusion.Inert

namespace PageAssembly

open Verbatim (placeholder mask blocks spans signs inner IsToken)

namespace Verbatim

theorem mem_signsFrom {s : Text} {ps : List (Span × Nat)} {p : Span} {n : Nat} (h : (p, n) ∈ ps) (cursor : Nat)
    (rest : Text) : Sign.block n (inner s p) ∈ signsFrom s cursor rest ps := by
  induction ps generalizing cursor rest with
  | nil => exact absurd h List.not_mem_nil
  | cons q ps ih =>
    rw [signsFrom]
    refine List.mem_append_right _ ?_
    rcases List.mem_cons.1 h with rfl | h
    · exact List.mem_cons_self
    · exact List.mem_cons_of_mem _ (ih h q.1.stop _)

/-- The blocks of a page are among its signs. -/
theorem mem_signs_of_blocks {t s x : Text} {n : Nat} (h : ((blocks t s)[n]?).map Block.inner = some x) :
    Sign.block n x ∈ signs s := by
  obtain ⟨b, hb, rfl⟩ := Option.map_eq_some_iff.1 h
  rw [blocks, List.getElem?_map, List.getElem?_zipIdx] at hb
  obtain ⟨q, hq, rfl⟩ := Option.map_eq_some_iff.1 hb
  obtain ⟨p, hp, rfl⟩ := Option.map_eq_some_iff.1 hq
  refine mem_signsFrom (List.mem_zipIdx_iff_getElem?.2 hp) 0 s

end Verbatim

namespace Resolution

/-- The block of the page with this number, with the text `x` in it, when no include and no alias
    directive reaches over it; blocks are masked with the token `t`. -/
structure Spared (t page : Text) (n : Nat) (x : Text) : Prop where
  token : IsToken t
  block : ((blocks t page)[n]?).map Verbatim.Block.inner = some x
  aliases : Text.Avoided (placeholder t n) (mask t page) (Alias.find (mask t page))
  includes : Text.Avoided (placeholder t n) (Alias.strip (mask t page))
    (Directive.inclusions (Alias.strip (mask t page)))

/-- With a token, the rest can be computed. -/
theorem Spared.of_parts {t page : Text} {n : Nat} {x : Text} (ht : IsToken t)
    (h : ((blocks t page)[n]?).map Verbatim.Block.inner = some x ∧
      Text.Avoided (placeholder t n) (mask t page) (Alias.find (mask t page)) ∧
        Text.Avoided (placeholder t n) (Alias.strip (mask t page))
          (Directive.inclusions (Alias.strip (mask t page)))) : Spared t page n x :=
  ⟨ht, h.1, h.2.1, h.2.2⟩

section

variable {ω τ : Type} [Sub τ] [LT τ] [DecidableLT τ]

/-- The signs of the resolved page. -/
def settled (env : Setting ω τ) (page contract : Text) (aliases : Aliases) (d : Desk ω τ) : Nat → Signs
  | 0 => []
  | depth + 1 =>
    (Alias.left (env.token d.drawn) page).put (contents
      ((ownOutcomes (resolve env depth) env (env.token d.drawn) page contract aliases).run (start page d)).1)

variable {env : Setting ω τ} {page contract x : Text} {aliases : Aliases} {d : Desk ω τ} {n depth : Nat} {r : Resolution}

/-- A resolved page is the bare text of its signs, unless the masks' token occurs there. -/
theorem content_of_run (ht : IsToken (env.token d.drawn))
    (hfresh : ¬ env.token d.drawn <:+: (settled env page contract aliases d depth).bare)
    (hrun : (run env depth page contract aliases d).1 = .ok r) :
    r.content = (settled env page contract aliases d depth).bare := by
  cases depth with
  | zero => cases hrun
  | succ depth =>
    rw [run_eq_assembled] at hrun
    simp only [settled] at hfresh ⊢
    rcases hwork : (ownOutcomes (resolve env depth) env (env.token d.drawn) page contract aliases).run (start page d)
      with ⟨e | os, q⟩
    · rw [hwork] at hrun
      cases hrun
    · rw [hwork] at hrun hfresh
      obtain rfl : assemble (Alias.strip (mask (env.token d.drawn) page)) (blocks (env.token d.drawn) page) os = r :=
        Except.ok.inj hrun
      have hedits := edits_ownOutcomes (congrArg Prod.fst hwork)
      have hnodup : ((Alias.left (env.token d.drawn) page).put (contents (.ok os))).numbers.Nodup :=
        (Verbatim.nodup_numbers (Alias.left_sublist _ page)).sublist (Signs.numbers_put_sublist _ _)
      have hblocks : ∀ m w, Sign.block m w ∈ (Alias.left (env.token d.drawn) page).put (contents (.ok os)) →
          Sign.block m w ∈ signs page :=
        fun m w hw => (Alias.left_sublist _ page).subset (Signs.block_mem_of_mem_put hw)
      rw [assemble, hedits, ← Alias.veiled_left ht,
        Signs.splice_eq_veiled_put (Verbatim.wordlike_placeholder ht)]
      exact Verbatim.restore_veiled ht hfresh hnodup hblocks

/-- A block that no directive reaches over is a sign of the resolved page. -/
theorem Spared.mem_settled (h : Spared (env.token d.drawn) page n x) (contract : Text) (aliases : Aliases)
    (hdepth : 0 < depth) : Sign.block n x ∈ settled env page contract aliases d depth := by
  obtain ⟨depth, rfl⟩ := Nat.exists_eq_succ_of_ne_zero hdepth.ne'
  have hleft := Alias.block_mem_left h.token (Verbatim.mem_signs_of_blocks h.block) h.aliases
  refine Signs.block_mem_put (Verbatim.wordlike_placeholder h.token) hleft ?_ _
  rw [Alias.veiled_left h.token]
  exact h.includes

/-- The text in a block that no directive reaches over stands in the resolved page as it was. -/
theorem content_of_spared (h : Spared (env.token d.drawn) page n x)
    (hfresh : ¬ env.token d.drawn <:+: (settled env page contract aliases d depth).bare)
    (hrun : (run env depth page contract aliases d).1 = .ok r) :
    r.content = ((settled env page contract aliases d depth).front (.block n x)).bare ++ x ++
      ((settled env page contract aliases d depth).back (.block n x)).bare := by
  have hdepth : 0 < depth := by
    cases depth with
    | zero => cases hrun
    | succ depth => exact Nat.succ_pos depth
  have hsplit := Signs.front_append_back (h.mem_settled contract aliases hdepth)
  rw [content_of_run h.token hfresh hrun]
  conv_lhs => rw [← hsplit]
  simp [Sign.bare]

end

end Resolution
end PageAssembly
