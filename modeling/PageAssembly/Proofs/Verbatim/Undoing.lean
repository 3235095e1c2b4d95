/-
  PageAssembly/Proofs/Verbatim/Undoing.lean
  =========================================
  **Restoring undoes masking, but for the outer tags.**

  The blocks of a page lie apart and in order, the masked page has no block left, and putting
  the blocks back gives the page without the outer tags of its blocks: every other character is
  as it was, the tags inside of a block among them (`restore_mask`).

  The token must be fresh for the page as it will be read, without these tags.  It is not enough
  that it does not occur in the page: where a tag goes, the texts beside it meet, and they may
  make up the token between them (`restore_mask_met`).
-/
import PageAssembly.Proofs.Verbatim.Parts
import PageAssembly.Proofs.Verbatim.Restoring

namespace PageAssembly.Verbatim

/-! ### A page without its outer tags -/

/-- The deletion of the tags around each block. -/
def tagEdits (s : Text) : List Edit :=
  (spans s).flatMap fun p => [⟨p.start, p.innerStart, []⟩, ⟨p.innerStop, p.stop, []⟩]

/-- The page with the outer tags of its blocks deleted. -/
def unwrapped (s : Text) : Text := s.splice (tagEdits s)

theorem tagEdits_part {z o x c : Text} (hz : Stray z) (ho : IsBracket .opening o) (hx : Balanced x)
    (hc : IsBracket .closing c) (r : Text) :
    tagEdits (z ++ (o ++ x ++ c) ++ r) =
      ⟨z.length, z.length + o.length, []⟩ ::
        (⟨x.length, x.length + c.length, []⟩ ::
          (tagEdits r).map (Edit.later (x.length + c.length))).map (Edit.later (z.length + o.length)) := by
  rw [tagEdits, spans_part hz ho hx hc]
  simp only [List.flatMap_cons, List.flatMap_map, Span.later, tagEdits, List.map_cons, List.map_flatMap,
    Edit.later, List.cons_append, List.nil_append, List.map_nil, Nat.add_assoc]

theorem unwrapped_part {z o x c : Text} (hz : Stray z) (ho : IsBracket .opening o) (hx : Balanced x)
    (hc : IsBracket .closing c) (r : Text) :
    unwrapped (z ++ (o ++ x ++ c) ++ r) = z ++ (x ++ unwrapped r) := by
  have htext : z ++ (o ++ x ++ c) ++ r = z ++ (o ++ (x ++ (c ++ r))) := by simp
  rw [unwrapped, tagEdits_part hz ho hx hc, htext, Text.splice_cons_later, Text.splice_cons_later]
  rfl

/-- The reader of the finished page sees it without the outer tags. -/
theorem bare_signsAt (s : Text) (k : Nat) : (signsAt k s).bare = unwrapped s := by
  induction parted s generalizing k with
  | free hs =>
    rw [signsAt_free hs, Signs.bare_letters, unwrapped, tagEdits, hs]
    rfl
  | block hz ho hx hc _ ih =>
    rw [signsAt_part hz ho hx hc, unwrapped_part hz ho hx hc, Signs.bare_append, Signs.bare_letters,
      Signs.bare_cons, ih]
    rfl

/-! ### Blocks of a page -/

theorem pairwise_blocks (t s : Text) : (blocks t s).Pairwise fun a b => a.stop ≤ b.start := by
  have hspans := pairwise_spans s
  rw [← List.zipIdx_map_fst 0 (spans s), List.pairwise_map] at hspans
  rw [blocks, List.pairwise_map]
  exact hspans

theorem exists_span_of_mem_blocks {t s : Text} {b : Block} (h : b ∈ blocks t s) :
    ∃ p ∈ spans s, ∃ n, b = block t s n p := by
  obtain ⟨⟨p, n⟩, hp, rfl⟩ := List.mem_map.1 h
  exact ⟨p, List.fst_mem_of_mem_zipIdx hp, n, rfl⟩

theorem exists_block_of_mem_spans {s : Text} {p : Span} (h : p ∈ spans s) (t : Text) :
    ∃ n, block t s n p ∈ blocks t s := by
  obtain ⟨n, hn⟩ := List.mem_iff_getElem?.1 h
  exact ⟨n, List.mem_map.2 ⟨(p, n), List.mem_zipIdx_iff_getElem?.2 hn, rfl⟩⟩

/-- Balanced text between two tags is a block where nothing is open in front of it. -/
theorem exists_block_between {p o x c : Text} (hp : Settled p) (ho : IsBracket .opening o)
    (hx : Balanced x) (hc : IsBracket .closing c) (t r : Text) :
    ∃ b ∈ blocks t (p ++ (o ++ x ++ c) ++ r), b.start = p.length ∧ b.inner = x := by
  have hmem : (⟨p.length, p.length + o.length, p.length + o.length + x.length,
      p.length + o.length + x.length + c.length⟩ : Span) ∈ spans (p ++ (o ++ x ++ c) ++ r) := by
    rw [spans_block hp ho hx hc]
    exact List.mem_append_right _ List.mem_cons_self
  obtain ⟨n, hn⟩ := exists_block_of_mem_spans hmem t
  exact ⟨_, hn, rfl, inner_block p o x c r _ _⟩

/-- Blocks stand in order and apart, each the part of the page between its offsets, from an opening
    tag to a closing one with balanced text between them; and all such parts with nothing open in
    front of them are blocks.  The masked page has no block, whichever token it is masked with, and
    a token that does not occur in the page without the outer tags brings back that page. -/
theorem restore_mask {t : Text} (ht : IsToken t) (s : Text) :
    (blocks t s).Pairwise (fun a b => a.stop ≤ b.start) ∧
      (∀ b ∈ blocks t s, b.start < b.stop ∧ b.stop ≤ s.length ∧ b.source = s.slice b.start b.stop ∧
        Balanced b.inner ∧
          ∃ o c, IsBracket .opening o ∧ IsBracket .closing c ∧ b.source = o ++ b.inner ++ c) ∧
      (∀ p o x c r, s = p ++ (o ++ x ++ c) ++ r → Settled p → IsBracket .opening o → Balanced x →
        IsBracket .closing c → ∃ b ∈ blocks t s, b.start = p.length ∧ b.inner = x) ∧
      (∀ t', blocks t' (mask t s) = [] ∧ mask t' (mask t s) = mask t s) ∧
      (¬ t <:+: unwrapped s → restore (blocks t s) (mask t s) = unwrapped s) := by
  refine ⟨pairwise_blocks t s, ?_, ?_, ?_, ?_⟩
  · intro b hb
    obtain ⟨p, hp, n, rfl⟩ := exists_span_of_mem_blocks hb
    obtain ⟨hstart, hstop, hframed⟩ := framed_of_mem_spans hp
    exact ⟨hstart, hstop, rfl, hframed⟩
  · rintro p o x c r rfl hp ho hx hc
    exact exists_block_between hp ho hx hc t r
  · intro t'
    have hspans : spans (mask t s) = [] := by
      rw [mask_eq_veiled]
      exact spans_veiled (wordlike_placeholder ht) s 0
    exact ⟨blocks_eq_nil hspans t', mask_eq_self hspans t'⟩
  · intro hfresh
    have hbare : (signs s).bare = unwrapped s := bare_signsAt s 0
    rw [← hbare] at hfresh ⊢
    rw [mask_eq_veiled]
    exact restore_veiled ht hfresh (nodup_numbers (List.Sublist.refl _)) fun _ _ h => h

/-- Stray tags, tags in any letter case, a block in a block, and a block that holds nothing. -/
def tangled : Text :=
  "{{/noparse}}a{{NoParse}}b{{noparse}}{{/noparse}}c{{/NOPARSE}}{{noparse}}{{/noparse}}d{{noparse}}e".toList

theorem restore_mask_tangled :
    IsToken "0123456789ab".toList ∧ ¬ "0123456789ab".toList <:+: unwrapped tangled ∧
      (∃ b ∈ blocks "0123456789ab".toList tangled,
        b.start = 13 ∧ b.inner = "b{{noparse}}{{/noparse}}c".toList) ∧
      restore (blocks "0123456789ab".toList tangled) (mask "0123456789ab".toList tangled) =
        "{{/noparse}}ab{{noparse}}{{/noparse}}cd{{noparse}}e".toList := by
  have ht : IsToken "0123456789ab".toList := ⟨by decide, by decide⟩
  have hfresh : ¬ "0123456789ab".toList <:+: unwrapped tangled := by decide +kernel
  have hblocks := (restore_mask ht tangled).2.2.1
  have hrestore := (restore_mask ht tangled).2.2.2.2 hfresh
  refine ⟨ht, hfresh, ?_, ?_⟩
  · exact hblocks "{{/noparse}}a".toList "{{NoParse}}".toList "b{{noparse}}{{/noparse}}c".toList
      "{{/NOPARSE}}".toList "{{noparse}}{{/noparse}}d{{noparse}}e".toList (by decide +kernel)
      (by decide +kernel) ⟨"NoParse".toList, rfl, rfl⟩ (by decide +kernel) ⟨"NOPARSE".toList, rfl, rfl⟩
  · rw [hrestore]
    decide +kernel

/-- A block between the halves of a token. -/
def meeting : Text :=
  "___NOPARSE_{{noparse}}abcdef{{/noparse}}abcdef_1___{{noparse}}x{{/noparse}}".toList

/-- The token does not occur in the page, yet a block comes back in the wrong place. -/
theorem restore_mask_met :
    IsToken "abcdefabcdef".toList ∧ ¬ "abcdefabcdef".toList <:+: meeting ∧
      unwrapped meeting = "___NOPARSE_abcdefabcdef_1___x".toList ∧
      restore (blocks "abcdefabcdef".toList meeting) (mask "abcdefabcdef".toList meeting) =
        "x___NOPARSE_abcdefabcdef_1___".toList :=
  ⟨⟨by decide, by decide⟩, by decide +kernel, by decide +kernel, by decide +kernel⟩

end PageAssembly.Verbatim
