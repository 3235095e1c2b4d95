/-
  PageAssembly/Proofs/Chunk/Rendering.lean
  ========================================
  **A page with its chunks in place is exactly that.**

  `Rendering.exactPage` says, directive by directive and with no placeholder looked for again,
  what stands in a rendered page: for a chunk its content or its placeholder, for a
  continuation the contents of its chunks, for a render directive its placeholder.
  `render_exact` says that rendering gives this page, whatever of the store came in.

  The page is made a draft (`Draft.ofPieces`), in which each placeholder still knows where its
  directive stood.  Two directives may have one id: chunk directives with one id ask for one
  chunk, and so one content is right for all of them; continuations with one id may go
  on differently, and there the fills of an id are those of its continuations in document order
  (`fillsById`), each made of the chunks expanded at its own offset (`fillOf_expansion`).
-/
import PageAssembly.Proofs.Chunk.Delivering
import PageAssembly.Proofs.Chunk.Drafts

namespace PageAssembly

open Pattern

/-! ### What stands in the page -/

def Deferred.progressive? : Deferred → Option Progressive
  | .progressive p => some p
  | .render _ => none

def Deferred.continuation? : Deferred → Option Continuation
  | .progressive (.continuation c) => some c
  | _ => none

theorem Deferred.kinds (d : Deferred) :
    (∃ c, d = .progressive (.chunk c)) ∨ (∃ c, d = .progressive (.continuation c)) ∨ ∃ r, d = .render r := by
  rcases d with (c | c) | r
  · exact .inl ⟨c, rfl⟩
  · exact .inr (.inl ⟨c, rfl⟩)
  · exact .inr (.inr ⟨r, rfl⟩)

namespace Rendering

variable {ω : Type}

/-- The contents of the chunks of a continuation, in the order of their numbers; a chunk that
    was not loaded adds nothing. -/
def stretch (found : ChunkKey → Option Text) (known : Text → Option ChunkCounts) (c : Continuation) : Text :=
  (Delivery.indices c.first (Delivery.reach known c)).flatMap fun i : Nat => (found ⟨c.collection, i⟩).getD []

/-- What stands in a page for a directive, given the contents that were loaded. -/
def shown (found : ChunkKey → Option Text) (known : Text → Option ChunkCounts) (aborted : Bool) :
    Deferred → Text
  | .progressive (.chunk c) => (found c.key).getD c.placeholder
  | .progressive (.continuation c) => stretch found known c ++ if aborted then c.placeholder else []
  | .render r => r.placeholder

/-- The page with every directive that is answered later replaced by what stands for it; all other
    text stays. -/
def exactPage (found : ChunkKey → Option Text) (known : Text → Option ChunkCounts) (aborted : Bool)
    (page : Text) : Text :=
  Directive.pattern.substitute (fun source d => (d.deferred?.map (shown found known aborted)).getD source) page

/-- The contents of the chunks that were loaded, as the store has them. -/
def loadedFrom (store : Store) (cs : List Delivered) (k : ChunkKey) : Option Text :=
  if k ∈ cs.map Delivered.key then some (store.content k) else none

/-! ### Contents by chunk -/

theorem contents_append (cs : List Delivered) (c : Delivered) :
    contents (cs ++ [c]) = (contents cs).insert c.key c.content := by
  unfold contents OrderedMap.ofList OrderedMap.insertAll
  rw [List.map_append, List.foldl_append]
  rfl

theorem get?_contents {cs : List Delivered} {store : Store} (h : ∀ c ∈ cs, c.content = store.content c.key)
    (k : ChunkKey) : (contents cs).get? k = loadedFrom store cs k := by
  unfold loadedFrom
  induction cs using List.reverseRecOn with
  | nil => rfl
  | append_singleton cs c ih =>
    have hlast := h c (List.mem_append_right cs List.mem_cons_self)
    rw [contents_append, OrderedMap.get?_insert, ih fun c' hc' => h c' (List.mem_append_left _ hc')]
    by_cases hkey : c.key = k
    · rw [if_pos hkey, if_pos (by simp [hkey]), hlast, hkey]
    · have hmem : k ∈ (cs ++ [c]).map Delivered.key ↔ k ∈ cs.map Delivered.key := by
        simp [Ne.symm hkey]
      rw [if_neg hkey]
      simp only [hmem]

end Rendering

/-! ### The draft of a page -/

namespace Draft

/-- The draft with `h` of each directive in the place of its placeholder. -/
def shownAs (h : Deferred → Text) (ps : Draft) : Text :=
  ps.flatMap fun
    | .plain c => [c]
    | .hit _ d => h d.value

/-- The pieces of a page as a draft: directives that are answered later are placeholders. -/
def ofPieces : Nat → List (Piece Directive) → Draft
  | _, [] => []
  | offset, .plain c :: ps => .plain c :: ofPieces (offset + 1) ps
  | offset, .hit w d :: ps =>
    (match d.deferred? with
      | some x => [.hit x.placeholder ⟨offset, offset + w.length, w, x⟩]
      | none => w.map Piece.plain) ++ ofPieces (offset + w.length) ps

section

variable {ps : List (Piece Directive)} {offset : Nat}

theorem ofPieces_of_some {w : Text} {d : Directive} {x : Deferred} (h : d.deferred? = some x) :
    ofPieces offset (.hit w d :: ps) =
      .hit x.placeholder ⟨offset, offset + w.length, w, x⟩ :: ofPieces (offset + w.length) ps := by
  rw [ofPieces, h]
  rfl

theorem ofPieces_of_none {w : Text} {d : Directive} (h : d.deferred? = none) :
    ofPieces offset (.hit w d :: ps) = w.map Piece.plain ++ ofPieces (offset + w.length) ps := by
  rw [ofPieces, h]

/-- The drafts of parts of a page, each at its offset. -/
theorem ofPieces_append (offset : Nat) (ps qs : List (Piece Directive)) :
    ofPieces offset (ps ++ qs) =
      ofPieces offset ps ++ ofPieces (offset + (ps.flatMap Piece.source).length) qs := by
  induction ps generalizing offset with
  | nil => rfl
  | cons x ps ih =>
    cases x with
    | plain c =>
      rw [List.cons_append, ofPieces, ofPieces, ih, List.cons_append, List.flatMap_cons, List.length_append,
        Nat.add_assoc]
      rfl
    | hit w d =>
      rw [List.cons_append, ofPieces, ofPieces, ih, List.append_assoc, List.flatMap_cons,
        List.length_append, Nat.add_assoc]
      rfl

theorem shownAs_plain (h : Deferred → Text) (t : Text) (ps : Draft) :
    shownAs h (t.map Piece.plain ++ ps) = t ++ shownAs h ps := by
  simp [shownAs, List.flatMap_map]

theorem shownAs_placeholder {ps : Draft} (h : ∀ w d, .hit w d ∈ ps → w = d.value.placeholder) :
    shownAs Deferred.placeholder ps = text ps := by
  apply List.flatMap_congr
  intro x hx
  cases x with
  | plain c => rfl
  | hit w d => exact (h w d hx).symm

theorem shownAs_ofPieces (h : Deferred → Text) :
    shownAs h (ofPieces offset ps) = ps.flatMap (replaced fun d => d.deferred?.map h) := by
  induction ps generalizing offset with
  | nil => rfl
  | cons x ps ih =>
    cases x with
    | plain c => exact congrArg (c :: ·) ih
    | hit w d =>
      cases hd : d.deferred? with
      | some x =>
        rw [ofPieces_of_some hd, List.flatMap_cons, replaced, hd, ← ih]
        rfl
      | none =>
        rw [ofPieces_of_none hd, shownAs_plain, List.flatMap_cons, replaced, hd, ih]
        rfl

theorem values_ofPieces :
    values (ofPieces offset ps) = (locate offset ps).filterMap (Located.filterMap Directive.deferred?) := by
  induction ps generalizing offset with
  | nil => rfl
  | cons x ps ih =>
    cases x with
    | plain c => exact ih
    | hit w d =>
      rw [locate]
      cases hd : d.deferred? with
      | some x =>
        rw [ofPieces_of_some hd, values_hit, ih, List.filterMap_cons_some]
        simp [Located.filterMap, hd]
      | none =>
        rw [ofPieces_of_none hd, values_append, values_plain, List.nil_append, ih, List.filterMap_cons_none]
        simp [Located.filterMap, hd]

theorem source_ofPieces {w : Text} {d : Located Deferred} (h : .hit w d ∈ ofPieces offset ps) :
    w = d.value.placeholder := by
  induction ps generalizing offset with
  | nil => cases h
  | cons x ps ih =>
    cases x with
    | plain c =>
      rcases List.mem_cons.1 h with heq | h
      · cases heq
      · exact ih h
    | hit v a =>
      cases ha : a.deferred? with
      | some x =>
        rw [ofPieces_of_some ha] at h
        rcases List.mem_cons.1 h with heq | h
        · cases heq
          rfl
        · exact ih h
      | none =>
        rw [ofPieces_of_none ha] at h
        exact ih (by simpa using h)

/-- The draft of a page without angle brackets is made of texts without them. -/
theorem made_ofPieces {ends passes : Text → Prop} (hends : ends []) (hpasses : ∀ t, '<' ∉ t → passes t)
    (h : '<' ∉ ps.flatMap Piece.source) : Made ends passes (ofPieces offset ps) := by
  induction ps generalizing offset with
  | nil => exact .last (t := []) hends
  | cons x ps ih =>
    rw [List.flatMap_cons, List.mem_append, not_or] at h
    obtain ⟨hx, hps⟩ := h
    cases x with
    | plain c => exact .stretch (t := [c]) (hpasses [c] hx) (ih hps)
    | hit w d =>
      cases hd : d.deferred? with
      | some x =>
        rw [ofPieces_of_some hd]
        exact .placeholder (d := ⟨offset, offset + w.length, w, x⟩) (ih hps)
      | none =>
        rw [ofPieces_of_none hd]
        exact .stretch (hpasses w hx) (ih hps)

end

end Draft

namespace Rendering

/-! ### The chunks that a directive asks for -/

/-- The chunk directives that the directives of a page stand for. -/
def tagsOf (known : Text → Option ChunkCounts) (ds : List (Located Deferred)) : List (Located Chunk) :=
  (ds.filterMap (Located.filterMap Deferred.progressive?)).flatMap (Delivery.expansion known)

section

variable {found : OrderedMap ChunkKey Text} {known : Text → Option ChunkCounts}
  {ds : List (Located Deferred)} {d : Located Deferred} {tags : List (Located Chunk)}

theorem tagsOf_append (ds es : List (Located Deferred)) :
    tagsOf known (ds ++ es) = tagsOf known ds ++ tagsOf known es := by
  rw [tagsOf, List.filterMap_append, List.flatMap_append]
  rfl

theorem tagsOf_chunk {c : Chunk} (hvalue : d.value = .progressive (.chunk c)) :
    tagsOf known [d] = [⟨d.start, d.stop, d.source, c⟩] := by
  have hfind : Located.filterMap Deferred.progressive? d = some ⟨d.start, d.stop, d.source, .chunk c⟩ := by
    rw [Located.filterMap, hvalue]
    rfl
  rw [tagsOf, List.filterMap_cons_some hfind]
  rfl

theorem tagsOf_continuation {c : Continuation} (hvalue : d.value = .progressive (.continuation c)) :
    tagsOf known [d] = (Delivery.indices c.first (Delivery.reach known c)).map
      fun i => ⟨d.start, d.stop, d.source, c.chunk i⟩ := by
  have hfind : Located.filterMap Deferred.progressive? d =
      some ⟨d.start, d.stop, d.source, .continuation c⟩ := by
    rw [Located.filterMap, hvalue]
    rfl
  rw [tagsOf, List.filterMap_cons_some hfind]
  exact List.append_nil _

theorem start_of_mem_tagsOf {tag : Located Chunk} (h : tag ∈ tagsOf known ds) :
    tag.start ∈ ds.map Located.start := by
  obtain ⟨e, he, htag⟩ := List.mem_flatMap.1 h
  obtain ⟨d, hd, hfind⟩ := List.mem_filterMap.1 he
  obtain ⟨p, -, rfl⟩ := Option.map_eq_some_iff.1 hfind
  have hstart : tag.start = d.start := by
    cases p with
    | chunk c =>
      obtain rfl := List.mem_singleton.1 htag
      rfl
    | continuation c =>
      obtain ⟨i, -, rfl⟩ := List.mem_map.1 htag
      rfl
  exact hstart ▸ List.mem_map_of_mem hd

/-- A chunk directive that is not expanded has the id of a directive on the page. -/
theorem id_of_mem_tagsOf {tag : Located Chunk} (h : tag ∈ tagsOf known ds) (hplain : tag.value.expanded = false) :
    ∃ p ∈ ds.filterMap (Located.filterMap Deferred.progressive?), p.value.id = tag.value.id := by
  obtain ⟨p, hp, htag⟩ := List.mem_flatMap.1 h
  refine ⟨p, hp, ?_⟩
  obtain ⟨start, stop, source, c | c⟩ := p
  · obtain rfl := List.mem_singleton.1 htag
    rfl
  · obtain ⟨i, -, rfl⟩ := List.mem_map.1 htag
    cases hplain

/-- The chunks that were expanded at the offset of a continuation are its own. -/
theorem fillOf_expansion (hstarts : (ds.map Located.start).Nodup) (hd : d ∈ ds) {c : Continuation}
    (hvalue : d.value = .progressive (.continuation c)) :
    fillOf found (tagsOf known ds) ⟨d.start, d.stop, d.source, c⟩ = stretch found.get? known c := by
  obtain ⟨before, after, rfl⟩ := List.append_of_mem hd
  have hother : ∀ es : List (Located Deferred), d.start ∉ es.map Located.start →
      (tagsOf known es).filter (fun t => t.value.expanded && t.start == d.start) = [] := by
    intro es hes
    apply List.filter_eq_nil_iff.2
    intro tag htag hown
    have hstart : tag.start = d.start := by
      rw [Bool.and_eq_true] at hown
      exact beq_iff_eq.1 hown.2
    exact hes (hstart ▸ start_of_mem_tagsOf htag)
  have hown : (tagsOf known [d]).filter (fun t => t.value.expanded && t.start == d.start) =
      tagsOf known [d] := by
    apply List.filter_eq_self.2
    rw [tagsOf_continuation hvalue]
    intro tag htag
    obtain ⟨i, -, rfl⟩ := List.mem_map.1 htag
    simp [Continuation.chunk]
  rw [List.map_append, List.map_cons, List.nodup_middle, List.nodup_cons, List.mem_append, not_or] at hstarts
  rw [fillOf, ← List.singleton_append, tagsOf_append, tagsOf_append, List.filter_append, List.filter_append,
    hother before hstarts.1.1, hother after hstarts.1.2, hown, tagsOf_continuation hvalue]
  rw [List.nil_append, List.append_nil, List.flatMap_map]
  rfl

/-! ### What is found for a placeholder -/

theorem findSome?_of_agree {α β : Type} {f : α → Option β} {v : Option β} {xs : List α}
    (hagree : ∀ x ∈ xs, f x = none ∨ f x = v) (hmem : ∃ x ∈ xs, f x = v) : xs.findSome? f = v := by
  cases hfind : xs.findSome? f with
  | none =>
    obtain ⟨x, hx, rfl⟩ := hmem
    exact (List.findSome?_eq_none_iff.1 hfind x hx).symm
  | some t =>
    obtain ⟨x, hx, hfx⟩ := List.exists_of_findSome?_eq_some hfind
    rcases hagree x hx with hnone | hv
    · rw [hnone] at hfx
      cases hfx
    · rw [← hfx, hv]

/-- Every chunk directive with the id of a chunk's placeholder asks for this chunk. -/
theorem chunkFill_chunk {c : Chunk} (hd : d ∈ ds) (hvalue : d.value = .progressive (.chunk c))
    (hplain : c.expanded = false) : Draft.chunkFill found (tagsOf known ds) d = found.get? c.key := by
  have hid : d.value.id = c.id := congrArg Deferred.id hvalue
  apply findSome?_of_agree
  · intro tag _
    unfold Draft.tagFill
    split
    · exact .inl rfl
    · next h =>
      rw [not_or, not_not] at h
      obtain ⟨c', hc', hkey⟩ := Deferred.exists_chunk_of_id h.2
      rw [hvalue] at hc'
      cases hc'
      exact .inr (congrArg found.get? hkey.symm)
  · refine ⟨⟨d.start, d.stop, d.source, c⟩, ?_, ?_⟩
    · obtain ⟨before, after, rfl⟩ := List.append_of_mem hd
      rw [← List.singleton_append, tagsOf_append, tagsOf_append, tagsOf_chunk hvalue]
      exact List.mem_append_right _ List.mem_cons_self
    · simp [Draft.tagFill, hplain, hid]

theorem chunkFill_other (h : ∀ c, d.value ≠ .progressive (.chunk c)) : Draft.chunkFill found tags d = none := by
  apply List.findSome?_eq_none_iff.2
  intro tag _
  unfold Draft.tagFill
  split
  · rfl
  · next hid =>
    rw [not_or, not_not] at hid
    obtain ⟨c, hc, -⟩ := Deferred.exists_chunk_of_id hid.2
    exact absurd hc (h c)

/-! ### Continuations that share an id -/

theorem fillsById_append (cs : List (Located Continuation)) (d : Located Continuation) :
    fillsById found tags (cs ++ [d]) = (fillsById found tags cs).insert d.value.id
      (((fillsById found tags cs).get? d.value.id).getD [] ++ [fillOf found tags d]) := by
  unfold fillsById
  rw [List.foldl_append]
  rfl

/-- The fills of an id are those of the continuations that have it, in order. -/
theorem get?_fillsById (cs : List (Located Continuation)) (id : Text) :
    (fillsById found tags cs).get? id =
      if ∃ d ∈ cs, d.value.id = id then
        some ((cs.filter fun d => d.value.id = id).map (fillOf found tags))
      else none := by
  induction cs using List.reverseRecOn with
  | nil => rfl
  | append_singleton cs d ih =>
    rw [fillsById_append, OrderedMap.get?_insert]
    by_cases hid : d.value.id = id
    · have hexists : ∃ e ∈ cs ++ [d], e.value.id = id := ⟨d, List.mem_append_right cs List.mem_cons_self, hid⟩
      have hbefore : ((fillsById found tags cs).get? id).getD [] =
          (cs.filter fun d => d.value.id = id).map (fillOf found tags) := by
        rw [ih]
        split
        · rfl
        · next hnone =>
          rw [List.filter_eq_nil_iff.2 fun e he => by simpa using fun heq => hnone ⟨e, he, heq⟩]
          rfl
      rw [if_pos hid, if_pos hexists, hid, hbefore]
      simp [List.filter_append, hid]
    · have hexists : (∃ e ∈ cs ++ [d], e.value.id = id) ↔ ∃ e ∈ cs, e.value.id = id := by
        simp [or_and_right, exists_or, hid]
      rw [if_neg hid, ih]
      simp [List.filter_append, hid]

theorem mem_keys_fillsById {cs : List (Located Continuation)} {id : Text} :
    id ∈ (fillsById found tags cs).keys ↔ ∃ d ∈ cs, d.value.id = id := by
  have hget : (fillsById found tags cs).get? id = _ := get?_fillsById cs id
  constructor
  · intro h
    obtain ⟨e, he, rfl⟩ := List.mem_map.1 h
    rw [OrderedMap.get?_eq_some_iff.2 he] at hget
    by_contra hnone
    rw [if_neg hnone] at hget
    cases hget
  · intro h
    rw [if_pos h] at hget
    exact List.mem_map_of_mem (OrderedMap.get?_eq_some_iff.1 hget)

theorem filterMap_continuation? {c : Continuation} (hvalue : d.value = .progressive (.continuation c)) :
    Located.filterMap Deferred.continuation? d = some ⟨d.start, d.stop, d.source, c⟩ := by
  rw [Located.filterMap, hvalue]
  rfl

theorem filterMap_continuation?_other (h : ∀ c, d.value ≠ .progressive (.continuation c)) :
    Located.filterMap Deferred.continuation? d = none := by
  rw [Located.filterMap]
  rcases hvalue : d.value with (c | c) | r
  · rfl
  · exact absurd hvalue (h c)
  · rfl

/-- What the placeholder of a continuation is filled with. -/
def fillAt (found : OrderedMap ChunkKey Text) (tags : List (Located Chunk)) (d : Located Deferred) : Text :=
  ((Located.filterMap Deferred.continuation? d).map (fillOf found tags)).getD []

/-- What the placeholders of an id are filled with, when it is the id of a continuation. -/
theorem map_fillAt (e : Continuation) (ds : List (Located Deferred)) :
    (ds.filter fun d => d.value.id = e.id).map (fillAt found tags) =
      ((ds.filterMap (Located.filterMap Deferred.continuation?)).filter
        fun d => d.value.id = e.id).map (fillOf found tags) := by
  induction ds with
  | nil => rfl
  | cons d ds ih =>
    by_cases hcontinuation : ∃ c, d.value = .progressive (.continuation c)
    · obtain ⟨c, hvalue⟩ := hcontinuation
      have hfind := filterMap_continuation? hvalue
      have hsame : d.value.id = c.id := congrArg Deferred.id hvalue
      have hfill : fillAt found tags d = fillOf found tags ⟨d.start, d.stop, d.source, c⟩ := by
        rw [fillAt, hfind]
        rfl
      rw [List.filterMap_cons_some hfind]
      by_cases hid : c.id = e.id
      · simp only [List.filter_cons, hsame, hid, decide_true, if_true, List.map_cons, ih, hfill]
      · simp only [List.filter_cons, hsame, hid, decide_false, Bool.false_eq_true, if_false, ih]
    · have hother : d.value.id ≠ e.id := fun hid => hcontinuation (Deferred.exists_continuation_of_id hid)
      rw [List.filterMap_cons_none (filterMap_continuation?_other fun c hc => hcontinuation ⟨c, hc⟩)]
      simp only [List.filter_cons, hother, decide_false, Bool.false_eq_true, if_false, ih]

theorem passes_fillAt {ids : Set Text} (hfound : ∀ k t, found.get? k = some t → Placeholder.Passes ids t)
    (d : Located Deferred) : Placeholder.Passes ids (fillAt found tags d) := by
  have hnil : Placeholder.Passes ids [] := Placeholder.passes_of_not_mem List.not_mem_nil
  unfold fillAt
  cases Located.filterMap Deferred.continuation? d with
  | none => exact hnil
  | some c =>
    refine Placeholder.passes_flatMap fun tag _ => ?_
    cases hget : found.get? tag.value.key with
    | none => exact hnil
    | some t => exact hfound _ t hget

end

/-! ### Filling a page -/

theorem continuations_eq (ds : List (Located Deferred)) :
    continuations (ds.filterMap (Located.filterMap Deferred.progressive?)) =
      ds.filterMap (Located.filterMap Deferred.continuation?) := by
  rw [continuations, List.filterMap_filterMap]
  apply List.filterMap_congr
  intro d _
  rw [Located.filterMap, Located.filterMap]
  rcases d.value with (c | c) | r
  · rfl
  · rfl
  · rfl

section

variable {found : OrderedMap ChunkKey Text} {known : Text → Option ChunkCounts} {ps : Draft}

theorem marked_chunkFill (e : Continuation) (tags : List (Located Chunk)) :
    Draft.marked e.id (Draft.put false (Draft.chunkFill found tags) ps) = Draft.marked e.id ps := by
  apply Draft.marked_put
  intro d _ hid
  obtain ⟨c, hvalue⟩ := Deferred.exists_continuation_of_id hid
  apply chunkFill_other
  intro c' hvalue'
  rw [hvalue] at hvalue'
  cases hvalue'

/-- The fills of the continuations among the directives of a page. -/
def fillsOf (found : OrderedMap ChunkKey Text) (tags : List (Located Chunk)) (ds : List (Located Deferred)) :
    OrderedMap Text (List Text) :=
  fillsById found tags (ds.filterMap (Located.filterMap Deferred.continuation?))

variable {tags : List (Located Chunk)} {ds : List (Located Deferred)}

theorem exists_id_of_mem_keys {id : Text} (h : id ∈ (fillsOf found tags ds).keys) :
    ∃ c : Continuation, c.id = id := by
  obtain ⟨d, -, hd⟩ := mem_keys_fillsById.1 h
  exact ⟨d.value, hd⟩

theorem exists_of_mem_keys {id : Text} (h : id ∈ (fillsOf found tags ds).keys) :
    ∃ p ∈ ds.filterMap (Located.filterMap Deferred.progressive?), p.value.id = id := by
  obtain ⟨e, he, hid⟩ := mem_keys_fillsById.1 h
  obtain ⟨d, hd, hfind⟩ := List.mem_filterMap.1 he
  obtain ⟨c, hc, rfl⟩ := Option.map_eq_some_iff.1 hfind
  have hvalue : d.value = .progressive (.continuation c) := by
    rcases hd' : d.value with (c' | c') | r
    · rw [hd'] at hc
      cases hc
    · rw [hd'] at hc
      cases hc
      rfl
    · rw [hd'] at hc
      cases hc
  refine ⟨⟨d.start, d.stop, d.source, .continuation c⟩, List.mem_filterMap.2 ⟨d, hd, ?_⟩, hid⟩
  rw [Located.filterMap, hvalue]
  rfl

theorem mem_keys_fillsOf {d : Located Deferred} (hd : d ∈ ds) {c : Continuation}
    (hvalue : d.value = .progressive (.continuation c)) : d.value.id ∈ (fillsOf found tags ds).keys := by
  refine mem_keys_fillsById.2 ⟨_, List.mem_filterMap.2 ⟨d, hd, filterMap_continuation? hvalue⟩, ?_⟩
  exact (congrArg Deferred.id hvalue).symm

theorem not_mem_keys_fillsOf {d : Deferred} (h : ∀ c, d ≠ .progressive (.continuation c)) :
    d.id ∉ (fillsOf found tags ds).keys := by
  intro hid
  obtain ⟨c, hc⟩ := exists_id_of_mem_keys hid
  obtain ⟨c', hvalue⟩ := Deferred.exists_continuation_of_id hc.symm
  exact h c' hvalue

theorem entry_fillsOf {e : Text × List Text} (he : e ∈ (fillsOf found tags ds).entries) :
    e.2 = (ds.filter fun d => d.value.id = e.1).map (fillAt found tags) := by
  have hmem : e.1 ∈ (fillsOf found tags ds).keys := List.mem_map_of_mem he
  obtain ⟨c, hc⟩ := exists_id_of_mem_keys hmem
  have hget : (fillsOf found tags ds).get? e.1 = some
      (((ds.filterMap (Located.filterMap Deferred.continuation?)).filter fun d => d.value.id = e.1).map
        (fillOf found tags)) := by
    rw [fillsOf, get?_fillsById, if_pos (mem_keys_fillsById.1 hmem)]
  rw [OrderedMap.get?_eq_some_iff.2 he] at hget
  rw [Option.some.inj hget, ← hc, map_fillAt]

/-- What the two fillings make of the placeholder of a directive is what stands for it. -/
theorem filled_placeholder (keeps : Bool) (hstarts : (ds.map Located.start).Nodup)
    (hplain : ∀ d ∈ ds, ∀ c, d.value = .progressive (.chunk c) → c.expanded = false)
    {d : Located Deferred} (hd : d ∈ ds) :
    ((Draft.chunkFill found (tagsOf known ds) d).or
      ((if d.value.id ∈ (fillsOf found (tagsOf known ds) ds).keys then some (fillAt found (tagsOf known ds) d)
        else none).map fun t => t ++ if keeps then d.value.placeholder else [])).getD d.value.placeholder =
      shown found.get? known keeps d.value := by
  rcases d.value.kinds with ⟨c, hvalue⟩ | ⟨c, hvalue⟩ | ⟨r, hvalue⟩
  · have hnone : d.value.id ∉ (fillsOf found (tagsOf known ds) ds).keys :=
      not_mem_keys_fillsOf (by simp [hvalue])
    rw [chunkFill_chunk hd hvalue (hplain d hd c hvalue), if_neg hnone, hvalue, shown]
    cases found.get? c.key <;> rfl
  · have hfill : fillAt found (tagsOf known ds) d = stretch found.get? known c := by
      rw [fillAt, filterMap_continuation? hvalue]
      exact fillOf_expansion hstarts hd hvalue
    rw [chunkFill_other (by simp [hvalue]), if_pos (mem_keys_fillsOf hd hvalue), hfill, hvalue]
    rfl
  · have hnone : d.value.id ∉ (fillsOf found (tagsOf known ds) ds).keys :=
      not_mem_keys_fillsOf (by simp [hvalue])
    rw [chunkFill_other (by simp [hvalue]), if_neg hnone, hvalue]
    rfl

/-- Filling the placeholders of a page, chunks first and then continuations, puts in for each
    directive what stands for it. -/
theorem fill_draft (keeps : Bool) {ids : Set Text} (hclear : Draft.Clear ids ps)
    (hids : ∀ p ∈ (values ps).filterMap (Located.filterMap Deferred.progressive?), p.value.id ∈ ids)
    (hfound : ∀ k t, found.get? k = some t → Placeholder.Passes ids t)
    (hstarts : ((values ps).map Located.start).Nodup)
    (hplain : ∀ d ∈ values ps, ∀ c, d.value = .progressive (.chunk c) → c.expanded = false) :
    putContinuations keeps
        (fillsById found (tagsOf known (values ps))
          (continuations ((values ps).filterMap (Located.filterMap Deferred.progressive?))))
        (putChunks found (tagsOf known (values ps)) (Draft.text ps)) =
      Draft.shownAs (shown found.get? known keeps) ps := by
  let tags := tagsOf known (values ps)
  have hkeys : ∀ id ∈ (fillsOf found tags (values ps)).keys, ∃ e : Deferred, e.id = id ∧ id ∈ ids := by
    intro id hid
    obtain ⟨p, hp, rfl⟩ := exists_of_mem_keys hid
    exact ⟨.progressive p.value, rfl, hids p hp⟩
  have htags : ∀ tag ∈ tags, tag.value.expanded = false → tag.value.id ∈ ids := by
    intro tag htag hplain
    obtain ⟨p, hp, hid⟩ := id_of_mem_tagsOf htag hplain
    exact hid ▸ hids p hp
  -- the chunks that are in place do not change the placeholders of continuations
  have hfills : ∀ e ∈ (fillsOf found tags (values ps)).entries,
      e.2 = (Draft.marked e.1 (Draft.put false (Draft.chunkFill found tags) ps)).map (fillAt found tags) := by
    intro e he
    obtain ⟨c, hc⟩ := exists_id_of_mem_keys (List.mem_map_of_mem he)
    rw [← hc, marked_chunkFill, hc]
    exact entry_fillsOf he
  rw [continuations_eq, Draft.putChunks_text hfound _ htags hclear, ← fillsOf,
    Draft.putContinuations_text keeps (passes_fillAt hfound) _ hkeys hfills
      (Draft.clear_chunkFill hfound tags hclear), Draft.text_put_put]
  apply List.flatMap_congr
  intro x hx
  cases x with
  | plain c => rfl
  | hit w d =>
    obtain rfl : w = d.value.placeholder := hclear.source hx
    have hd : d ∈ values ps := List.mem_filterMap.2 ⟨_, hx, rfl⟩
    exact filled_placeholder keeps hstarts hplain hd

end

/-! ### The directives of a page -/

theorem deferred?_progressive (d : Directive) : d.progressive? = d.deferred?.bind Deferred.progressive? := by
  unfold Directive.deferred?
  cases hd : d.progressive? with
  | some p => rfl
  | none => cases d.render? <;> rfl

theorem progressive_ofText (page : Text) :
    (Conversion.ofText page).progressive =
      (Conversion.deferred page).filterMap (Located.filterMap Deferred.progressive?) := by
  change (Directive.find page).filterMap (Located.filterMap Directive.progressive?) =
    ((Directive.find page).filterMap (Located.filterMap Directive.deferred?)).filterMap _
  rw [List.filterMap_filterMap]
  apply List.filterMap_congr
  intro m _
  rw [Located.filterMap, deferred?_progressive, Located.filterMap]
  cases m.value.deferred? <;> rfl

theorem starts_filterMap {α β : Type} (f : α → Option β) (ms : List (Located α)) :
    ((ms.filterMap (Located.filterMap f)).map Located.start).Sublist (ms.map Located.start) := by
  induction ms with
  | nil => exact List.Sublist.refl _
  | cons m ms ih =>
    cases hf : f m.value with
    | none =>
      rw [List.filterMap_cons_none (by rw [Located.filterMap, hf]; rfl)]
      exact ih.cons m.start
    | some b =>
      have hfind : Located.filterMap f m = some ⟨m.start, m.stop, m.source, b⟩ := by
        rw [Located.filterMap, hf]
        rfl
      rw [List.filterMap_cons_some hfind]
      exact ih.cons_cons m.start

theorem expanded_of_deferred? {d : Directive} {c : Chunk} (h : d.deferred? = some (.progressive (.chunk c))) :
    c.expanded = false := by
  have hprogressive : d.progressive? = some (.chunk c) := by
    rw [deferred?_progressive, h]
    rfl
  have hchunk : d.chunk? = some c := by
    unfold Directive.progressive? at hprogressive
    cases hc : d.chunk? with
    | some c' =>
      rw [hc] at hprogressive
      cases hprogressive
      rfl
    | none =>
      rw [hc] at hprogressive
      obtain ⟨x, -, hx⟩ := Option.map_eq_some_iff.1 hprogressive
      cases hx
  unfold Directive.chunk? at hchunk
  split at hchunk
  · simp only [Option.bind_eq_bind, Option.bind_eq_some_iff, Option.pure_def, Option.some.injEq] at hchunk
    obtain ⟨collection, -, index, -, rfl⟩ := hchunk
    rfl
  · cases hchunk

/-- The page as a draft. -/
def draft (page : Text) : Draft := Draft.ofPieces 0 (Directive.pattern.pieces page)

theorem values_draft (page : Text) : values (draft page) = Conversion.deferred page := Draft.values_ofPieces

theorem made_draft {ends passes : Text → Prop} (hends : ends []) (hpasses : ∀ t, '<' ∉ t → passes t)
    {page : Text} (h : '<' ∉ page) : Draft.Made ends passes (draft page) :=
  Draft.made_ofPieces hends hpasses ((sources_pieces Directive.pattern page).symm ▸ h)

theorem clear_draft {ids : Set Text} {page : Text} (h : '<' ∉ page) : Draft.Clear ids (draft page) :=
  made_draft (fun _ _ => rfl) (fun _ => Placeholder.passes_of_not_mem) h

theorem text_draft (page : Text) : Draft.text (draft page) = (Conversion.ofText page).content := by
  have hedits : (Conversion.deferred page).map Conversion.edit =
      (Directive.find page).filterMap (editAt fun d => d.deferred?.map Deferred.placeholder) := by
    rw [Conversion.deferred, Directive.collect, List.map_filterMap]
    apply List.filterMap_congr
    intro m _
    rw [Located.filterMap, editAt]
    cases m.value.deferred? <;> rfl
  change _ = page.splice ((Conversion.deferred page).map Conversion.edit)
  rw [hedits, Directive.find, splice_find, draft, ← Draft.shownAs_placeholder fun _ _ => Draft.source_ofPieces]
  exact Draft.shownAs_ofPieces Deferred.placeholder

theorem exactPage_eq (found : ChunkKey → Option Text) (known : Text → Option ChunkCounts) (aborted : Bool)
    (page : Text) :
    exactPage found known aborted page = Draft.shownAs (shown found known aborted) (draft page) := by
  rw [draft, Draft.shownAs_ofPieces, exactPage, substitute]
  apply List.flatMap_congr
  intro x _
  cases x <;> rfl

/-- The ids that are searched for: those of the page's directives that ask for chunks. -/
def sought (page : Text) : Set Text := fun id => ∃ p ∈ (Conversion.ofText page).progressive, p.value.id = id

theorem mem_of_sought {page id : Text} {ids : List Text}
    (hids : (Conversion.ofText page).progressive.map (fun p => p.value.id) = ids) (h : id ∈ sought page) : id ∈ ids := by
  obtain ⟨p, hp, rfl⟩ := h
  exact hids ▸ List.mem_map_of_mem hp

/-- Filling the placeholders of a page gives the page as it is to be, if the searches pass over its
    text and over the contents. -/
theorem fill_page {found : OrderedMap ChunkKey Text} (known : Text → Option ChunkCounts) (keeps : Bool)
    {page : Text} (hclear : Draft.Clear (sought page) (draft page))
    (hfound : ∀ k t, found.get? k = some t → Placeholder.Passes (sought page) t) :
    putContinuations keeps
        (fillsById found ((Conversion.ofText page).progressive.flatMap (Delivery.expansion known))
          (continuations (Conversion.ofText page).progressive))
        (putChunks found ((Conversion.ofText page).progressive.flatMap (Delivery.expansion known))
          (Conversion.ofText page).content) =
      exactPage found.get? known keeps page := by
  have hids : ∀ p ∈ (values (draft page)).filterMap (Located.filterMap Deferred.progressive?),
      p.value.id ∈ sought page := by
    rw [values_draft, ← progressive_ofText]
    exact fun p hp => ⟨p, hp, rfl⟩
  rw [exactPage_eq, ← fill_draft keeps hclear hids hfound, values_draft, text_draft, progressive_ofText]
  · rfl
  · rw [values_draft]
    exact (nodup_starts_find Directive.pattern page).sublist (starts_filterMap _ _)
  · rw [values_draft]
    intro d hd c hvalue
    obtain ⟨m, -, hfind⟩ := List.mem_filterMap.1 hd
    obtain ⟨x, hx, rfl⟩ := Option.map_eq_some_iff.1 hfind
    exact expanded_of_deferred? (hx.trans (congrArg some hvalue))

/-! ### Rendering a page -/

open Delivery

section

variable {env : Setting ω} {store : Store} {known : Text → Option ChunkCounts} {page : Text} {s : State ω}

theorem render_run_idle (h : (Conversion.ofText page).progressive = []) :
    (render env page).run s = (.ok ⟨(Conversion.ofText page).content, 0, 0, [], [], false⟩, s) := by
  rw [render, h]
  rfl

theorem render_run (h : (Conversion.ofText page).progressive ≠ []) {tags : List (Located Chunk)}
    {cs : List Delivered} {s' : State ω}
    (hdeliver : (deliver env (Conversion.ofText page).progressive).run (install s).2 = (.ok (tags, cs), s')) :
    ∃ r, (render env page).run s = (.ok r, { s' with handler := s.handler }) ∧ r.chunks = cs ∧
      r.content = putContinuations s'.loader.aborted
        (fillsById (contents cs) tags (continuations (Conversion.ofText page).progressive))
        (putChunks (contents cs) tags (Conversion.ofText page).content) := by
  have hnonempty : (Conversion.ofText page).progressive.isEmpty ≠ true := by
    rw [ne_eq, List.isEmpty_iff]
    exact h
  have hget : (get : Work ω (State ω)).run s = (.ok s, s) := rfl
  have hlift := lift_run (deliver env (Conversion.ofText page).progressive).run (install s).2
  rw [hdeliver] at hlift
  rw [render, if_neg hnonempty, bind_run_ok hget, bind_run_ok (lift_run install s), bind_run_ok hlift]
  exact ⟨_, rfl, rfl, rfl⟩

theorem mem_of_brings {ks : List ChunkKey} {l l' : Loader} {cs : List Delivered}
    (h : Brings env store ks l l' cs) {c : Delivered} (hc : c ∈ cs) :
    c.content = store.content c.key ∧ c.key ∈ ks := by
  obtain ⟨k, hmem, hk⟩ := List.mem_filterMap.1 (h.some.subset hc)
  rcases store.given_cases k with ⟨-, hdelivered⟩ | ⟨e, -, hdelivered⟩
  · rw [hdelivered] at hk
    cases hk
    exact ⟨rfl, hmem⟩
  · rw [hdelivered] at hk
    cases hk

/-- A loader that nobody aborts goes on. -/
theorem going_of_brings {ks : List ChunkKey} {l l' : Loader} {cs : List Delivered} (h : Brings env store ks l l' cs)
    (hgoing : l.aborted = false) (hstops : ∀ loaded total, env.stops loaded total = false) : l'.aborted = false := by
  rw [← Bool.not_eq_true]
  intro haborted
  rcases h.stopped haborted with hstart | ⟨loaded, total, hstop⟩
  · rw [hgoing] at hstart
    cases hstart
  · rw [hstops] at hstop
    cases hstop

/-- What holds of the empty text and of the texts of the chunks that were loaded holds of
    their contents. -/
theorem of_loadedFrom {good : Text → Prop} (hnil : good []) {cs : List Delivered}
    (hcs : ∀ c ∈ cs, ∀ t, store c.key = .ok (some t) → good t) {k : ChunkKey} {t : Text}
    (h : loadedFrom store cs k = some t) : good t := by
  unfold loadedFrom at h
  split at h
  · next hmem =>
    cases h
    obtain ⟨c, hc, rfl⟩ := List.mem_map.1 hmem
    unfold Store.content
    split
    · next t ht => exact hcs c hc t ht
    · exact hnil
  · cases h

/-- The chunks that the directives of a page ask for. -/
def wanted (known : Text → Option ChunkCounts) (page : Text) : List (Located Chunk) :=
  (Conversion.ofText page).progressive.flatMap (expansion known)

/-- Rendering a page always ends.  If the searches pass over the page's text and over the contents
    that it asks for, it ends with the page in which every chunk that was loaded is put in as the
    store has it. -/
theorem render_clear (hserves : Serves env store known) (hrest : AtRest store s.loader)
    (hclear : Draft.Clear (sought page) (draft page))
    (hstore : ∀ k ∈ requested env (wanted known page), ∀ t, store k = .ok (some t) →
      Placeholder.Passes (sought page) t) :
    ∃ r s', (render env page).run s = (.ok r, s') ∧
      r.content = exactPage (loadedFrom store r.chunks) known s'.loader.aborted page ∧
      Brings env store (requested env (wanted known page)) s.loader s'.loader r.chunks := by
  have hexact : ∀ (cs : List Delivered) (aborted : Bool), (∀ c ∈ cs, c.content = store.content c.key ∧
        c.key ∈ requested env (wanted known page)) →
      putContinuations aborted
        (fillsById (contents cs) (wanted known page) (continuations (Conversion.ofText page).progressive))
        (putChunks (contents cs) (wanted known page) (Conversion.ofText page).content) =
      exactPage (loadedFrom store cs) known aborted page := by
    intro cs aborted hcs
    have hfound : (contents cs).get? = loadedFrom store cs := funext (get?_contents fun c hc => (hcs c hc).1)
    rw [← hfound]
    apply fill_page known aborted hclear
    rw [hfound]
    intro k t ht
    exact of_loadedFrom (Placeholder.passes_of_not_mem List.not_mem_nil) (fun c hc => hstore c.key (hcs c hc).2) ht
  by_cases hidle : (Conversion.ofText page).progressive = []
  · have hwanted : wanted known page = [] := by rw [wanted, hidle, List.flatMap_nil]
    refine ⟨_, s, render_run_idle hidle, ?_, ?_⟩
    · have hempty := hexact [] s.loader.aborted fun c hc => absurd hc List.not_mem_nil
      rw [hwanted, hidle] at hempty
      exact hempty
    · rw [hwanted, requested, List.map_nil, ite_self]
      exact .nil (.of_eq rfl)
  · have hinstalled : AtRest store (install s).2.loader := hrest
    obtain ⟨cs, s', hdeliver, -, hbrings⟩ := deliver_run hserves hinstalled (Conversion.ofText page).progressive
    obtain ⟨r, hrun, rfl, hcontent⟩ := render_run hidle hdeliver
    refine ⟨r, _, hrun, ?_, hbrings⟩
    rw [hcontent]
    exact hexact r.chunks s'.loader.aborted fun c hc => mem_of_brings hbrings hc

/-- Where no text holds an angle bracket, rendering a page always ends, and with the page in which
    every chunk that was loaded is put in as the store has it; continuations keep their
    placeholders if the loader is aborted by then.  The chunks that were loaded are those that the
    page asks for, in order, but for those whose calls failed and, after an abort, those that had
    not started. -/
theorem render_exact (hserves : Serves env store known) (hpage : '<' ∉ page)
    (hstore : ∀ k t, store k = .ok (some t) → '<' ∉ t) (hrest : AtRest store s.loader) :
    ∃ r s', (render env page).run s = (.ok r, s') ∧
      r.content = exactPage (loadedFrom store r.chunks) known s'.loader.aborted page ∧
      Brings env store (requested env (wanted known page)) s.loader s'.loader r.chunks :=
  render_clear hserves hrest (clear_draft hpage) fun k _ t ht => Placeholder.passes_of_not_mem (hstore k t ht)

end

/-- Two chunks of one collection, and one chunk of another whose second one cannot be had. -/
def mixedStore : Store := fun k =>
  if k = ⟨"a".toList, 0⟩ then .ok (some "one".toList)
  else if k = ⟨"a".toList, 1⟩ then .error ⟨"store".toList, none, "gone".toList⟩
  else if k = ⟨"b".toList, 1⟩ then .ok (some "two".toList)
  else if k = ⟨"b".toList, 2⟩ then .ok (some "three".toList)
  else .ok none

def mixedCounts (collection : Text) : Option ChunkCounts :=
  if collection = "b".toList then some ⟨4, 0, 0⟩ else none

def mixedSetting : Setting Unit :=
  ⟨hostOf mixedStore mixedCounts, "store".toList, 2, 2, fun _ _ => false⟩

/-- A chunk twice, one that fails, one that is not there, and two continuations with one id. -/
def mixedPage : Text :=
  "\x7b\x7bchunk collection=a index=0\x7d\x7d, \x7b\x7bchunk collection=a index=1\x7d\x7d, ".toList ++
  "\x7b\x7bchunk collection=a index=0\x7d\x7d, \x7b\x7bchunk collection=b index=0\x7d\x7d, ".toList ++
  "\x7b\x7bcontinue collection=b from=1 total=2\x7d\x7d, \x7b\x7bcontinue collection=b from=1\x7d\x7d, ".toList ++
  "\x7b\x7brender path=p\x7d\x7d.".toList

theorem render_exact_mixed :
    ∃ r s', (render mixedSetting mixedPage).run (.start 8 ⟨(), []⟩) = (.ok r, s') ∧ r.content =
      "one, <div class=\"stitchdown-progressive-placeholder\" data-progressive-id=\"chunk-a-1\" ".toList ++
      "data-type=\"chunk\" data-collection=\"a\" data-index=\"1\"></div>, one, , two, twothree, ".toList ++
      "<div class=\"stitchdown-progressive-placeholder\" data-progressive-id=\"render-p\" ".toList ++
      "data-type=\"render\" data-path=\"p\"></div>.".toList := by
  have hstore : ∀ k t, mixedStore k = .ok (some t) → '<' ∉ t := by
    intro k t h
    unfold mixedStore at h
    split_ifs at h
    · cases h
      decide
    · cases h
      decide
    · cases h
      decide
    · cases h
  have hrest : AtRest mixedStore (State.start 8 ⟨(), []⟩ : State Unit).loader :=
    ⟨rfl, by decide, fun e he => absurd he List.not_mem_nil⟩
  have hserves : Serves mixedSetting mixedStore mixedCounts := serves_hostOf rfl
  have hpage : '<' ∉ mixedPage := by decide +kernel
  obtain ⟨r, s', hrun, hcontent, hbrings⟩ := render_exact hserves hpage hstore hrest
  have hgoing : s'.loader.aborted = false := going_of_brings hbrings rfl fun _ _ => rfl
  refine ⟨r, s', hrun, ?_⟩
  rw [hcontent, hgoing, hbrings.all hgoing]
  decide +kernel

end Rendering
end PageAssembly
