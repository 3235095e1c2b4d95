/-
  PageAssembly/Proofs/Chunk/Drafts.lean
  =====================================
  **Filling the placeholders of a text.**

  A page is filled by search and replace: once for every chunk, and once for every id of
  a continuation.  A draft is the page with its placeholders told apart from its letters;
  where the searches pass over all stretches of letters, the search for an id sees exactly
  the placeholders (`Made`, `pieces_text`).  So a search and replace is `put`, which says for
  each placeholder by itself what becomes of it (`fillAll_text`, `fillEach_text`), and one after
  another they do what one `put` does (`putChunks_text`, `putContinuations_text`).
-/
import PageAssembly.Proofs.Chunk.Passing

namespace PageAssembly

open Pattern

/-- A text in which placeholders are told apart from letters. -/
abbrev Draft := List (Piece (Located Deferred))

namespace Draft

def text (ps : Draft) : Text := ps.flatMap Piece.source

/-- A draft of placeholders, stretches of text in front of them, and a last text that ends the
    draft; what these texts may be is given. -/
inductive Made (ends passes : Text → Prop) : Draft → Prop where
  | last {t : Text} (h : ends t) : Made ends passes (t.map Piece.plain)
  | stretch {t : Text} {ps : Draft} (h : passes t) (hps : Made ends passes ps) :
      Made ends passes (t.map Piece.plain ++ ps)
  | placeholder {d : Located Deferred} {ps : Draft} (hps : Made ends passes ps) :
      Made ends passes (.hit d.value.placeholder d :: ps)

/-- The texts between the placeholders behind `t`: one in front of each, and one behind the last. -/
def gapsFrom (t : Text) : Draft → List Text
  | [] => [t]
  | .plain c :: ps => gapsFrom (t ++ [c]) ps
  | .hit _ _ :: ps => t :: gapsFrom [] ps

/-- The texts of a draft: one in front of each placeholder, and one behind the last. -/
def gaps (ps : Draft) : List Text := gapsFrom [] ps

/-- The search for these ids passes over all texts of the draft. -/
abbrev Clear (ids : Set Text) (ps : Draft) : Prop := Made (Placeholder.Ends ids) (Placeholder.Passes ids) ps

/-- A piece with what `f` has for it, in front of it or in its place. -/
def filled (keeps : Bool) (f : Located Deferred → Option Text) : Piece (Located Deferred) → Draft
  | .plain c => [.plain c]
  | .hit w d =>
    match f d with
    | some t => t.map Piece.plain ++ if keeps then [.hit w d] else []
    | none => [.hit w d]

/-- The draft with what `f` has for its placeholders put in. -/
def put (keeps : Bool) (f : Located Deferred → Option Text) (ps : Draft) : Draft :=
  ps.flatMap (filled keeps f)

/-- The directives whose placeholders have the id, in order. -/
def marked (id : Text) (ps : Draft) : List (Located Deferred) :=
  (values ps).filter fun d => d.value.id = id

section

variable {ps : Draft} {x : Piece (Located Deferred)} {f g : Located Deferred → Option Text} {keeps : Bool}

theorem filled_of_some {w t : Text} {d : Located Deferred} (h : f d = some t) :
    filled keeps f (.hit w d) = t.map Piece.plain ++ if keeps then [.hit w d] else [] := by
  simp only [filled, h]

theorem filled_of_none {w : Text} {d : Located Deferred} (h : f d = none) :
    filled keeps f (.hit w d) = [.hit w d] := by
  simp only [filled, h]

theorem text_plain (t : Text) : text (t.map Piece.plain) = t := by
  simp [text, List.flatMap_map, Piece.source]

theorem text_hit (w : Text) (d : Located Deferred) (ps : Draft) : text (.hit w d :: ps) = w ++ text ps := rfl

theorem text_append (ps qs : Draft) : text (ps ++ qs) = text ps ++ text qs := List.flatMap_append

theorem put_plain (t : Text) : put keeps f (t.map Piece.plain) = t.map Piece.plain := by
  simp only [put, List.flatMap_map, filled]
  exact List.flatMap_pure_eq_map ..

theorem put_append (ps qs : Draft) : put keeps f (ps ++ qs) = put keeps f ps ++ put keeps f qs :=
  List.flatMap_append

theorem Made.mono {ends ends' passes passes' : Text → Prop} (h : Made ends passes ps)
    (hends : ∀ t, ends t → ends' t) (hpasses : ∀ t, passes t → passes' t) : Made ends' passes' ps := by
  induction h with
  | last h => exact .last (hends _ h)
  | stretch h _ ih => exact .stretch (hpasses _ h) ih
  | placeholder _ ih => exact .placeholder ih

theorem Made.append {ends passes : Text → Prop} {qs : Draft} (h : Made passes passes ps) (hqs : Made ends passes qs) :
    Made ends passes (ps ++ qs) := by
  induction h with
  | last h => exact .stretch h hqs
  | stretch h _ ih =>
    rw [List.append_assoc]
    exact .stretch h ih
  | placeholder _ ih => exact .placeholder ih

/-- The source of a piece that is a placeholder is the placeholder of its directive. -/
theorem Made.source {ends passes : Text → Prop} (h : Made ends passes ps) {w : Text} {d : Located Deferred}
    (hmem : .hit w d ∈ ps) : w = d.value.placeholder := by
  induction h with
  | last h => simp at hmem
  | stretch h _ ih => exact ih (by simpa using hmem)
  | placeholder _ ih =>
    rcases List.mem_cons.1 hmem with heq | hmem
    · cases heq
      rfl
    · exact ih hmem

theorem gapsFrom_ne_nil (t : Text) (ps : Draft) : gapsFrom t ps ≠ [] := by
  induction ps generalizing t with
  | nil => exact List.cons_ne_nil t []
  | cons x ps ih =>
    cases x with
    | plain c => exact ih (t ++ [c])
    | hit w d => exact List.cons_ne_nil t _

theorem made_of_gapsFrom {ends passes : Text → Prop} {t : Text}
    (hsource : ∀ w d, .hit w d ∈ ps → w = d.value.placeholder)
    (hpasses : ∀ s ∈ (gapsFrom t ps).dropLast, passes s) (hends : ∀ s ∈ (gapsFrom t ps).getLast?, ends s) :
    Made ends passes (t.map Piece.plain ++ ps) := by
  induction ps generalizing t with
  | nil =>
    rw [List.append_nil]
    exact .last (hends t rfl)
  | cons x ps ih =>
    have hrest : ∀ w d, .hit w d ∈ ps → w = d.value.placeholder := fun w d hmem =>
      hsource w d (List.mem_cons_of_mem x hmem)
    cases x with
    | plain c =>
      have hmade := ih hrest hpasses hends
      simpa using hmade
    | hit w d =>
      obtain rfl := hsource w d List.mem_cons_self
      have hne := gapsFrom_ne_nil [] ps
      rw [gapsFrom, List.dropLast_cons_of_ne_nil hne] at hpasses
      rw [gapsFrom, List.getLast?_cons_of_ne_nil hne] at hends
      exact .stretch (hpasses t List.mem_cons_self)
        (.placeholder (ih (t := []) hrest (fun s hs => hpasses s (List.mem_cons_of_mem t hs)) hends))

/-- A draft is made of the texts between its placeholders. -/
theorem made_of_gaps {ends passes : Text → Prop} (hsource : ∀ w d, .hit w d ∈ ps → w = d.value.placeholder)
    (hpasses : ∀ t ∈ (gaps ps).dropLast, passes t) (hends : ∀ t ∈ (gaps ps).getLast?, ends t) :
    Made ends passes ps :=
  made_of_gapsFrom (t := []) hsource hpasses hends

/-- A draft into which more such stretches are put is again made of them. -/
theorem made_put {ends passes : Text → Prop} (h : Made ends passes ps)
    (hf : ∀ d ∈ values ps, ∀ t, f d = some t → passes t) : Made ends passes (put keeps f ps) := by
  induction h with
  | last h =>
    rw [put_plain]
    exact .last h
  | stretch h _ ih =>
    rw [put_append, put_plain]
    exact .stretch h (ih fun d hd => hf d (by simpa using hd))
  | @placeholder d ps _ ih =>
    have hrest := ih fun e he => hf e (List.mem_cons_of_mem d he)
    rw [put, List.flatMap_cons, ← put]
    cases hd : f d with
    | none =>
      rw [filled_of_none hd]
      exact .placeholder hrest
    | some t =>
      rw [filled_of_some hd, List.append_assoc]
      refine .stretch (hf d List.mem_cons_self t hd) ?_
      cases keeps with
      | true => exact .placeholder hrest
      | false => exact hrest

/-! ### Searching a draft -/

/-- What the search for an id makes of a piece. -/
def seen (id : Text) : Piece (Located Deferred) → List (Piece Unit)
  | .plain c => [.plain c]
  | .hit w d => if d.value.id = id then [.hit w ()] else w.map Piece.plain

/-- The search for an id hits the placeholders that have it. -/
theorem pieces_text {ids : Set Text} {e : Deferred} (he : e.id ∈ ids) (h : Clear ids ps) :
    (Placeholder.withId e.id).pieces (text ps) = ps.flatMap (seen e.id) := by
  have hplain : ∀ t : Text, (t.map Piece.plain).flatMap (seen e.id) = t.map Piece.plain := by
    intro t
    rw [List.flatMap_map]
    exact List.flatMap_pure_eq_map ..
  induction h with
  | last h =>
    rw [text_plain, hplain]
    exact pieces_of_find (h e.id he)
  | stretch h _ ih =>
    rw [text_append, text_plain, List.flatMap_append, hplain, ← ih]
    exact Placeholder.pieces_withId_stretch h he _
  | @placeholder d ps _ ih =>
    rw [List.flatMap_cons, ← ih]
    exact Placeholder.pieces_withId_placeholder d.value e (text ps)

theorem fillAll_text {ids : Set Text} {e : Deferred} (he : e.id ∈ ids) (content : Text) (h : Clear ids ps) :
    Placeholder.fillAll e.id content (text ps) =
      text (put false (fun d => if d.value.id = e.id then some content else none) ps) := by
  unfold Placeholder.fillAll substitute
  rw [pieces_text he h, put, text, List.flatMap_assoc, List.flatMap_assoc]
  apply List.flatMap_congr
  intro x _
  cases x with
  | plain c => rfl
  | hit w d =>
    by_cases hid : d.value.id = e.id
    · simp [seen, filled, hid, List.flatMap_map, Piece.source]
    · simp [seen, filled, hid, List.flatMap_map, Piece.source]

theorem fillPieces_plain (keeps : Bool) (w : Text) (qs : List (Piece Unit)) (fills : List Text) :
    Placeholder.fillPieces keeps (w.map Piece.plain ++ qs) fills =
      w ++ Placeholder.fillPieces keeps qs fills := by
  induction w with
  | nil => rfl
  | cons c w ih => exact congrArg (c :: ·) ih

theorem fillEach_text {ids : Set Text} {e : Deferred} (he : e.id ∈ ids) (keeps : Bool)
    (g : Located Deferred → Text) (h : Clear ids ps) :
    Placeholder.fillEach e.id keeps ((marked e.id ps).map g) (text ps) =
      text (put keeps (fun d => if d.value.id = e.id then some (g d) else none) ps) := by
  unfold Placeholder.fillEach
  rw [pieces_text he h]
  clear h
  induction ps with
  | nil => rfl
  | cons x ps ih =>
    rw [put, List.flatMap_cons, List.flatMap_cons, text_append, ← put, ← ih]
    cases x with
    | plain c => rfl
    | hit w d =>
      by_cases hid : d.value.id = e.id
      · have hmarked : marked e.id (.hit w d :: ps) = d :: marked e.id ps := by simp [marked, hid]
        rw [hmarked]
        simp only [seen, filled, if_pos hid, List.map_cons, List.singleton_append,
          Placeholder.fillPieces, text_append, text_plain]
        cases keeps with
        | true => simp [text, Piece.source]
        | false => simp [text]
      · have hmarked : marked e.id (.hit w d :: ps) = marked e.id ps := by simp [marked, hid]
        rw [hmarked]
        simp only [seen, filled, if_neg hid, fillPieces_plain]
        simp [text, Piece.source]

/-! ### One filling after another -/

theorem put_none (h : ∀ d, f d = none) : put keeps f ps = ps := by
  have hfilled : ∀ x ∈ ps, filled keeps f x = [x] := by
    intro x _
    cases x with
    | plain c => rfl
    | hit w d => exact filled_of_none (h d)
  rw [put, List.flatMap_congr hfilled, List.flatMap_singleton']

/-- Where nothing is filled twice, two fillings are one. -/
theorem put_put (h : keeps = true → ∀ d, (f d).isSome → g d = none) :
    put keeps g (put keeps f ps) = put keeps (fun d => (f d).or (g d)) ps := by
  rw [put, put, put, List.flatMap_assoc]
  apply List.flatMap_congr
  intro x _
  rw [← put]
  cases x with
  | plain c => rfl
  | hit w d =>
    cases hf : f d with
    | none =>
      rw [filled_of_none hf]
      simp [filled, put, hf]
    | some t =>
      rw [filled_of_some hf, filled_of_some (t := t) (by rw [hf]; rfl), put_append, put_plain]
      cases keeps with
      | true =>
        have hg : g d = none := h rfl d (by rw [hf]; rfl)
        simp [put, filled, hg]
      | false => rfl

theorem text_put : text (put false f ps) = ps.flatMap fun
      | .plain c => [c]
      | .hit w d => (f d).getD w := by
  rw [put, text, List.flatMap_assoc]
  apply List.flatMap_congr
  intro x _
  rw [← text]
  cases x with
  | plain c => rfl
  | hit w d =>
    change _ = (f d).getD w
    cases hf : f d with
    | some t =>
      rw [filled_of_some hf, text_append, text_plain]
      exact List.append_nil t
    | none =>
      rw [filled_of_none hf]
      exact List.append_nil w

theorem text_put_put (keeps : Bool) :
    text (put keeps g (put false f ps)) = ps.flatMap fun
      | .plain c => [c]
      | .hit w d => ((f d).or ((g d).map fun t => t ++ if keeps then w else [])).getD w := by
  rw [put, put, List.flatMap_assoc, text, List.flatMap_assoc]
  apply List.flatMap_congr
  intro x _
  rw [← put, ← text]
  cases x with
  | plain c => rfl
  | hit w d =>
    change _ = ((f d).or ((g d).map fun t => t ++ if keeps then w else [])).getD w
    cases hf : f d with
    | some t =>
      rw [filled_of_some hf, put_append, put_plain, text_append, text_plain]
      exact List.append_nil t
    | none =>
      rw [filled_of_none hf, put, List.flatMap_singleton]
      cases hg : g d with
      | some t =>
        rw [filled_of_some hg, text_append, text_plain]
        cases keeps <;> simp [text, Piece.source]
      | none =>
        rw [filled_of_none hg]
        exact List.append_nil w

/-- A filling passes over the placeholders that it has nothing for. -/
theorem marked_put {id : Text} (h : ∀ d ∈ values ps, d.value.id = id → f d = none) :
    marked id (put keeps f ps) = marked id ps := by
  induction ps with
  | nil => rfl
  | cons x ps ih =>
    rw [put, List.flatMap_cons, ← put]
    cases x with
    | plain c => exact ih h
    | hit w d =>
      have htail := ih fun d' hd' => h d' (List.mem_cons_of_mem _ hd')
      have hcons : ∀ qs : Draft, marked id (.hit w d :: qs) =
          if d.value.id = id then d :: marked id qs else marked id qs := by
        intro qs
        by_cases hid : d.value.id = id <;> simp [marked, hid]
      cases hd : f d with
      | none => rw [filled_of_none hd, List.singleton_append, hcons, hcons, htail]
      | some t =>
        have hid : d.value.id ≠ id := by
          intro hid
          rw [h d List.mem_cons_self hid] at hd
          cases hd
        rw [filled_of_some hd, hcons, if_neg hid, ← htail]
        cases keeps with
        | true => simp [marked, hid]
        | false => simp [marked]

end

/-! ### Chunks -/

/-- What a chunk directive has for a placeholder: the content of its chunk, if the placeholder
    has its id; directives that come from a continuation have nothing. -/
def tagFill (found : OrderedMap ChunkKey Text) (tag : Located Chunk) (d : Located Deferred) : Option Text :=
  if tag.value.expanded ∨ d.value.id ≠ tag.value.id then none else found.get? tag.value.key

/-- What chunk directives have for a placeholder. -/
def chunkFill (found : OrderedMap ChunkKey Text) (tags : List (Located Chunk)) (d : Located Deferred) :
    Option Text :=
  tags.findSome? fun tag => tagFill found tag d

section

variable {found : OrderedMap ChunkKey Text} {ps : Draft} {ids : Set Text}

theorem get?_of_tagFill {tag : Located Chunk} {d : Located Deferred} {t : Text}
    (h : tagFill found tag d = some t) : found.get? tag.value.key = some t := by
  unfold tagFill at h
  split at h
  · cases h
  · exact h

theorem clear_chunkFill (hfound : ∀ k t, found.get? k = some t → Placeholder.Passes ids t)
    (tags : List (Located Chunk)) (h : Clear ids ps) : Clear ids (put false (chunkFill found tags) ps) := by
  refine made_put h fun d _ t ht => ?_
  obtain ⟨tag, -, hfill⟩ := List.exists_of_findSome?_eq_some ht
  exact hfound _ t (get?_of_tagFill hfill)

theorem putChunk_text (tag : Located Chunk) (htag : tag.value.expanded = false → tag.value.id ∈ ids)
    (h : Clear ids ps) :
    Rendering.putChunks found [tag] (text ps) = text (put false (tagFill found tag) ps) := by
  have hstep : Rendering.putChunks found [tag] (text ps) =
      if tag.value.expanded then text ps
      else match found.get? tag.value.key with
        | some content => Placeholder.fillAll tag.value.id content (text ps)
        | none => text ps := rfl
  rw [hstep]
  cases hexpanded : tag.value.expanded with
  | true => rw [if_pos rfl, put_none fun d => by simp [tagFill, hexpanded]]
  | false =>
    cases hkey : found.get? tag.value.key with
    | none => rw [if_neg Bool.false_ne_true, put_none fun d => by simp [tagFill, hkey]]
    | some content =>
      have hfill : tagFill found tag = fun d => if d.value.id = tag.value.id then some content else none := by
        funext d
        by_cases hid : d.value.id = tag.value.id <;> simp [tagFill, hexpanded, hkey, hid]
      have hid : (Deferred.progressive (.chunk tag.value)).id ∈ ids := htag hexpanded
      rw [hfill]
      exact fillAll_text hid content h

theorem putChunks_text (hfound : ∀ k t, found.get? k = some t → Placeholder.Passes ids t)
    (tags : List (Located Chunk)) (htags : ∀ tag ∈ tags, tag.value.expanded = false → tag.value.id ∈ ids)
    (h : Clear ids ps) :
    Rendering.putChunks found tags (text ps) = text (put false (chunkFill found tags) ps) := by
  induction tags generalizing ps with
  | nil =>
    have hnone : ∀ d, chunkFill found [] d = none := fun _ => rfl
    rw [put_none hnone]
    rfl
  | cons tag tags ih =>
    have hclear : Clear ids (put false (tagFill found tag) ps) :=
      made_put h fun d _ t ht => hfound _ t (get?_of_tagFill ht)
    have hstep : Rendering.putChunks found (tag :: tags) (text ps) =
        Rendering.putChunks found tags (Rendering.putChunks found [tag] (text ps)) := rfl
    rw [hstep, putChunk_text tag (htags tag List.mem_cons_self) h,
      ih (fun tag' htag' => htags tag' (List.mem_cons_of_mem tag htag')) hclear,
      put_put fun hkeeps => absurd hkeeps Bool.false_ne_true]
    congr 2
    funext d
    rw [chunkFill, chunkFill, List.findSome?_cons]
    cases tagFill found tag d <;> rfl

/-! ### Continuations -/

/-- Filling the placeholders of several ids in turn, when the fills of each are what `g` has for
    its placeholders. -/
theorem putContinuations_text (keeps : Bool) {g : Located Deferred → Text}
    (hg : ∀ d, Placeholder.Passes ids (g d)) (fills : OrderedMap Text (List Text))
    (hids : ∀ id ∈ fills.keys, ∃ e : Deferred, e.id = id ∧ id ∈ ids)
    (hfills : ∀ e ∈ fills.entries, e.2 = (marked e.1 ps).map g) (h : Clear ids ps) :
    Rendering.putContinuations keeps fills (text ps) =
      text (put keeps (fun d => if d.value.id ∈ fills.keys then some (g d) else none) ps) := by
  unfold Rendering.putContinuations OrderedMap.keys at *
  have hdistinct := fills.distinct
  generalize fills.entries = entries at *
  induction entries generalizing ps with
  | nil =>
    rw [put_none fun d => by simp]
    rfl
  | cons e entries ih =>
    obtain ⟨hfresh, hdistinct⟩ := List.nodup_cons.1 hdistinct
    obtain ⟨d₀, hd₀, hmem⟩ := hids e.1 List.mem_cons_self
    have hfirst := fillEach_text (hd₀ ▸ hmem) keeps g h
    rw [hd₀, ← hfills e List.mem_cons_self] at hfirst
    have hclear : Clear ids (put keeps (fun d => if d.value.id = e.1 then some (g d) else none) ps) := by
      refine made_put h fun d _ t ht => ?_
      split at ht
      · cases ht
        exact hg d
      · cases ht
    have hrest : ∀ e' ∈ entries, e'.2 =
        (marked e'.1 (put keeps (fun d => if d.value.id = e.1 then some (g d) else none) ps)).map g := by
      intro e' he'
      rw [marked_put]
      · exact hfills e' (List.mem_cons_of_mem _ he')
      · intro d _ hid
        refine if_neg fun hsame => hfresh ?_
        rw [← hsame, hid]
        exact List.mem_map_of_mem he'
    rw [List.foldl_cons, hfirst, ih hclear (fun id hid => hids id (List.mem_cons_of_mem _ hid)) hrest
      hdistinct, put_put]
    · congr 2
      funext d
      by_cases hid : d.value.id = e.1
      · simp [hid]
      · by_cases hmem : d.value.id ∈ entries.map Prod.fst
        · have hcons : d.value.id ∈ (e :: entries).map Prod.fst := List.mem_cons_of_mem _ hmem
          rw [if_neg hid, if_pos hmem, if_pos hcons]
          rfl
        · have hcons : d.value.id ∉ (e :: entries).map Prod.fst := List.not_mem_cons_of_ne_of_not_mem hid hmem
          rw [if_neg hid, if_neg hmem, if_neg hcons]
          rfl
    · intro _ d hd
      have hid : d.value.id = e.1 := by
        by_contra hne
        simp [hne] at hd
      exact if_neg (hid ▸ hfresh)

end

end Draft
end PageAssembly
