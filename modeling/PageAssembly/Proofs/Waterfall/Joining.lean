/-
  PageAssembly/Proofs/Waterfall/Joining.lean
  ==========================================
  **A text between two parts of a page.**

  A page may hold a text in which there is nothing to be done.  Where no directive reaches over the
  ends of the text, the parts around it are worked on as if they stood alone: chunks are put
  into each of them (`exactPage_between`), and the searches that put them in pass over the whole
  page if they pass over the three parts (`made_between`).

  Pages for paths are put in for as long as they come.  What a search for a path finds in the
  first part could depend on what stands behind it; it does not if the part is whole, that is,
  if it consists of placeholders and of texts that the search passes over
  (`Whole.fill_append`).  It stays whole when whole pages are put in (`Whole.fill`), and so the text
  behind it stays where it is (`fillAll_between`).
-/
import PageAssembly.Proofs.Verbatim.Wrapping
import PageAssembly.Proofs.Waterfall.Surroundings

namespace PageAssembly

open Pattern

/-! ### Drafts of parts of a page -/

namespace Draft

variable {ps qs : List (Piece Directive)}

theorem gapsFrom_plain (t w : Text) (ps : Draft) : gapsFrom t (w.map Piece.plain ++ ps) = gapsFrom (t ++ w) ps := by
  induction w generalizing t with
  | nil => rw [List.append_nil, List.map_nil, List.nil_append]
  | cons c w ih => rw [List.map_cons, List.cons_append, gapsFrom, ih, List.append_assoc, List.singleton_append]

/-- The texts of a draft do not depend on where the page begins. -/
theorem gapsFrom_ofPieces (t : Text) (offset k : Nat) (ps : List (Piece Directive)) :
    gapsFrom t (ofPieces offset ps) = gapsFrom t (ofPieces k ps) := by
  induction ps generalizing t offset k with
  | nil => rfl
  | cons x ps ih =>
    cases x with
    | plain c => exact ih (t ++ [c]) (offset + 1) (k + 1)
    | hit w d =>
      cases hd : d.deferred? with
      | some x =>
        rw [ofPieces_of_some hd, ofPieces_of_some hd]
        exact congrArg (t :: ·) (ih [] (offset + w.length) (k + w.length))
      | none =>
        rw [ofPieces_of_none hd, ofPieces_of_none hd, gapsFrom_plain, gapsFrom_plain]
        exact ih (t ++ w) (offset + w.length) (k + w.length)

theorem ofPieces_of_none_deferred (h : ∀ w d, .hit w d ∈ ps → d.deferred? = none) (offset : Nat) :
    ofPieces offset ps = (ps.flatMap Piece.source).map Piece.plain := by
  induction ps generalizing offset with
  | nil => rfl
  | cons x ps ih =>
    have hrest := ih fun w d hmem => h w d (List.mem_cons_of_mem x hmem)
    cases x with
    | plain c => exact congrArg (.plain c :: ·) (hrest (offset + 1))
    | hit w d =>
      rw [ofPieces_of_none (h w d List.mem_cons_self), hrest, List.flatMap_cons, List.map_append]
      rfl

end Draft

namespace Rendering

/-- No directive reaches over the ends of the middle one of three texts, and none in it is
    answered later. -/
structure Between (p x s : Text) : Prop where
  pieces : Directive.pattern.pieces (p ++ x ++ s) =
    Directive.pattern.pieces p ++ Directive.pattern.pieces x ++ Directive.pattern.pieces s
  idle : Conversion.deferred x = []

section

variable {p x s : Text}

theorem deferred?_of_idle (h : Conversion.deferred x = []) {w : Text} {d : Directive}
    (hmem : .hit w d ∈ Directive.pattern.pieces x) : d.deferred? = none := by
  have hvalue : d ∈ values (Directive.pattern.pieces x) := List.mem_filterMap.2 ⟨_, hmem, rfl⟩
  rw [← map_value_locate 0, ← find] at hvalue
  obtain ⟨m, hm, rfl⟩ := List.mem_map.1 hvalue
  have hnone : Located.filterMap Directive.deferred? m = none := List.filterMap_eq_nil_iff.1 h m hm
  simpa [Located.filterMap] using hnone

/-- What is put in for directives is put into the two parts around the text. -/
theorem Between.substitute (h : Between p x s) (f : Deferred → Text) :
    Directive.pattern.substitute (fun source d => (d.deferred?.map f).getD source) (p ++ x ++ s) =
      Directive.pattern.substitute (fun source d => (d.deferred?.map f).getD source) p ++ x ++
        Directive.pattern.substitute (fun source d => (d.deferred?.map f).getD source) s := by
  have hmiddle : Directive.pattern.substitute (fun source d => (d.deferred?.map f).getD source) x = x := by
    refine Eq.trans (List.flatMap_congr fun y hy => ?_) (sources_pieces Directive.pattern x)
    cases y with
    | plain c => rfl
    | hit w d =>
      have hnone : d.deferred? = none := deferred?_of_idle h.idle hy
      exact congrArg (fun x => (x.map f).getD w) hnone
  conv_rhs => rw [← hmiddle]
  rw [Pattern.substitute, h.pieces, List.flatMap_append, List.flatMap_append]
  rfl

theorem exactPage_between (h : Between p x s) (found : ChunkKey → Option Text) (known : Text → Option ChunkCounts)
    (aborted : Bool) : exactPage found known aborted (p ++ x ++ s) =
      exactPage found known aborted p ++ x ++ exactPage found known aborted s :=
  h.substitute (shown found known aborted)

/-- The chunks that the first part asks for, the page asks for first. -/
theorem Between.wanted_prefix (h : Between p x s) (known : Text → Option ChunkCounts) :
    wanted known p <+: wanted known (p ++ x ++ s) := by
  have hfind : Directive.find (p ++ x ++ s) = Directive.find p ++
      locate (0 + ((Directive.pattern.pieces p).flatMap Piece.source).length)
        (Directive.pattern.pieces x ++ Directive.pattern.pieces s) := by
    rw [Directive.find, find, h.pieces, List.append_assoc, locate_append]
    rfl
  have hprogressive (page : Text) : (Conversion.ofText page).progressive =
      (Directive.find page).filterMap (Located.filterMap Directive.progressive?) := rfl
  rw [wanted, wanted, hprogressive, hprogressive, hfind, List.filterMap_append, List.flatMap_append]
  exact List.prefix_append _ _

/-- The searches pass over a page if they pass over the text and over what stands around the
    directives of the two parts. -/
theorem made_between {ends passes : Text → Prop} (h : Between p x s) (hp : ∀ t ∈ surroundings p, passes t)
    (hx : passes x) (hs : ∀ t ∈ (surroundings s).dropLast, passes t) (hends : ∀ t ∈ (surroundings s).getLast?, ends t) :
    Draft.Made ends passes (draft (p ++ x ++ s)) := by
  have hmiddle : ∀ j, Draft.ofPieces j (Directive.pattern.pieces x) = x.map Piece.plain := fun j => by
    rw [Draft.ofPieces_of_none_deferred fun w d => deferred?_of_idle h.idle, sources_pieces]
  have hfront : Draft.Made passes passes (draft p) :=
    Draft.made_of_gaps (fun _ _ => Draft.source_ofPieces) (fun t ht => hp t (List.dropLast_subset _ ht))
      fun t ht => hp t (List.mem_of_getLast? ht)
  have hgaps : ∀ k, Draft.gaps (Draft.ofPieces k (Directive.pattern.pieces s)) = surroundings s := fun k =>
    Draft.gapsFrom_ofPieces [] k 0 _
  have hback : ∀ k, Draft.Made ends passes (Draft.ofPieces k (Directive.pattern.pieces s)) := fun k =>
    Draft.made_of_gaps (fun _ _ => Draft.source_ofPieces) (hgaps k ▸ hs) (hgaps k ▸ hends)
  rw [draft, h.pieces, Draft.ofPieces_append, Draft.ofPieces_append, hmiddle, List.append_assoc]
  exact hfront.append (.stretch hx (hback _))

end

end Rendering

/-! ### Whole documents -/

namespace Waterfall

/-- The document consists of placeholders and of texts that the search for these paths passes over. -/
def Whole (paths : Set Text) (t : Text) : Prop :=
  ∃ ps, Draft.Made (Passes paths) (Passes paths) ps ∧ Draft.text ps = t

section

variable {paths : Set Text} {path content s t x r : Text}

theorem whole_of_passes (h : Passes paths t) : Whole paths t := ⟨t.map Piece.plain, .last h, Draft.text_plain t⟩

theorem Whole.append (hs : Whole paths s) (ht : Whole paths t) : Whole paths (s ++ t) := by
  obtain ⟨ps, hps, rfl⟩ := hs
  obtain ⟨qs, hqs, rfl⟩ := ht
  exact ⟨ps ++ qs, hps.append hqs, Draft.text_append ps qs⟩

/-- What a search finds in a whole document does not depend on what stands behind it. -/
theorem Whole.fill_append (h : Whole paths t) (hpath : path ∈ paths) (r : Text) :
    fill path content (t ++ r) = fill path content t ++ fill path content r := by
  obtain ⟨ps, hps, rfl⟩ := h
  induction hps with
  | last h => rw [Draft.text_plain, h.fill_append hpath, h.fill_eq hpath]
  | stretch h _ ih =>
    rw [Draft.text_append, Draft.text_plain, List.append_assoc, h.fill_append hpath, h.fill_append hpath, ih,
      List.append_assoc]
  | @placeholder d ps _ ih =>
    rw [Draft.text_hit, List.append_assoc, fill_placeholder, fill_placeholder, ih, List.append_assoc]

/-- A whole document in which whole pages are put stays whole. -/
theorem Whole.fill (h : Whole paths t) (hcontent : Whole paths content) (hpath : path ∈ paths) :
    Whole paths (fill path content t) := by
  obtain ⟨ps, hps, rfl⟩ := h
  induction hps with
  | last h =>
    rw [Draft.text_plain, h.fill_eq hpath]
    exact whole_of_passes h
  | stretch h _ ih =>
    rw [Draft.text_append, Draft.text_plain, h.fill_append hpath]
    exact (whole_of_passes h).append ih
  | @placeholder d ps _ ih =>
    rw [Draft.text_hit, fill_placeholder]
    by_cases hd : d.value.path? = some path
    · rw [if_pos hd]
      exact hcontent.append ih
    · rw [if_neg hd]
      obtain ⟨qs, hqs, hrest⟩ := ih
      exact ⟨.hit d.value.placeholder d :: qs, .placeholder hqs, hrest ▸ rfl⟩

/-- Text behind a whole document is kept when pages are put in, if the searches pass over it. -/
theorem fillAll_between {fills : List (Text × Text)} (hx : Passes paths x) (ht : Whole paths t)
    (hfills : ∀ f ∈ fills, f.1 ∈ paths ∧ Whole paths f.2) (r : Text) :
    fillAll fills (t ++ x ++ r) = fillAll fills t ++ x ++ fillAll fills r := by
  unfold fillAll
  induction fills generalizing t r with
  | nil => rfl
  | cons f fills ih =>
    obtain ⟨hpath, hcontent⟩ := hfills f List.mem_cons_self
    have hstep : Waterfall.fill f.1 f.2 (t ++ x ++ r) = Waterfall.fill f.1 f.2 t ++ x ++ Waterfall.fill f.1 f.2 r := by
      rw [List.append_assoc, ht.fill_append hpath, hx.fill_append hpath, List.append_assoc]
    rw [List.foldl_cons, hstep, ih (ht.fill hcontent hpath) fun f hf => hfills f (List.mem_cons_of_mem _ hf)]
    rfl

end

end Waterfall
end PageAssembly
