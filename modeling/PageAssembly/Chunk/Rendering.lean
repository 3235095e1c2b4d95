/-
  PageAssembly/Chunk/Rendering.lean
  =================================
  **A page with its chunks in place.**

  The page's directives become placeholders, the chunks are delivered, and each
  placeholder is found again by its id.  A chunk's content replaces every placeholder
  of the chunk.  The chunks of a continuation replace its placeholder together, in the
  order of their numbers; continuations that share an id are filled in document order.
  After an abort a continuation keeps its placeholder behind what was loaded, and a
  chunk that did not load always keeps its own.

  A placeholder is found by its opening tag, which has to name the id as an attribute,
  and reaches to the next closing tag.
-/
import PageAssembly.Chunk.Delivery

namespace PageAssembly

/-! ### Finding a placeholder again -/

namespace Placeholder

/-- How an id is named in a placeholder. -/
def idField (id : Text) : Text :=
  "data-progressive-id=\"".toList ++ Markup.escapeValue id ++ ['"']

/-- Whether `w` occurs behind a character that is no word character. -/
def mentions (w : Text) : Text → Bool
  | [] => false
  | c :: s => (!Text.isWord c && w.isPrefixOf s) || mentions w s

/-- A placeholder with an id: its inner text is passed over, up to the first closing tag. -/
def readWithId (id s : Text) : Option (Unit × Text) := do
  let inside ← Text.expect "<div".toList s
  match inside.dropWhile (· != '>') with
  | [] => none
  | _ :: r =>
    if mentions (idField id) (inside.takeWhile (· != '>')) then
      let (_, rest) ← Text.cut "</div>".toList r
      pure ((), rest)
    else none

theorem suffix_of_readWithId {id s r : Text} {u : Unit} (h : readWithId id s = some (u, r)) :
    ∃ t : Text, s = "<div".toList ++ t ∧ r <:+ t := by
  simp only [readWithId, Option.bind_eq_bind, Option.bind_eq_some_iff] at h
  obtain ⟨t, ht, h⟩ := h
  refine ⟨t, Text.expect_eq_some_iff.1 ht, ?_⟩
  split at h
  · cases h
  · next c v hv =>
    split at h
    · simp only [Option.bind_eq_some_iff, Option.pure_def, Option.some.injEq, Prod.mk.injEq] at h
      obtain ⟨⟨a, b⟩, hab, _, rfl⟩ := h
      have hb : b <:+ v := ⟨a ++ "</div>".toList, (Text.cut_eq_some hab).symm⟩
      exact (hb.trans (List.suffix_cons c v)).trans (hv ▸ List.dropWhile_suffix _)
    · cases h

def withId (id : Text) : Pattern Unit where
  read := readWithId id
  nonempty := by
    intro s u r h
    obtain ⟨t, rfl, ht⟩ := suffix_of_readWithId h
    exact nonempty_of_suffix (ht.trans ⟨['d', 'i', 'v'], rfl⟩)

/-- The document with every placeholder of the id replaced. -/
def fillAll (id content document : Text) : Text :=
  (withId id).substitute (fun _ _ => content) document

/-- The pieces of a document with its placeholders filled one after another; a
    placeholder with no fill left stays, and with `keeps` it stays behind its fill. -/
def fillPieces (keeps : Bool) : List (Piece Unit) → List Text → Text
  | [], _ => []
  | .plain c :: ps, fills => c :: fillPieces keeps ps fills
  | .hit w _ :: ps, [] => w ++ fillPieces keeps ps []
  | .hit w _ :: ps, f :: fills => f ++ (if keeps then w else []) ++ fillPieces keeps ps fills

/-- The document with the placeholders of the id filled one after another. -/
def fillEach (id : Text) (keeps : Bool) (fills : List Text) (document : Text) : Text :=
  fillPieces keeps ((withId id).pieces document) fills

end Placeholder

/-! ### The page -/

/-- A page with its chunks in place. -/
structure Rendering where
  content : Text
  loaded : Nat
  total : Nat
  chunks : List Delivered
  errors : List Failure
  aborted : Bool

namespace Rendering

variable {ω : Type}

/-- The contents that were delivered, by chunk. -/
def contents (cs : List Delivered) : OrderedMap ChunkKey Text :=
  OrderedMap.ofList (cs.map fun c => (c.key, c.content))

/-- The document with the content of every chunk directive put in. -/
def putChunks (found : OrderedMap ChunkKey Text) (tags : List (Located Chunk)) (document : Text) : Text :=
  tags.foldl (fun document tag =>
    if tag.value.expanded then document
    else
      match found.get? tag.value.key with
      | some content => Placeholder.fillAll tag.value.id content document
      | none => document) document

/-- What a continuation is filled with: the contents of the chunks expanded from it. -/
def fillOf (found : OrderedMap ChunkKey Text) (tags : List (Located Chunk))
    (d : Located Continuation) : Text :=
  (tags.filter fun t => t.value.expanded && t.start == d.start).flatMap fun t =>
    (found.get? t.value.key).getD []

def continuations (ds : List (Located Progressive)) : List (Located Continuation) :=
  ds.filterMap (Located.filterMap fun
    | .continuation c => some c
    | .chunk _ => none)

/-- The fills of continuations by id, each id's in document order. -/
def fillsById (found : OrderedMap ChunkKey Text) (tags : List (Located Chunk))
    (ds : List (Located Continuation)) : OrderedMap Text (List Text) :=
  ds.foldl (fun m d => m.insert d.value.id ((m.get? d.value.id).getD [] ++ [fillOf found tags d]))
    OrderedMap.empty

/-- The document with every continuation filled. -/
def putContinuations (keeps : Bool) (fills : OrderedMap Text (List Text)) (document : Text) : Text :=
  fills.entries.foldl (fun document e => Placeholder.fillEach e.1 keeps e.2 document) document

/-- Puts a recorder in front of the handler in force, and gives its number. -/
def install : StateM (Delivery.State ω) Nat := fun s =>
  (s.renders, { s with handler := .recorder s.renders s.handler, renders := s.renders + 1 })

def restore (h : Handler) : StateM (Delivery.State ω) Unit := modify fun s => { s with handler := h }

/-- Delivers the chunks for the directives of a page. -/
def deliver (env : Delivery.Setting ω) (ds : List (Located Progressive)) :
    Delivery.Work ω (List (Located Chunk) × List Delivered) := do
  let tags ← Delivery.expand env ds
  let chunks ← Delivery.loadChunks env tags
  pure (tags, chunks)

/-- Renders a page: its chunks are loaded and put in. -/
def render (env : Delivery.Setting ω) (page : Text) : Delivery.Work ω Rendering := do
  let parsed := Conversion.ofText page
  if parsed.progressive.isEmpty then pure ⟨parsed.content, 0, 0, [], [], false⟩
  else
    let before := (← get).handler
    let number ← ExceptT.lift install
    let delivered ← ExceptT.lift (deliver env parsed.progressive).run
    ExceptT.lift (restore before)
    let (tags, chunks) ← ExceptT.mk (pure delivered)
    let found := contents chunks
    let s ← get
    let aborted := s.loader.aborted
    let document := putChunks found tags parsed.content
    let fills := fillsById found tags (continuations parsed.progressive)
    pure
      { content := putContinuations aborted fills document
        loaded := chunks.length
        total := tags.length
        chunks := chunks
        errors := (s.reports.recorded.filter fun r => r.1 = number).map Prod.snd
        aborted := aborted }

end Rendering
end PageAssembly
