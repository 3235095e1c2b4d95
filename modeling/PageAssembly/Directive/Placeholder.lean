/-
  PageAssembly/Directive/Placeholder.lean
  =======================================
  **Placeholders: the markup that stands where content comes later.**

  Chunk, continuation and render directives are answered after the document stands.
  Until then an empty division with an id and the directive's data takes their place.
  `Conversion.ofText` puts the placeholders in and keeps the directives with their
  offsets in the text as it was.
-/
import PageAssembly.Directive.Typed
import PageAssembly.Failure
import PageAssembly.Markup.Escape
import PageAssembly.Text.Splice

namespace PageAssembly

/-- A directive that asks for chunks. -/
inductive Progressive where
  | chunk (c : Chunk)
  | continuation (c : Continuation)

/-- A directive that is answered after the document stands. -/
inductive Deferred where
  | progressive (p : Progressive)
  | render (r : Render)

namespace Directive

/-- The directive as one that asks for chunks. -/
def progressive? (d : Directive) : Option Progressive :=
  match d.chunk? with
  | some c => some (.chunk c)
  | none => d.continuation?.map .continuation

/-- The directive as one that is answered later. -/
def deferred? (d : Directive) : Option Deferred :=
  match d.progressive? with
  | some p => some (.progressive p)
  | none => d.render?.map .render

end Directive

/-- A directive with all that its kind needs. -/
inductive Typed where
  | inclusion (i : Inclusion)
  | deferred (d : Deferred)

/-- The directive with what its kind needs, where it has that. -/
def Directive.typed? (d : Directive) : Option Typed :=
  match d.inclusion? with
  | some i => some (.inclusion i)
  | none => d.deferred?.map .deferred

/-! ### Ids and markup -/

namespace Placeholder

def className : Text := "stitchdown-progressive-placeholder".toList

/-- An attribute of a placeholder, with a space in front. -/
def field (name value : Text) : Text :=
  ' ' :: (name ++ ('=' :: '"' :: (Markup.escapeValue value ++ ['"'])))

/-- A division with the given attributes and content. -/
def division (fields : List (Text × Text)) (content : Text) : Text :=
  "<div".toList ++ fields.flatMap (fun f => field f.1 f.2) ++ '>' :: (content ++ "</div>".toList)

/-- The attributes that every placeholder starts with. -/
def heading (id : Text) (kind : Directive.Kind) : List (Text × Text) :=
  [("class".toList, className), ("data-progressive-id".toList, id), ("data-type".toList, kind.word)]

end Placeholder

def Chunk.id (c : Chunk) : Text :=
  "chunk-".toList ++ c.collection ++ '-' :: Text.decimal c.index

def Continuation.id (c : Continuation) : Text :=
  "continue-".toList ++ c.collection ++ '-' :: Text.decimal c.first

def Render.id (r : Render) : Text := "render-".toList ++ r.path

/-- The placeholder of a chunk; its caption stands inside. -/
def Chunk.placeholder (c : Chunk) : Text :=
  Placeholder.division
    (Placeholder.heading c.id .chunk ++
      [("data-collection".toList, c.collection), ("data-index".toList, Text.decimal c.index)])
    (Markup.escape (c.caption.getD []))

def Continuation.placeholder (c : Continuation) : Text :=
  Placeholder.division
    (Placeholder.heading c.id .continuation ++
      [("data-collection".toList, c.collection), ("data-from".toList, Text.decimal c.first)])
    []

def Render.placeholder (r : Render) : Text :=
  Placeholder.division (Placeholder.heading r.id .render ++ [("data-path".toList, r.path)]) []

def Progressive.id : Progressive → Text
  | .chunk c => c.id
  | .continuation c => c.id

def Progressive.placeholder : Progressive → Text
  | .chunk c => c.placeholder
  | .continuation c => c.placeholder

def Deferred.id : Deferred → Text
  | .progressive p => p.id
  | .render r => r.id

def Deferred.placeholder : Deferred → Text
  | .progressive p => p.placeholder
  | .render r => r.placeholder

/-- The id and the markup of a directive's placeholder; an include has none. -/
def Typed.placeholder : Typed → Except Failure (Text × Text)
  | .inclusion _ => .error (.noPlaceholder .inclusion)
  | .deferred d => .ok (d.id, d.placeholder)

/-! ### Putting placeholders in -/

/-- A text with placeholders, and the directives that they stand for. -/
structure Conversion where
  content : Text
  progressive : List (Located Progressive)
  renders : List (Located Render)

namespace Conversion

/-- The directives of a text that are answered later, in order. -/
def deferred (s : Text) : List (Located Deferred) := Directive.collect Directive.deferred? s

def edit (d : Located Deferred) : Edit := ⟨d.start, d.stop, d.value.placeholder⟩

/-- The text with a placeholder for every directive that is answered later. -/
def ofText (s : Text) : Conversion where
  content := s.splice ((deferred s).map edit)
  progressive := Directive.collect Directive.progressive? s
  renders := Directive.renders s

/-- Whether the text has directives that are answered later. -/
def isProgressive (c : Conversion) : Bool := !(c.progressive.isEmpty && c.renders.isEmpty)

end Conversion
end PageAssembly
