/-
  PageAssembly/Directive/Typed.lean
  =================================
  **Directives with what their kind needs.**

  An include needs a contract, a chunk a collection and a whole index, a continuation
  a collection, and a render directive a path; each given as a text and not as a flag.
  A directive without them is passed over.  The optional attributes are read off the
  typed directive.
-/
import PageAssembly.Directive.Basic

namespace PageAssembly

/-! ### The four types -/

/-- Asks for the page that a contract renders. -/
structure Inclusion where
  attributes : Attributes
  contract : Text

/-- Asks for one numbered chunk of a collection; `expanded` when it came out of a continuation. -/
structure Chunk where
  attributes : Attributes
  collection : Text
  index : Nat
  expanded : Bool

/-- Asks for the chunks of a collection from one number on. -/
structure Continuation where
  attributes : Attributes
  collection : Text

/-- Asks for the page at a path once the document stands. -/
structure Render where
  attributes : Attributes
  path : Text

namespace Inclusion

/-- Attributes that direct the call and are not handed on as parameters. -/
def directing : List Text := ["contract".toList, "func".toList, "path".toList]

def func (i : Inclusion) : Option Text := Attributes.text? i.attributes "func".toList

def path (i : Inclusion) : Option Text := Attributes.text? i.attributes "path".toList

/-- The parameters of the call: every other attribute. -/
def params (i : Inclusion) : Attributes := i.attributes.filter fun e => e.1 ∉ directing

end Inclusion

/-- What stands for the chunk until it is there. -/
def Chunk.caption (c : Chunk) : Option Text := Attributes.text? c.attributes "placeholder".toList

namespace Continuation

/-- The first index asked for. -/
def first (c : Continuation) : Nat := (Attributes.number? c.attributes "from".toList).getD 0

/-- The number of chunks there are, where the directive says so. -/
def total (c : Continuation) : Option Nat := Attributes.number? c.attributes "total".toList

/-- The chunk with the given index, in the place of the continuation. -/
def chunk (c : Continuation) (index : Nat) : Chunk where
  attributes := OrderedMap.ofList
    [("collection".toList, .text c.collection), ("index".toList, .text (Text.decimal index))]
  collection := c.collection
  index := index
  expanded := true

end Continuation

/-! ### From directives -/

namespace Directive

def inclusion? (d : Directive) : Option Inclusion :=
  if d.kind = .inclusion then
    (Attributes.text? d.attributes "contract".toList).map fun c => ⟨d.attributes, c⟩
  else none

def chunk? (d : Directive) : Option Chunk :=
  if d.kind = .chunk then do
    let collection ← Attributes.text? d.attributes "collection".toList
    let index ← Attributes.number? d.attributes "index".toList
    pure ⟨d.attributes, collection, index, false⟩
  else none

def continuation? (d : Directive) : Option Continuation :=
  if d.kind = .continuation then
    (Attributes.text? d.attributes "collection".toList).map fun c => ⟨d.attributes, c⟩
  else none

def render? (d : Directive) : Option Render :=
  if d.kind = .render then
    (Attributes.text? d.attributes "path".toList).map fun p => ⟨d.attributes, p⟩
  else none

/-- The located values that `f` finds among the directives of a text. -/
def collect (f : Directive → Option α) (s : Text) : List (Located α) :=
  (find s).filterMap (Located.filterMap f)

def inclusions (s : Text) : List (Located Inclusion) := collect inclusion? s

def chunks (s : Text) : List (Located Chunk) := collect chunk? s

def continuations (s : Text) : List (Located Continuation) := collect continuation? s

def renders (s : Text) : List (Located Render) := collect render? s

end Directive
end PageAssembly
