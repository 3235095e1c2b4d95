/-
  PageAssembly/Assembly.lean
  ==========================
  **Assembling a page.**

  The text of a page goes through two stages: its includes are resolved, and then its
  chunks are loaded, or only marked by placeholders.  What the render placeholders of
  the result ask for is assembled in the same way, page by page.  One cache, one loader
  and one exchange with the host serve all of it.
-/
import PageAssembly.Chunk.Rendering
import PageAssembly.Inclusion.Resolution
import PageAssembly.Waterfall.Run

namespace PageAssembly.Assembly

variable {ω τ : Type}

/-- What stays the same while a page is assembled. -/
structure Setting (ω τ : Type) where
  resolving : Resolution.Setting ω τ
  delivering : Delivery.Setting ω
  contract : Text
  depth : Nat
  /-- Whether chunks are loaded, or only marked. -/
  progressive : Bool

/-- What an assembly works with: the desk of the includes, and the loader of the chunks. -/
structure State (ω τ : Type) where
  desk : Resolution.Desk ω τ
  delivery : Delivery.State ω

def resolve [Sub τ] [LT τ] [DecidableLT τ] (env : Setting ω τ) (page : Text) :
    StateM (State ω τ) (Except Failure Resolution) := fun s =>
  let (r, desk) := Resolution.run env.resolving env.depth page env.contract OrderedMap.empty s.desk
  (r, { s with desk })

/-- Puts the chunks of a page in their places; the loader takes over the exchange with
    the host and hands it back. -/
def renderChunks (env : Setting ω τ) (page : Text) : StateM (State ω τ) (Except Failure Text) := fun s =>
  if env.progressive then
    let (r, delivery) :=
      (Rendering.render env.delivering page).run { s.delivery with exchange := s.desk.exchange }
    (r.map Rendering.content, ⟨{ s.desk with exchange := delivery.exchange }, delivery⟩)
  else (.ok (Conversion.ofText page).content, s)

section Fresh

variable [Sub τ] [LT τ] [DecidableLT τ]

/-- Assembles the text of a page, without its continuations. -/
def assemble (env : Setting ω τ) (page : Text) : StateM (State ω τ) (Except Failure Text) := do
  match ← resolve env page with
  | .error e => pure (.error e)
  | .ok r => renderChunks env r.content

/-- Asks for pages of the contract, and assembles what comes. -/
def source (env : Setting ω τ) : Waterfall.Source (State ω τ) where
  fetch path s :=
    let (found, exchange) :=
      Waterfall.askFor env.resolving.host env.contract env.resolving.viewer path s.desk.exchange
    (found, { s with desk := { s.desk with exchange } })
  process _ page s :=
    let (r, s) := assemble env page s
    (r.map some, s)

def fetchPage (env : Setting ω τ) (func path : Option Text) :
    StateM (State ω τ) (Except Failure Text) := fun s =>
  let call : Call :=
    ⟨env.contract, some (renderFunction func), .plain path env.resolving.viewer⟩
  let (reply, exchange) := env.resolving.host.ask call s.desk.exchange
  (Host.content call reply, { s with desk := { s.desk with exchange } })

/-- Assembles a page of the contract; with limits, also what its placeholders ask for. -/
def page (env : Setting ω τ) (limits : Option Waterfall.Limits) (func path : Option Text) :
    StateM (State ω τ) (Except Failure Waterfall.Completed) := do
  match ← fetchPage env func path with
  | .error e => pure (.error e)
  | .ok raw =>
    match ← assemble env raw with
    | .error e => pure (.error e)
    | .ok content =>
      match limits with
      | none => pure (.ok (Waterfall.completed (Waterfall.start content) false))
      | some l => Waterfall.run (source env) l content

end Fresh

end PageAssembly.Assembly
