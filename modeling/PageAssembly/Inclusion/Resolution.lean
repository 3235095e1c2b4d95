/-
  PageAssembly/Inclusion/Resolution.lean
  ======================================
  **Resolving includes.**

  For a document, the page asked for or one that was included, resolution

  1. swaps protected blocks for placeholders,
  2. takes alias directives out and layers them over the aliases in force,
  3. finds the outcome of every include: a marker when its key is already being
     resolved further up, the cached content when there is a fresh one, else the
     fetched page, resolved in the same way and then cached; a failed call becomes a
     marker too,
  4. puts the outcomes in and the protected blocks back.

  Within one document an include is resolved once per key, and within one pass a key
  is fetched once, whatever the fetch gave.  How a nested document is resolved is an
  argument (`Document`), and the whole is closed by a bound on the nesting, which a
  page whose includes never end would reach.
-/
import PageAssembly.Cache.Basic
import PageAssembly.Inclusion.Key
import PageAssembly.Verbatim
import PageAssembly.Exchange.Host

namespace PageAssembly

/-- A document with its includes resolved. -/
structure Resolution where
  content : Text
  cyclic : Bool
  keys : List Text
deriving DecidableEq, Repr

namespace Resolution

variable {ω τ : Type}

/-! ### What a pass works with -/

/-- What stays the same during a pass: the host, the viewer, what the clock shows each
    time it is read, how long cached content counts, and the tokens for protected blocks. -/
structure Setting (ω τ : Type) where
  host : Host ω
  viewer : Option Text
  clock : Nat → τ
  ttl : τ
  token : Nat → Text

/-- What outlives a pass: the exchange with the host, the cache, how many tokens are used
    up, and how often the clock was read. -/
structure Desk (ω τ : Type) where
  exchange : Exchange ω
  cache : Cache τ
  drawn : Nat
  ticks : Nat

/-- A pass under way: the desk, and what was fetched for each key. -/
structure Pass (ω τ : Type) extends Desk ω τ where
  fetched : OrderedMap Text (Except Failure Text)

/-- Work within a pass, which may break off. -/
abbrev Work (ω τ : Type) := ExceptT Failure (StateM (Pass ω τ))

/-- How a document is resolved: its text, the contract that it belongs to, the keys
    further up, and the aliases in force. -/
abbrev Document (ω τ : Type) := Text → Text → List Text → Aliases → Work ω τ Resolution

/-! ### Includes -/

/-- An include of a document with the contract that it is resolved to, and its key. -/
structure Planned where
  place : Located Inclusion
  target : Text
  key : Text

/-- What becomes of an include; `closing` when it would have included itself. -/
structure Outcome where
  content : Text
  cyclic : Bool
  closing : Bool
deriving DecidableEq, Repr

/-- The plan for an include of a document that belongs to `contract`. -/
def plan (contract : Text) (aliases : Aliases) (i : Located Inclusion) : Planned :=
  let target := Aliases.target aliases i.value.contract contract
  ⟨i, target, i.value.key target⟩

/-- The call that an include makes. -/
def Planned.call (p : Planned) (viewer : Option Text) (aliases : Aliases) : Call where
  target := p.target
  function := some (renderFunction p.place.value.func)
  arguments := p.place.value.arguments viewer aliases

/-- What the call for a key gives; the second time, what it gave the first time. -/
def fetch (env : Setting ω τ) (key : Text) (call : Call) :
    StateM (Pass ω τ) (Except Failure Text) := fun p =>
  match p.fetched.get? key with
  | some found => (found, p)
  | none =>
    let (reply, exchange) := env.host.ask call p.exchange
    let found := Host.content call reply
    (found, { p with exchange, fetched := p.fetched.insert key found })

/-- Keeps the content of a key in the cache, from the time that the clock shows. -/
def keep (env : Setting ω τ) (key content : Text) : Work ω τ Unit :=
  modify fun p =>
    { p with cache := p.cache.set (env.clock p.ticks) key content, ticks := p.ticks + 1 }

/-- Draws a token for the protected blocks of a text; a text without any needs none. -/
def draw (env : Setting ω τ) (s : Text) : Work ω τ Text := do
  let n := (← get).drawn
  if Verbatim.hasBlocks s then modify fun p => { p with drawn := n + 1 }
  pure (env.token n)

section Fresh

variable [Sub τ] [LT τ] [DecidableLT τ]

/-- The fresh content of a key in the cache; the clock is read where the key has an entry. -/
def recalled (env : Setting ω τ) (key : Text) : StateM (Pass ω τ) (Option Text) := fun p =>
  match p.cache.entry? key with
  | none => (none, p)
  | some _ =>
    (p.cache.getWithin? env.ttl (env.clock p.ticks) key, { p with ticks := p.ticks + 1 })

/-- The outcome of an include below the keys `above`. -/
def outcome (document : Document ω τ) (env : Setting ω τ) (above : List Text)
    (aliases : Aliases) (p : Planned) : Work ω τ Outcome := do
  if above.contains p.key then return ⟨Marker.cycle, true, true⟩
  match ← ExceptT.lift (recalled env p.key) with
  | some content => return ⟨content, false, false⟩
  | none =>
    match ← ExceptT.lift (fetch env p.key (p.call env.viewer aliases)) with
    | .error (.remote e) => return ⟨Marker.includeFailed e.reason, false, false⟩
    | .error e => throw e
    | .ok raw =>
      let child ← document raw p.target (p.key :: above) aliases
      keep env p.key child.content
      return ⟨child.content, child.cyclic, false⟩

/-- The outcomes of includes, one after another; includes with one key share theirs. -/
def outcomes (one : Planned → Work ω τ Outcome) (known : OrderedMap Text Outcome) :
    List Planned → Work ω τ (List (Planned × Outcome))
  | [] => pure []
  | p :: ps => do
    let o ← match known.get? p.key with
      | some o => pure o
      | none => one p
    let rest ← outcomes one (known.insert p.key o) ps
    pure ((p, o) :: rest)

/-- The edit that puts an outcome in the place of its include. -/
def edit (p : Planned × Outcome) : Edit := ⟨p.1.place.start, p.1.place.stop, p.2.content⟩

/-- The document with outcomes put in, and the blocks put back. -/
def assemble (s : Text) (blocks : List Verbatim.Block) (os : List (Planned × Outcome)) :
    Resolution where
  content := Verbatim.restore blocks (s.splice (os.map edit))
  cyclic := os.any fun o => o.2.cyclic
  keys := (os.reverse.filter fun o => !o.2.closing).map fun o => o.1.key

/-- Resolves a document whose included documents are resolved by `document`. -/
def resolveWith (document : Document ω τ) (env : Setting ω τ) : Document ω τ :=
  fun s contract above aliases => do
    let token ← draw env s
    let masked := Verbatim.mask token s
    let plain := Alias.strip masked
    let aliases := Aliases.extend aliases (Alias.defined masked)
    let planned := (Directive.inclusions plain).map (plan contract aliases)
    let os ← outcomes (outcome document env above aliases) OrderedMap.empty planned
    pure (assemble plain (Verbatim.blocks token s) os)

/-- Resolves a document whose includes are nested less deep than the bound. -/
def resolve (env : Setting ω τ) : Nat → Document ω τ
  | 0 => fun _ _ _ _ => throw .tooDeep
  | depth + 1 => resolveWith (resolve env depth) env

/-! ### A pass -/

/-- Resolves a page in a pass of its own. -/
def run (env : Setting ω τ) (depth : Nat) (s contract : Text) (aliases : Aliases) :
    StateM (Desk ω τ) (Except Failure Resolution) := fun d =>
  let (result, p) := (resolve env depth s contract [] aliases).run { d with fetched := OrderedMap.empty }
  (result, p.toDesk)

/-- Resolves a page that may be any value, with a width that may be any number: how many
    calls may run at once.  Only a text is a page, and no width is negative. -/
def runValue (env : Setting ω τ) (depth : Nat) (width : Int) (v : Json) (contract : Text)
    (aliases : Aliases) : StateM (Desk ω τ) (Except Failure Resolution) :=
  match v with
  | .text s => if width < 0 then pure (.error .negativeWidth) else run env depth s contract aliases
  | v => pure (.error (.notText v.kind))

end Fresh

end Resolution
end PageAssembly
