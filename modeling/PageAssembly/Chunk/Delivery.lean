/-
  PageAssembly/Chunk/Delivery.lean
  ================================
  **Delivering the chunks that directives ask for.**

  Continuations are expanded into chunk directives, and chunks are loaded in groups:
  all requests of a group are made before any of its flights lands.  What a loader
  reports (chunks that came, progress, failures) is kept in order.  A failed call
  costs one chunk; any other failure ends the work, after the group has landed.  After
  an abort nothing new starts.

  Failures go to the handler in force.  A render puts a recorder of its own in front
  of the handler it found, and puts the old one back when it is done.
-/
import PageAssembly.Chunk.Loader
import PageAssembly.Directive.Placeholder
import PageAssembly.Exchange.Host

namespace PageAssembly

/-! ### What a loader reports -/

/-- Who is told of failures: the one who made the loader, behind the recorders of renders. -/
inductive Handler where
  | base
  | recorder (render : Nat) (forward : Handler)
deriving DecidableEq, Repr

/-- The renders whose recorders a handler passes a failure through. -/
def Handler.recorders : Handler → List Nat
  | .base => []
  | .recorder n forward => n :: forward.recorders

/-- What was reported, in order. -/
structure Reports where
  /-- Chunks that memory took. -/
  arrivals : List (ChunkKey × Text)
  /-- How many chunks were loaded, out of how many. -/
  progress : List (Nat × Nat)
  /-- Failures that the maker of the loader was told of, with their directives. -/
  failures : List (Failure × Located Chunk)
  /-- Failures that renders recorded. -/
  recorded : List (Nat × Failure)

def Reports.none : Reports := ⟨[], [], [], []⟩

/-! ### Deliveries -/

/-- A chunk that was delivered. -/
structure Delivered where
  key : ChunkKey
  content : Text
deriving DecidableEq, Repr

def Chunk.key (c : Chunk) : ChunkKey := ⟨c.collection, c.index⟩

namespace Delivery

/-- What stays the same while chunks are delivered: the host, the contract that holds
    the collections, how many loads run at once, how many such groups make a batch, and
    after which progress the observer aborts. -/
structure Setting (ω : Type) where
  host : Host ω
  contract : Text
  concurrency : Int
  batch : Int
  stops : Nat → Nat → Bool

/-- A loader at work: its state, the exchange with the host, the handler, and the reports. -/
structure State (ω : Type) where
  loader : Loader
  exchange : Exchange ω
  handler : Handler
  renders : Nat
  reports : Reports

def State.start (capacity : Int) (exchange : Exchange ω) : State ω :=
  ⟨.new capacity, exchange, .base, 0, .none⟩

/-- Deliveries, which may break off. -/
abbrev Work (ω : Type) := ExceptT Failure (StateM (State ω))

variable {ω : Type}

/-! ### Flights -/

def request (k : ChunkKey) : StateM (State ω) Ticket := fun s =>
  let (ticket, loader) := s.loader.request k
  (ticket, { s with loader })

def call (env : Setting ω) (f : Flight) : StateM (State ω) (Flight × Except Failure Reply) := fun s =>
  let (reply, exchange) := env.host.ask (Host.chunkCall env.contract f.key.collection f.key.index) s.exchange
  ((f, reply), { s with exchange })

/-- Lands a flight, and tells of what memory took. -/
def land (f : Flight × Except Failure Reply) : StateM (State ω) (Nat × Except Failure Text) := fun s =>
  let (landing, loader) := s.loader.land f.1 f.2
  let arrivals := match landing.outcome, landing.fresh with
    | .ok content, true => s.reports.arrivals ++ [(f.1.key, content)]
    | _, _ => s.reports.arrivals
  ((f.1.number, landing.outcome), { s with loader, reports := { s.reports with arrivals } })

/-- The flights that tickets started, in order. -/
def flights (ts : List Ticket) : List Flight :=
  ts.filterMap fun
    | .started f => some f
    | _ => none

/-- What a ticket gives when flights have landed. -/
def outcome (landed : List (Nat × Except Failure Text)) : Ticket → Except Failure Text
  | .ready content => .ok content
  | .joined n => (landed.lookup n).getD (.ok [])
  | .started f => (landed.lookup f.number).getD (.ok [])

/-- Makes the calls of flights and then lands them, in the order in which they started. -/
def fly (env : Setting ω) (fs : List Flight) : StateM (State ω) (List (Nat × Except Failure Text)) := do
  let answered ← fs.mapM (call env)
  answered.mapM land

/-- What a loader is asked to do. -/
inductive Demand where
  | load (key : ChunkKey)
  | reset
deriving DecidableEq, Repr

/-- Meets demands in turn while no flight lands: the tickets of the loads, and the
    flights that were started, with the replies to their calls. -/
def meet (env : Setting ω) :
    List Demand → StateM (State ω) (List Ticket × List (Flight × Except Failure Reply))
  | [] => pure ([], [])
  | .reset :: ds => do
    modify fun s => { s with loader := s.loader.reset }
    meet env ds
  | .load k :: ds => do
    let ticket ← request k
    let answered ← (flights [ticket]).mapM (call env)
    let (tickets, later) ← meet env ds
    pure (ticket :: tickets, answered ++ later)

/-- Meets demands in turn, and then lands all flights in the order in which they
    started; what the loads gave. -/
def meetAll (env : Setting ω) (ds : List Demand) : StateM (State ω) (List (Except Failure Text)) := do
  let (tickets, answered) ← meet env ds
  let landed ← answered.mapM land
  pure (tickets.map (outcome landed))

/-- Loads one chunk while no flight is under way. -/
def loadOne (env : Setting ω) (k : ChunkKey) : Work ω Text := ExceptT.mk do
  let ticket ← request k
  let landed ← fly env (flights [ticket])
  pure (outcome landed ticket)

/-- The contents, or the first failure. -/
def allOrFirst : List (Except Failure Text) → Except Failure (List Text)
  | [] => .ok []
  | .ok content :: rest => (allOrFirst rest).map (content :: ·)
  | .error e :: _ => .error e

/-- Loads chunks that are all requested at once; the first failure fails them all. -/
def loadAll (env : Setting ω) (ks : List ChunkKey) : Work ω (List Text) := ExceptT.mk do
  pure (allOrFirst (← meetAll env (ks.map .load)))

/-! ### Continuations -/

/-- The counts of a collection; a failed call leaves them unknown. -/
def counts (env : Setting ω) (collection : Text) : Work ω (Option ChunkCounts) := fun s =>
  let (found, exchange) := env.host.chunkCounts env.contract collection s.exchange
  let found := match found with
    | .error (.remote _) => .ok none
    | r => r
  (found, { s with exchange })

/-- The indices from the first one up to a total. -/
def indices (first : Nat) (total : Int) : List Nat :=
  (List.range (total.toNat - first)).map (first + ·)

/-- The chunk directives that a progressive directive stands for. -/
def expandOne (env : Setting ω) (d : Located Progressive) : Work ω (List (Located Chunk)) :=
  match d.value with
  | .chunk c => pure [{ d with value := c }]
  | .continuation c => do
    let total ← match c.total with
      | some n => pure (Int.ofNat n)
      | none => do pure (((← counts env c.collection).map ChunkCounts.count).getD 0)
    pure ((indices c.first total).map fun i => { d with value := c.chunk i })

/-- The chunk directives that directives stand for, in order. -/
def expand (env : Setting ω) : List (Located Progressive) → Work ω (List (Located Chunk))
  | [] => pure []
  | d :: ds => do
    let here ← expandOne env d
    let rest ← expand env ds
    pure (here ++ rest)

/-! ### Groups -/

/-- The list in parts of `k`, the last one shorter if need be; at most `bound` of them. -/
def partsOf (k : Nat) : Nat → List α → List (List α)
  | 0, _ => []
  | bound + 1, xs => if xs.isEmpty then [] else xs.take k :: partsOf k bound (xs.drop k)

/-- The groups in which directives are loaded; none unless at least one load may run at once. -/
def groups (env : Setting ω) (cs : List α) : List (List α) :=
  if 0 < env.concurrency ∧ 0 < env.batch then partsOf env.concurrency.toNat cs.length cs else []

/-- A directive of a group after its turn to start. -/
inductive Turn where
  | skipped
  | done (chunk : Delivered)
  | waiting (tag : Located Chunk) (ticket : Ticket)

/-- Reports that one more chunk is there; the observer may abort. -/
def advance (env : Setting ω) (loaded total : Nat) : StateM (State ω) Unit :=
  modify fun s =>
    { s with
      reports := { s.reports with progress := s.reports.progress ++ [(loaded, total)] }
      loader := if env.stops loaded total then s.loader.abort else s.loader }

def notify (e : Failure) (tag : Located Chunk) : StateM (State ω) Unit :=
  modify fun s =>
    { s with reports := { s.reports with
        failures := s.reports.failures ++ [(e, tag)]
        recorded := s.reports.recorded ++ s.handler.recorders.map fun n => (n, e) } }

/-- Gives every directive of a group its turn to start. -/
def start (env : Setting ω) (total : Nat) :
    Nat → List (Located Chunk) → StateM (State ω) (Nat × List Turn)
  | loaded, [] => pure (loaded, [])
  | loaded, tag :: tags => do
    if (← get).loader.aborted then
      let (n, turns) ← start env total loaded tags
      pure (n, .skipped :: turns)
    else
      match ← request (tag.value.key) with
      | .ready content =>
        advance env (loaded + 1) total
        let (n, turns) ← start env total (loaded + 1) tags
        pure (n, .done ⟨tag.value.key, content⟩ :: turns)
      | ticket =>
        let (n, turns) ← start env total loaded tags
        pure (n, .waiting tag ticket :: turns)

def started (turns : List Turn) : List Flight :=
  flights (turns.filterMap fun
    | .waiting _ t => some t
    | _ => none)

/-- What a group has loaded: how many chunks in all, the chunks, and the first failure
    that is no failed call. -/
structure Settled where
  loaded : Nat
  chunks : List Delivered
  fault : Option Failure

/-- Settles the directives of a group when its flights have landed. -/
def settle (env : Setting ω) (total : Nat) (landed : List (Nat × Except Failure Text)) :
    Nat → List Turn → StateM (State ω) Settled
  | loaded, [] => pure ⟨loaded, [], none⟩
  | loaded, .skipped :: turns => settle env total landed loaded turns
  | loaded, .done c :: turns => do
    let rest ← settle env total landed loaded turns
    pure { rest with chunks := c :: rest.chunks }
  | loaded, .waiting tag ticket :: turns =>
    match outcome landed ticket with
    | .ok content => do
      advance env (loaded + 1) total
      let rest ← settle env total landed (loaded + 1) turns
      pure { rest with chunks := ⟨tag.value.key, content⟩ :: rest.chunks }
    | .error (.remote e) => do
      notify (.remote e) tag
      settle env total landed loaded turns
    | .error e => do
      let rest ← settle env total landed loaded turns
      pure { rest with fault := some e }

def loadGroup (env : Setting ω) (total loaded : Nat) (tags : List (Located Chunk)) :
    Work ω (Nat × List Delivered) := do
  let (loaded, turns) ← ExceptT.lift (start env total loaded tags)
  let landed ← ExceptT.lift (fly env (started turns))
  let settled ← ExceptT.lift (settle env total landed loaded turns)
  match settled.fault with
  | some e => throw e
  | none => pure (settled.loaded, settled.chunks)

/-- Loads groups one after another, until the loader is aborted. -/
def loadGroups (env : Setting ω) (total : Nat) :
    Nat → List (List (Located Chunk)) → Work ω (List Delivered)
  | _, [] => pure []
  | loaded, group :: rest => do
    if (← get).loader.aborted then pure []
    else
      let (loaded, chunks) ← loadGroup env total loaded group
      let later ← loadGroups env total loaded rest
      pure (chunks ++ later)

def loadChunks (env : Setting ω) (tags : List (Located Chunk)) : Work ω (List Delivered) :=
  loadGroups env tags.length 0 (groups env tags)

def load (env : Setting ω) (tags : List (Located Progressive)) : Work ω (List Delivered) := do
  loadChunks env (← expand env tags)

end Delivery
end PageAssembly
