/-
  PageAssembly/Proofs/Chunk/Delivering.lean
  =========================================
  **What a loader delivers from a fixed store.**

  A store says of every chunk what its call gives: its text, that there is no such chunk,
  or a failure.  Where a host answers by a store and the loader's memory agrees with it,
  every chunk that is asked for comes as the store has it, whether from memory, over a
  flight that is already under way, or over a flight of its own.

  While a group starts, the flights under way are those of the group, in the order in
  which they started (`Flying`), and whoever waits is fed by one of them (`Feeds`).  When
  they have landed, the loader is at rest again (`fly_run`).  So nothing is missing but what
  failed or was passed over after an abort (`Brings`), first for a group, and then for all
  groups in turn (`loadChunks_run`).
-/
import PageAssembly.Proofs.Chunk.Coalescing
import PageAssembly.Chunk.Rendering

namespace PageAssembly

/-! ### Stores -/

/-- What the calls for chunks give: a text, nothing, or a failure. -/
abbrev Store := ChunkKey → Except RemoteFailure (Option Text)

namespace Store

variable (store : Store) (k : ChunkKey)

/-- What a load of the chunk gives. -/
def given : Except Failure Text :=
  ((store k).mapError .remote).map fun content => content.getD []

/-- The content of the chunk; the empty text where there is none. -/
def content : Text :=
  match store k with
  | .ok (some t) => t
  | _ => []

/-- The chunk as it is delivered, unless its call fails. -/
def delivered? : Option Delivered :=
  match store k with
  | .ok _ => some ⟨k, store.content k⟩
  | .error _ => none

theorem given_cases :
    (store.given k = .ok (store.content k) ∧ store.delivered? k = some ⟨k, store.content k⟩) ∨
    ∃ e, store.given k = .error (.remote e) ∧ store.delivered? k = none := by
  unfold given delivered? content
  rcases store k with e | _ | t
  · exact .inr ⟨e, rfl, rfl⟩
  · exact .inl ⟨rfl, rfl⟩
  · exact .inl ⟨rfl, rfl⟩

theorem delivered?_of_given {store : Store} {k : ChunkKey} {t : Text} (h : store.given k = .ok t) :
    store.delivered? k = some ⟨k, t⟩ := by
  rcases store.given_cases k with ⟨hgiven, hdelivered⟩ | ⟨e, hgiven, -⟩
  · rw [hgiven] at h
    cases h
    exact hdelivered
  · rw [hgiven] at h
    cases h

end Store

namespace Delivery

variable {ω α β : Type}

/-! ### Composing work -/

theorem bind_run_ok {m : Work ω α} {f : α → Work ω β} {a : α} {s s' : State ω} (h : m.run s = (.ok a, s')) :
    (m >>= f).run s = (f a).run s' := by
  have hrun : (m >>= f).run s = ExceptT.bindCont f (m.run s).1 (m.run s).2 := rfl
  rw [hrun, h]
  rfl

theorem lift_run (m : StateM (State ω) α) (s : State ω) :
    (ExceptT.lift m : Work ω α).run s = (.ok (m s).1, (m s).2) := rfl

theorem bind_apply (m : StateM (State ω) α) (f : α → StateM (State ω) β) (s : State ω) :
    (m >>= f) s = f (m s).1 (m s).2 := rfl

/-! ### Hosts with a store, loaders at rest and in flight -/

/-- A host that answers by a store, and knows of each collection the same counts at any time;
    counts that are not known may as well fail. -/
structure Serves (env : Setting ω) (store : Store) (known : Text → Option ChunkCounts) : Prop where
  chunk : ∀ k w, (env.host.answer (Host.chunkCall env.contract k.collection k.index) w).1.bind Reply.content? =
    (store k).mapError .remote
  counts : ∀ collection x, (env.host.chunkCounts env.contract collection x).1 = .ok (known collection) ∨
    known collection = none ∧ ∃ e, (env.host.chunkCounts env.contract collection x).1 = .error (.remote e)

/-- The host that answers by a store, and that knows counts as given. -/
def hostOf (store : Store) (known : Text → Option ChunkCounts) : Host Unit where
  answer call world :=
    match call.arguments with
    | .positional [.symbol collection, .u32 index] =>
      (((store ⟨collection, index⟩).mapError .remote).map fun
        | some t => .data (.text t)
        | none => .data .null, world)
    | _ => (.error .missingArgument, world)
  counts := some fun contract collection world =>
    (match known collection with
      | some c => .ok (.counts c)
      | none => .error (Failure.noResult contract none), world)

theorem serves_hostOf {env : Setting Unit} {store : Store} {known : Text → Option ChunkCounts}
    (h : env.host = hostOf store known) : Serves env store known where
  chunk k world := by
    rw [h]
    change ((((store k).mapError Failure.remote).map fun
      | some t => Reply.data (.text t)
      | none => Reply.data .null).bind Reply.content?) = _
    rcases store k with e | _ | t
    · rfl
    · rfl
    · rfl
  counts collection x := by
    rw [h]
    cases hknown : known collection with
    | some c =>
      left
      simp [Host.chunkCounts, hostOf, hknown, Except.map]
    | none =>
      right
      simp [Host.chunkCounts, hostOf, hknown, Except.map, Failure.noResult]

/-- A loader with no flight under way, and with a memory that agrees with the store; its size is
    not below zero, for then there would be no room for any chunk. -/
structure AtRest (store : Store) (l : Loader) : Prop where
  pending : l.pending = []
  room : 0 ≤ l.memory.capacity
  agrees : ∀ e ∈ l.memory.entries, store.given e.1 = .ok e.2

/-- A loader with only these flights under way, the oldest first. -/
structure Flying (store : Store) (fs : List Flight) (l : Loader) : Prop where
  pending : ∀ p ∈ l.pending, ∃ f ∈ fs, p = (f.key, f.number)
  room : 0 ≤ l.memory.capacity
  agrees : ∀ e ∈ l.memory.entries, store.given e.1 = .ok e.2
  numbers : (fs.map Flight.number).Nodup
  below : ∀ f ∈ fs, f.number < l.started

theorem AtRest.flying {store : Store} {l : Loader} (h : AtRest store l) : Flying store [] l where
  pending _ hp := absurd (h.pending ▸ hp) List.not_mem_nil
  room := h.room
  agrees := h.agrees
  numbers := List.nodup_nil
  below _ hf := absurd hf List.not_mem_nil

theorem Flying.atRest {store : Store} {l : Loader} (h : Flying store [] l) : AtRest store l where
  pending := by
    apply List.eq_nil_iff_forall_not_mem.2
    intro p hp
    obtain ⟨f, hf, -⟩ := h.pending p hp
    exact absurd hf List.not_mem_nil
  room := h.room
  agrees := h.agrees

/-- The ticket has the chunk, or one of the flights will bring it. -/
def Feeds (store : Store) (fs : List Flight) (k : ChunkKey) : Ticket → Prop
  | .ready t => store.given k = .ok t
  | .joined n => ∃ f ∈ fs, f.key = k ∧ f.number = n
  | .started f => f ∈ fs ∧ f.key = k

section

variable {env : Setting ω} {store : Store} {fs gs : List Flight} {l l' l'' : Loader} {k : ChunkKey} {s : State ω}
  {known : Text → Option ChunkCounts}

@[simp] theorem flights_ready (t : Text) : flights [.ready t] = [] := rfl

@[simp] theorem flights_joined (n : Nat) : flights [.joined n] = [] := rfl

theorem Feeds.mono {t : Ticket} (h : Feeds store fs k t) (hsub : fs ⊆ gs) : Feeds store gs k t := by
  cases t with
  | ready t => exact h
  | joined n =>
    obtain ⟨f, hf, hkey, hnumber⟩ := h
    exact ⟨f, hsub hf, hkey, hnumber⟩
  | started f => exact ⟨hsub h.1, h.2⟩

/-! ### One request, one landing -/

theorem Flying.abort (h : Flying store fs l) : Flying store fs l.abort where
  pending := h.pending
  room := h.room
  agrees := h.agrees
  numbers := h.numbers
  below := h.below

theorem Flying.request (h : Flying store fs l) (k : ChunkKey) :
    Flying store (fs ++ flights [(l.request k).1]) (l.request k).2 ∧
      Feeds store (fs ++ flights [(l.request k).1]) k (l.request k).1 ∧
      (l.request k).2.aborted = l.aborted := by
  rcases Loader.request_cases l k with ⟨t, hcached, hrequest⟩ | ⟨-, n, hpending, hrequest⟩ |
    ⟨-, -, hrequest⟩
  · rw [hrequest, flights_ready, List.append_nil]
    refine ⟨⟨h.pending, ?_, ?_, h.numbers, h.below⟩, h.agrees _ (Memory.mem_of_get? hcached), rfl⟩
    · exact (Memory.capacity_touch l.memory k).symm ▸ h.room
    · exact fun e he => h.agrees e (Memory.mem_of_mem_touch he)
  · rw [hrequest, flights_joined, List.append_nil]
    obtain ⟨f, hf, hpair⟩ := h.pending _ (mem_of_lookup hpending)
    obtain ⟨rfl, rfl⟩ := Prod.mk.inj hpair
    exact ⟨h, ⟨f, hf, rfl, rfl⟩, rfl⟩
  · rw [hrequest]
    have hmem : l.next k ∈ fs ++ [l.next k] := List.mem_append_right fs List.mem_cons_self
    refine ⟨⟨?_, h.room, h.agrees, ?_, ?_⟩, ⟨hmem, rfl⟩, rfl⟩
    · intro p hp
      rcases List.mem_cons.1 hp with rfl | hp
      · exact ⟨l.next k, hmem, rfl⟩
      · obtain ⟨g, hg, hpair⟩ := h.pending p hp
        exact ⟨g, List.mem_append_left _ hg, hpair⟩
    · -- the number of the new flight is that of no earlier one
      change ((fs ++ [l.next k]).map Flight.number).Nodup
      rw [List.map_append, List.nodup_append]
      refine ⟨h.numbers, List.nodup_singleton _, ?_⟩
      intro m hm n hn
      obtain ⟨g, hg, rfl⟩ := List.mem_map.1 hm
      obtain rfl : n = l.started := List.mem_singleton.1 hn
      exact Nat.ne_of_lt (h.below g hg)
    · intro g hg
      rcases List.mem_append.1 hg with hg | hg
      · exact Nat.lt_succ_of_lt (h.below g hg)
      · rw [List.mem_singleton.1 hg]
        exact Nat.lt_succ_self l.started

theorem Flying.land {f : Flight} (h : Flying store (f :: fs) l) {reply : Except Failure Reply}
    (hreply : Reply.given reply = store.given f.key) :
    Flying store fs (l.land f reply).2 ∧ (l.land f reply).1.outcome = store.given f.key ∧
      (l.land f reply).2.aborted = l.aborted := by
  have houtcome : (l.land f reply).1.outcome = store.given f.key :=
    (Loader.outcome_land l f reply h.room).trans hreply
  obtain ⟨memory, hland, hcapacity, hmemory⟩ := Loader.land_snd l f reply
  rw [hland]
  refine ⟨⟨?_, ?_, ?_, ?_, ?_⟩, houtcome, rfl⟩
  · -- whoever is still pending waits for a later flight
    intro p hp
    have hp : p ∈ l.pending.filter fun p => p ≠ (f.key, f.number) := hp
    obtain ⟨hp, hne⟩ := List.mem_filter.1 hp
    obtain ⟨g, hg, rfl⟩ := h.pending p hp
    rcases List.mem_cons.1 hg with rfl | hg
    · simp at hne
    · exact ⟨g, hg, rfl⟩
  · exact hcapacity.symm ▸ h.room
  · intro e he
    rcases hmemory e he with he | ⟨hkey, -, hgave⟩
    · exact h.agrees e he
    · rw [hkey, ← houtcome, hgave]
  · exact (List.nodup_cons.1 h.numbers).2
  · exact fun g hg => h.below g (List.mem_cons_of_mem f hg)

/-! ### The flights of a group -/

theorem mapM_cons_run (f : α → StateM (State ω) β) (x : α) (xs : List α) (s : State ω) :
    (x :: xs).mapM f s = ((f x s).1 :: (xs.mapM f (f x s).2).1, (xs.mapM f (f x s).2).2) := by
  rw [List.mapM_cons]
  rfl

theorem calls_run (h : Serves env store known) (fs : List Flight) (s : State ω) :
    (fs.mapM (call env) s).1.map Prod.fst = fs ∧
      (∀ x ∈ (fs.mapM (call env) s).1, Reply.given x.2 = store.given x.1.key) ∧
      (fs.mapM (call env) s).2.loader = s.loader := by
  induction fs generalizing s with
  | nil => exact ⟨rfl, fun x hx => absurd hx List.not_mem_nil, rfl⟩
  | cons f fs ih =>
    obtain ⟨hflights, hreplies, hloader⟩ := ih (call env f s).2
    have hreply : Reply.given (call env f s).1.2 = store.given f.key := by
      have hcall : (call env f s).1.2 =
          (env.host.answer (Host.chunkCall env.contract f.key.collection f.key.index) s.exchange.world).1 := rfl
      rw [hcall, Reply.given, h.chunk]
      rfl
    rw [mapM_cons_run]
    refine ⟨congrArg (f :: ·) hflights, ?_, hloader⟩
    intro x hx
    rcases List.mem_cons.1 hx with rfl | hx
    · exact hreply
    · exact hreplies x hx

theorem lands_run {answered : List (Flight × Except Failure Reply)}
    (h : Flying store (answered.map Prod.fst) s.loader)
    (hreplies : ∀ x ∈ answered, Reply.given x.2 = store.given x.1.key) :
    (answered.mapM land s).1 = answered.map (fun x => (x.1.number, store.given x.1.key)) ∧
      AtRest store (answered.mapM land s).2.loader ∧
      (answered.mapM land s).2.loader.aborted = s.loader.aborted := by
  induction answered generalizing s with
  | nil => exact ⟨rfl, h.atRest, rfl⟩
  | cons x answered ih =>
    obtain ⟨hflying, houtcome, haborted⟩ := h.land (hreplies x List.mem_cons_self)
    obtain ⟨hlanded, hrest, hkept⟩ := ih (s := (land x s).2) hflying
      fun y hy => hreplies y (List.mem_cons_of_mem x hy)
    rw [mapM_cons_run]
    refine ⟨?_, hrest, hkept.trans haborted⟩
    rw [List.map_cons, hlanded, ← houtcome]
    rfl

theorem fly_run (hserves : Serves env store known) (h : Flying store fs s.loader) :
    (fly env fs s).1 = fs.map (fun f => (f.number, store.given f.key)) ∧
      AtRest store (fly env fs s).2.loader ∧ (fly env fs s).2.loader.aborted = s.loader.aborted := by
  obtain ⟨hflights, hreplies, hloader⟩ := calls_run hserves fs s
  have hflying : Flying store ((fs.mapM (call env) s).1.map Prod.fst) (fs.mapM (call env) s).2.loader := by
    rw [hflights, hloader]
    exact h
  obtain ⟨hlanded, hrest, haborted⟩ := lands_run hflying hreplies
  refine ⟨?_, hrest, haborted.trans (congrArg Loader.aborted hloader)⟩
  rw [← hflights, List.map_map, hflights]
  exact hlanded

theorem lookup_of_mem {κ ν : Type} [DecidableEq κ] {k : κ} {v : ν} {es : List (κ × ν)}
    (hes : (es.map Prod.fst).Nodup) (h : (k, v) ∈ es) : es.lookup k = some v := by
  obtain ⟨before, after, rfl⟩ := List.append_of_mem h
  refine List.lookup_eq_some_iff.2 ⟨before, after, rfl, ?_⟩
  intro e he
  rw [List.map_append, List.nodup_append] at hes
  have hne := hes.2.2 e.1 (List.mem_map_of_mem he) k List.mem_cons_self
  simpa using fun heq => hne heq.symm

theorem Feeds.outcome {t : Ticket} (h : Feeds store fs k t) (hnumbers : (fs.map Flight.number).Nodup) :
    outcome (fs.map fun f => (f.number, store.given f.key)) t = store.given k := by
  have hlookup : ∀ f ∈ fs, (fs.map fun f => (f.number, store.given f.key)).lookup f.number =
      some (store.given f.key) := by
    intro f hf
    apply lookup_of_mem
    · rw [List.map_map]
      exact hnumbers
    · exact List.mem_map_of_mem hf
  cases t with
  | ready t => exact h.symm
  | joined n =>
    obtain ⟨f, hf, rfl, rfl⟩ := h
    exact congrArg (fun found => found.getD (.ok [])) (hlookup f hf)
  | started f =>
    obtain ⟨hf, rfl⟩ := h
    exact congrArg (fun found => found.getD (.ok [])) (hlookup f hf)

/-! ### What chunks are brought -/

/-- From one state of the loader to a later one: an abort stays, and only the observer aborts. -/
structure Follows (env : Setting ω) (l l' : Loader) : Prop where
  kept : l.aborted = true → l'.aborted = true
  stopped : l'.aborted = true → l.aborted = true ∨ ∃ loaded total, env.stops loaded total = true

/-- The chunks that are brought between two states of the loader, when these were asked for. -/
structure Brings (env : Setting ω) (store : Store) (ks : List ChunkKey) (l l' : Loader)
    (cs : List Delivered) : Prop extends Follows env l l' where
  /-- They come in order, as the store has them. -/
  some : cs.Sublist (ks.filterMap store.delivered?)
  /-- Without an abort none is missing but what failed. -/
  all : l'.aborted = false → cs = ks.filterMap store.delivered?
  /-- After an abort none comes. -/
  none : l.aborted = true → cs = []

theorem Follows.of_eq (h : l'.aborted = l.aborted) : Follows env l l' :=
  ⟨fun haborted => h.trans haborted, fun haborted => .inl (h.symm.trans haborted)⟩

theorem Follows.trans (h : Follows env l l') (h' : Follows env l' l'') : Follows env l l'' :=
  ⟨fun haborted => h'.kept (h.kept haborted), fun haborted => (h'.stopped haborted).elim h.stopped .inr⟩

theorem Follows.going (h : Follows env l l') (hgoing : l'.aborted = false) : l.aborted = false := by
  rw [← Bool.not_eq_true] at hgoing ⊢
  exact fun haborted => hgoing (h.kept haborted)

section

variable {ks ks' : List ChunkKey} {cs cs' : List Delivered}

theorem Brings.nil (h : Follows env l l') : Brings env store [] l l' [] :=
  ⟨h, List.Sublist.refl _, fun _ => rfl, fun _ => rfl⟩

theorem Brings.skip (h : Follows env l l') (haborted : l.aborted = true) (ks : List ChunkKey) :
    Brings env store ks l l' [] := by
  refine ⟨h, List.nil_sublist _, fun hgoing => ?_, fun _ => rfl⟩
  have hnot := h.going hgoing
  rw [haborted] at hnot
  cases hnot

theorem Brings.full (h : Follows env l l') (hgoing : l.aborted = false) (ks : List ChunkKey) :
    Brings env store ks l l' (ks.filterMap store.delivered?) :=
  ⟨h, List.Sublist.refl _, fun _ => rfl, fun haborted => absurd (haborted.symm.trans hgoing) (by decide)⟩

theorem Brings.append (h : Brings env store ks l l' cs) (h' : Brings env store ks' l' l'' cs') :
    Brings env store (ks ++ ks') l l'' (cs ++ cs') := by
  refine ⟨h.toFollows.trans h'.toFollows, ?_, fun hgoing => ?_, fun haborted => ?_⟩
  · rw [List.filterMap_append]
    exact h.some.append h'.some
  · rw [List.filterMap_append, ← h.all (h'.going hgoing), ← h'.all hgoing]
  · rw [h.none haborted, h'.none (h.kept haborted)]
    rfl

theorem Brings.follows (h : Brings env store ks l l' cs) (h' : Follows env l' l'') :
    Brings env store ks l l'' cs := by
  have hnil : Brings env store [] l' l'' [] := .nil h'
  have happend := h.append hnil
  rwa [List.append_nil, List.append_nil] at happend

end

/-! ### Groups -/

/-- What a turn brings when its flight has landed. -/
def Turn.brings? (store : Store) : Turn → Option Delivered
  | .skipped => none
  | .done c => some c
  | .waiting tag _ => store.delivered? tag.value.key

/-- Every turn that waits is fed by one of the flights. -/
def Fed (store : Store) (fs : List Flight) (turns : List Turn) : Prop :=
  ∀ tag ticket, .waiting tag ticket ∈ turns → Feeds store fs tag.value.key ticket

theorem Fed.cons {turn : Turn} {turns : List Turn} (h : Fed store fs turns)
    (hturn : ∀ tag ticket, turn = .waiting tag ticket → Feeds store fs tag.value.key ticket) :
    Fed store fs (turn :: turns) := by
  intro tag ticket hmem
  rcases List.mem_cons.1 hmem with heq | hmem
  · exact hturn tag ticket heq.symm
  · exact h tag ticket hmem

theorem follows_advance (env : Setting ω) (loaded total : Nat) (s : State ω) :
    Follows env s.loader (advance env loaded total s).2.loader := by
  have hloader : (advance env loaded total s).2.loader =
      if env.stops loaded total then s.loader.abort else s.loader := rfl
  rw [hloader]
  split
  · next hstops => exact ⟨fun _ => rfl, fun _ => .inr ⟨loaded, total, hstops⟩⟩
  · exact .of_eq rfl

theorem Flying.advance (h : Flying store fs s.loader) (env : Setting ω) (loaded total : Nat) :
    Flying store fs (advance env loaded total s).2.loader := by
  have hloader : (Delivery.advance env loaded total s).2.loader =
      if env.stops loaded total then s.loader.abort else s.loader := rfl
  rw [hloader]
  split
  · exact h.abort
  · exact h

section

variable {tag : Located Chunk} {tags : List (Located Chunk)} {loaded total : Nat}

theorem start_aborted (h : s.loader.aborted = true) :
    start env total loaded (tag :: tags) s =
      (((start env total loaded tags s).1.1, .skipped :: (start env total loaded tags s).1.2),
        (start env total loaded tags s).2) := by
  change (ite (s.loader.aborted = true) _ _ : StateM (State ω) (Nat × List Turn)) s = _
  rw [if_pos h]
  rfl

theorem start_ready {content : Text} (h : s.loader.aborted = false)
    (hrequest : (s.loader.request tag.value.key).1 = .ready content) :
    start env total loaded (tag :: tags) s =
      let s := (Delivery.advance env (loaded + 1) total (request tag.value.key s).2).2
      (((start env total (loaded + 1) tags s).1.1,
        .done ⟨tag.value.key, content⟩ :: (start env total (loaded + 1) tags s).1.2),
        (start env total (loaded + 1) tags s).2) := by
  have hticket : (request tag.value.key s).1 = .ready content := hrequest
  change (ite (s.loader.aborted = true) _ _ : StateM (State ω) (Nat × List Turn)) s = _
  rw [if_neg (Bool.eq_false_iff.1 h), bind_apply, hticket]
  rfl

theorem start_waiting (h : s.loader.aborted = false)
    (hrequest : ∀ content, (s.loader.request tag.value.key).1 ≠ .ready content) :
    start env total loaded (tag :: tags) s =
      let s' := (request tag.value.key s).2
      (((start env total loaded tags s').1.1,
        .waiting tag (s.loader.request tag.value.key).1 :: (start env total loaded tags s').1.2),
        (start env total loaded tags s').2) := by
  change (ite (s.loader.aborted = true) _ _ : StateM (State ω) (Nat × List Turn)) s = _
  have hask : (request tag.value.key s).1 = (s.loader.request tag.value.key).1 := rfl
  rw [if_neg (Bool.eq_false_iff.1 h), bind_apply, hask]
  cases hticket : (s.loader.request tag.value.key).1 with
  | ready content => exact absurd hticket (hrequest content)
  | joined n => rfl
  | started f => rfl

/-- How the first directive of a group is started. -/
theorem start_cases (env : Setting ω) (total loaded : Nat) (tag : Located Chunk)
    (tags : List (Located Chunk)) (s : State ω) :
    (s.loader.aborted = true ∧ start env total loaded (tag :: tags) s =
      (((start env total loaded tags s).1.1, .skipped :: (start env total loaded tags s).1.2),
        (start env total loaded tags s).2)) ∨
    (s.loader.aborted = false ∧ ∃ content, (s.loader.request tag.value.key).1 = .ready content ∧
      start env total loaded (tag :: tags) s =
        let s' := (Delivery.advance env (loaded + 1) total (request tag.value.key s).2).2
        (((start env total (loaded + 1) tags s').1.1,
          .done ⟨tag.value.key, content⟩ :: (start env total (loaded + 1) tags s').1.2),
          (start env total (loaded + 1) tags s').2)) ∨
    (s.loader.aborted = false ∧ (∀ content, (s.loader.request tag.value.key).1 ≠ .ready content) ∧
      start env total loaded (tag :: tags) s =
        let s' := (request tag.value.key s).2
        (((start env total loaded tags s').1.1,
          .waiting tag (s.loader.request tag.value.key).1 :: (start env total loaded tags s').1.2),
          (start env total loaded tags s').2)) := by
  cases haborted : s.loader.aborted with
  | true => exact .inl ⟨rfl, start_aborted haborted⟩
  | false =>
    by_cases hready : ∃ content, (s.loader.request tag.value.key).1 = .ready content
    · obtain ⟨content, hready⟩ := hready
      exact .inr (.inl ⟨rfl, content, hready, start_ready haborted hready⟩)
    · have hwaiting := fun content hcontent => hready ⟨content, hcontent⟩
      exact .inr (.inr ⟨rfl, hwaiting, start_waiting haborted hwaiting⟩)

section

variable {landed : List (Nat × Except Failure Text)} {turns : List Turn} {ticket : Ticket}

/-- A chunk that came counts, and is one of those that the group gives. -/
theorem settle_came {content : Text} (h : Delivery.outcome landed ticket = .ok content) :
    settle env total landed loaded (.waiting tag ticket :: turns) s =
      let r := settle env total landed (loaded + 1) turns (Delivery.advance env (loaded + 1) total s).2
      ({ r.1 with chunks := ⟨tag.value.key, content⟩ :: r.1.chunks }, r.2) := by
  rw [settle, h]
  rfl

/-- A failed call is told of, and costs this one chunk. -/
theorem settle_failed {e : RemoteFailure} (h : Delivery.outcome landed ticket = .error (.remote e)) :
    settle env total landed loaded (.waiting tag ticket :: turns) s =
      settle env total landed loaded turns (notify (.remote e) tag s).2 := by
  rw [settle, h]
  rfl

end

/-- What the flights of a group give, and the state when they have landed. -/
def flown (env : Setting ω) (total loaded : Nat) (tags : List (Located Chunk)) (s : State ω) :
    List (Nat × Except Failure Text) × State ω :=
  let begun := start env total loaded tags s
  fly env (started begun.1.2) begun.2

/-- A group that is settled, and the state then. -/
def settled (env : Setting ω) (total loaded : Nat) (tags : List (Located Chunk)) (s : State ω) :
    Settled × State ω :=
  let begun := start env total loaded tags s
  settle env total (flown env total loaded tags s).1 begun.1.1 begun.1.2 (flown env total loaded tags s).2

theorem loadGroup_eq (env : Setting ω) (total loaded : Nat) (tags : List (Located Chunk)) (s : State ω) :
    (loadGroup env total loaded tags).run s =
      let r := settled env total loaded tags s
      (r.1.fault.elim (.ok (r.1.loaded, r.1.chunks)) .error, r.2) := by
  rw [loadGroup, bind_run_ok (lift_run _ s), bind_run_ok (lift_run _ _), bind_run_ok (lift_run _ _)]
  dsimp only [settled, flown]
  split
  · next e hfault => rw [hfault]; rfl
  · next hfault => rw [hfault]; rfl

theorem loadGroup_of_settled (h : (settled env total loaded tags s).1.fault = none) :
    (loadGroup env total loaded tags).run s =
      (.ok ((settled env total loaded tags s).1.loaded, (settled env total loaded tags s).1.chunks),
        (settled env total loaded tags s).2) := by
  rw [loadGroup_eq]
  dsimp only
  rw [h, Option.elim_none]

theorem loadGroups_cons (env : Setting ω) (total loaded : Nat) (group : List (Located Chunk))
    (groups : List (List (Located Chunk))) (s : State ω) :
    (loadGroups env total loaded (group :: groups)).run s =
      (if s.loader.aborted = true then pure [] else
        loadGroup env total loaded group >>= fun x =>
          loadGroups env total x.1 groups >>= fun later => pure (x.2 ++ later) : Work ω _).run s := rfl

theorem brings?_waiting (ticket : Ticket) (turns : List Turn) :
    (Turn.waiting tag ticket :: turns).filterMap (Turn.brings? store) =
      [tag.value.key].filterMap store.delivered? ++ turns.filterMap (Turn.brings? store) := by
  rw [← List.singleton_append, List.filterMap_append]
  rfl

/-- What starting a group leaves: flights under way that feed every turn, and the loader
    as the chunks that they will bring say. -/
structure Starts (env : Setting ω) (store : Store) (fs : List Flight) (tags : List (Located Chunk))
    (l l' : Loader) (turns : List Turn) : Prop where
  flying : Flying store (fs ++ started turns) l'
  fed : Fed store (fs ++ started turns) turns
  brings : Brings env store (tags.map fun t => t.value.key) l l' (turns.filterMap (Turn.brings? store))

theorem Starts.ready {content : Text} {turns : List Turn} (hgoing : l.aborted = false)
    (hfollows : Follows env l l') (hgiven : store.given tag.value.key = .ok content)
    (h : Starts env store fs tags l' l'' turns) :
    Starts env store fs (tag :: tags) l l'' (.done ⟨tag.value.key, content⟩ :: turns) := by
  refine ⟨h.flying, h.fed.cons ?_, ?_⟩
  · rintro _ _ ⟨⟩
  · have hone : Brings env store [tag.value.key] l l' ([tag.value.key].filterMap store.delivered?) :=
      .full hfollows hgoing _
    rw [List.filterMap_cons_some (Store.delivered?_of_given hgiven)] at hone
    exact hone.append h.brings

theorem Starts.waiting {ticket : Ticket} {turns : List Turn} (hgoing : l.aborted = false)
    (hfollows : Follows env l l') (hfeeds : Feeds store (fs ++ flights [ticket]) tag.value.key ticket)
    (h : Starts env store (fs ++ flights [ticket]) tags l' l'' turns) :
    Starts env store fs (tag :: tags) l l'' (.waiting tag ticket :: turns) := by
  have hflights : fs ++ started (.waiting tag ticket :: turns) = fs ++ flights [ticket] ++ started turns := by
    rw [List.append_assoc]
    exact congrArg (fs ++ ·) (flights_append [ticket] _)
  refine ⟨hflights ▸ h.flying, hflights ▸ h.fed.cons ?_, ?_⟩
  · rintro _ _ ⟨⟩
    exact hfeeds.mono (List.subset_append_left _ _)
  · rw [brings?_waiting]
    exact (Brings.full hfollows hgoing [tag.value.key]).append h.brings

theorem start_starts (total loaded : Nat) (h : Flying store fs s.loader) :
    Starts env store fs tags s.loader (start env total loaded tags s).2.loader
      (start env total loaded tags s).1.2 := by
  induction tags generalizing loaded s fs with
  | nil =>
    have hnone : fs ++ started [] = fs := List.append_nil fs
    refine ⟨hnone.symm ▸ h, ?_, .nil (.of_eq rfl)⟩
    intro tag ticket hmem
    exact absurd hmem List.not_mem_nil
  | cons tag tags ih =>
    rcases start_cases env total loaded tag tags s with ⟨haborted, hstart⟩ |
      ⟨hgoing, content, hready, hstart⟩ | ⟨hgoing, -, hstart⟩
    · have htail := ih loaded h
      rw [hstart]
      refine ⟨htail.flying, htail.fed.cons ?_, ?_⟩
      · rintro _ _ ⟨⟩
      · have hnone := htail.brings.none haborted
        rw [List.filterMap_cons_none rfl, hnone]
        exact .skip htail.brings.toFollows haborted _
    · obtain ⟨hflying, hfeeds, hsame⟩ := h.request tag.value.key
      rw [hready] at hflying hfeeds
      rw [flights_ready, List.append_nil] at hflying
      have hfollows : Follows env s.loader (request tag.value.key s).2.loader := .of_eq hsame
      rw [hstart]
      refine .ready hgoing (hfollows.trans (follows_advance env (loaded + 1) total _)) hfeeds ?_
      exact ih (loaded + 1) (Flying.advance hflying env (loaded + 1) total)
    · obtain ⟨hflying, hfeeds, hsame⟩ := h.request tag.value.key
      have hfollows : Follows env s.loader (request tag.value.key s).2.loader := .of_eq hsame
      rw [hstart]
      exact .waiting hgoing hfollows hfeeds (ih loaded hflying)

theorem settle_run (total loaded : Nat) {landed : List (Nat × Except Failure Text)} {turns : List Turn}
    (h : AtRest store s.loader)
    (hlanded : ∀ tag ticket, .waiting tag ticket ∈ turns →
      Delivery.outcome landed ticket = store.given tag.value.key) :
    (settle env total landed loaded turns s).1.chunks = turns.filterMap (Turn.brings? store) ∧
      (settle env total landed loaded turns s).1.fault = none ∧
      AtRest store (settle env total landed loaded turns s).2.loader ∧
      Follows env s.loader (settle env total landed loaded turns s).2.loader := by
  induction turns generalizing loaded s with
  | nil => exact ⟨rfl, rfl, h, .of_eq rfl⟩
  | cons turn turns ih =>
    have hlater : ∀ tag ticket, .waiting tag ticket ∈ turns →
        Delivery.outcome landed ticket = store.given tag.value.key :=
      fun tag ticket hmem => hlanded tag ticket (List.mem_cons_of_mem turn hmem)
    cases turn with
    | skipped => exact ih loaded h hlater
    | done c =>
      obtain ⟨hchunks, hfault, hrest, hfollows⟩ := ih loaded h hlater
      exact ⟨congrArg (c :: ·) hchunks, hfault, hrest, hfollows⟩
    | waiting tag ticket =>
      have houtcome := hlanded tag ticket List.mem_cons_self
      rcases store.given_cases tag.value.key with ⟨hgiven, hdelivered⟩ | ⟨e, hgiven, hdelivered⟩
      · have hadvanced : AtRest store (Delivery.advance env (loaded + 1) total s).2.loader :=
          (Flying.advance h.flying env (loaded + 1) total).atRest
        obtain ⟨hchunks, hfault, hrest, hfollows⟩ := ih (loaded + 1) hadvanced hlater
        rw [settle_came (houtcome.trans hgiven)]
        refine ⟨?_, hfault, hrest, (follows_advance env (loaded + 1) total s).trans hfollows⟩
        rw [brings?_waiting, List.filterMap_cons_some hdelivered]
        exact congrArg (_ :: ·) hchunks
      · rw [settle_failed (houtcome.trans hgiven), brings?_waiting, List.filterMap_cons_none hdelivered]
        exact ih (s := (notify (.remote e) tag s).2) loaded h hlater

/-- The flights that a group started bring what its turns wait for. -/
theorem landed_of_start (total loaded : Nat) (tags : List (Located Chunk)) (hserves : Serves env store known)
    (h : AtRest store s.loader) {waiter : Located Chunk} {ticket : Ticket}
    (hmem : .waiting waiter ticket ∈ (start env total loaded tags s).1.2) :
    Delivery.outcome (flown env total loaded tags s).1 ticket = store.given waiter.value.key := by
  have hstarts : Starts env store [] tags s.loader (start env total loaded tags s).2.loader
      (start env total loaded tags s).1.2 := start_starts total loaded h.flying
  have hflying : Flying store (started (start env total loaded tags s).1.2)
      (start env total loaded tags s).2.loader := hstarts.flying
  have hfed : Fed store (started (start env total loaded tags s).1.2) (start env total loaded tags s).1.2 :=
    hstarts.fed
  rw [flown, (fly_run hserves hflying).1]
  exact (hfed waiter ticket hmem).outcome hflying.numbers

/-- A group brings what the store has, and leaves the loader at rest. -/
theorem loadGroup_run (total loaded : Nat) (tags : List (Located Chunk))
    (hserves : Serves env store known) (h : AtRest store s.loader) :
    ∃ n cs s', (loadGroup env total loaded tags).run s = (.ok (n, cs), s') ∧ AtRest store s'.loader ∧
      Brings env store (tags.map fun t => t.value.key) s.loader s'.loader cs := by
  let begun := start env total loaded tags s
  have hstarts : Starts env store [] tags s.loader begun.2.loader begun.1.2 := start_starts total loaded h.flying
  have hflying : Flying store (started begun.1.2) begun.2.loader := hstarts.flying
  obtain ⟨-, hidle, hsame⟩ := fly_run hserves hflying
  let r := settled env total loaded tags s
  have hsettled : r.1.chunks = begun.1.2.filterMap (Turn.brings? store) ∧ r.1.fault = none ∧
      AtRest store r.2.loader ∧ Follows env (flown env total loaded tags s).2.loader r.2.loader :=
    settle_run total begun.1.1 hidle fun _ _ hmem => landed_of_start total loaded tags hserves h hmem
  obtain ⟨hchunks, hfault, hrest, hfollows⟩ := hsettled
  refine ⟨r.1.loaded, r.1.chunks, r.2, loadGroup_of_settled hfault, hrest, ?_⟩
  · rw [hchunks]
    exact (hstarts.brings.follows (.of_eq hsame)).follows hfollows

end

/-! ### All groups -/

theorem flatten_partsOf {k bound : Nat} {xs : List α} (hk : 0 < k) (h : xs.length ≤ bound) :
    (partsOf k bound xs).flatten = xs := by
  induction bound generalizing xs with
  | zero => rw [List.eq_nil_of_length_eq_zero (Nat.le_zero.1 h), partsOf, List.flatten_nil]
  | succ bound ih =>
    rw [partsOf]
    cases xs with
    | nil => rfl
    | cons x xs =>
      have hshort : ((x :: xs).drop k).length ≤ bound := by
        rw [List.length_drop, List.length_cons]
        rw [List.length_cons] at h
        omega
      change ((x :: xs).take k :: partsOf k bound ((x :: xs).drop k)).flatten = _
      rw [List.flatten_cons, ih hshort, List.take_append_drop]

theorem flatten_groups (env : Setting ω) (xs : List α) :
    (groups env xs).flatten = if 0 < env.concurrency ∧ 0 < env.batch then xs else [] := by
  unfold groups
  split
  · next h => exact flatten_partsOf (by omega) (Nat.le_refl _)
  · rfl

theorem loadGroups_run (total loaded : Nat) (groups : List (List (Located Chunk)))
    (hserves : Serves env store known) (h : AtRest store s.loader) :
    ∃ cs s', (loadGroups env total loaded groups).run s = (.ok cs, s') ∧ AtRest store s'.loader ∧
      Brings env store (groups.flatten.map fun t => t.value.key) s.loader s'.loader cs := by
  induction groups generalizing loaded s with
  | nil => exact ⟨[], s, rfl, h, .nil (.of_eq rfl)⟩
  | cons group groups ih =>
    cases haborted : s.loader.aborted with
    | true =>
      rw [loadGroups_cons, if_pos haborted]
      exact ⟨[], s, rfl, h, .skip (.of_eq rfl) haborted _⟩
    | false =>
      obtain ⟨n, cs, s₁, hrun, hrest, hbrings⟩ := loadGroup_run total loaded group hserves h
      obtain ⟨later, s₂, hlater, hrest', hbrings'⟩ := ih n hrest
      refine ⟨cs ++ later, s₂, ?_, hrest', ?_⟩
      · rw [loadGroups_cons, if_neg (Bool.eq_false_iff.1 haborted), bind_run_ok hrun, bind_run_ok hlater]
        rfl
      · rw [List.flatten_cons, List.map_append]
        exact hbrings.append hbrings'

/-- The chunks that are asked for at all: none unless at least one load may run at once. -/
def requested (env : Setting ω) (tags : List (Located Chunk)) : List ChunkKey :=
  if 0 < env.concurrency ∧ 0 < env.batch then tags.map fun t => t.value.key else []

/-- Chunks are loaded as the store has them; none is missing but what failed, or what did not
    start before an abort. -/
theorem loadChunks_run (hserves : Serves env store known) (h : AtRest store s.loader)
    (tags : List (Located Chunk)) :
    ∃ cs s', (loadChunks env tags).run s = (.ok cs, s') ∧ AtRest store s'.loader ∧
      Brings env store (requested env tags) s.loader s'.loader cs := by
  obtain ⟨cs, s', hrun, hrest, hbrings⟩ := loadGroups_run tags.length 0 (groups env tags) hserves h
  have hflatten : (groups env tags).flatten.map (fun t => t.value.key) = requested env tags := by
    rw [flatten_groups, requested]
    split <;> rfl
  exact ⟨cs, s', hrun, hrest, hflatten ▸ hbrings⟩

/-! ### Continuations -/

/-- How many chunks a continuation reaches to: as many as it says, or as are known. -/
def reach (known : Text → Option ChunkCounts) (c : Continuation) : Int :=
  match c.total with
  | some n => Int.ofNat n
  | none => ((known c.collection).map ChunkCounts.count).getD 0

/-- The chunk directives that a directive stands for. -/
def expansion (known : Text → Option ChunkCounts) (d : Located Progressive) : List (Located Chunk) :=
  match d.value with
  | .chunk c => [{ d with value := c }]
  | .continuation c => (indices c.first (reach known c)).map fun i => { d with value := c.chunk i }

theorem counts_run (hserves : Serves env store known) (collection : Text) (s : State ω) :
    ∃ exchange, (counts env collection).run s = (.ok (known collection), { s with exchange }) := by
  have hcounts := hserves.counts collection s.exchange
  rcases hfound : env.host.chunkCounts env.contract collection s.exchange with ⟨found, exchange⟩
  rw [hfound] at hcounts
  refine ⟨exchange, ?_⟩
  change counts env collection s = _
  rw [counts, hfound]
  rcases hcounts with rfl | ⟨hnone, e, rfl⟩
  · rfl
  · rw [hnone]

theorem expandOne_run (hserves : Serves env store known) (d : Located Progressive) (s : State ω) :
    ∃ exchange, (expandOne env d).run s = (.ok (expansion known d), { s with exchange }) := by
  unfold expandOne expansion reach
  cases d.value with
  | chunk c => exact ⟨s.exchange, rfl⟩
  | continuation c =>
    cases htotal : c.total with
    | some n =>
      simp only [htotal]
      exact ⟨s.exchange, rfl⟩
    | none =>
      obtain ⟨exchange, hrun⟩ := counts_run hserves c.collection s
      simp only [htotal]
      exact ⟨exchange, (bind_run_ok hrun).trans rfl⟩

theorem expand_run (hserves : Serves env store known) (ds : List (Located Progressive)) (s : State ω) :
    ∃ exchange, (expand env ds).run s = (.ok (ds.flatMap (expansion known)), { s with exchange }) := by
  induction ds generalizing s with
  | nil => exact ⟨s.exchange, rfl⟩
  | cons d ds ih =>
    obtain ⟨x, hone⟩ := expandOne_run hserves d s
    obtain ⟨y, hrest⟩ := ih { s with exchange := x }
    refine ⟨y, ?_⟩
    rw [expand, bind_run_ok hone, bind_run_ok hrest]
    rfl

theorem deliver_run (hserves : Serves env store known) (h : AtRest store s.loader)
    (ds : List (Located Progressive)) :
    ∃ cs s', (Rendering.deliver env ds).run s = (.ok (ds.flatMap (expansion known), cs), s') ∧
      AtRest store s'.loader ∧
      Brings env store (requested env (ds.flatMap (expansion known))) s.loader s'.loader cs := by
  obtain ⟨x, hexpand⟩ := expand_run hserves ds s
  have hsame : AtRest store { s with exchange := x }.loader := h
  obtain ⟨cs, s', hload, hrest, hbrings⟩ := loadChunks_run hserves hsame (ds.flatMap (expansion known))
  refine ⟨cs, s', ?_, hrest, hbrings⟩
  rw [Rendering.deliver, bind_run_ok hexpand, bind_run_ok hload]
  rfl

end

end Delivery
end PageAssembly
