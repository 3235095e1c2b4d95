/-
  PageAssembly/Proofs/Chunk/Recency.lean
  ======================================
  **What memory holds after loads one after another.**

  Chunks are loaded one after another, with resets in between, from a host that may answer
  every call as it likes: with a text, with nothing, or with a failure.  All that is written
  down of a load is what can be seen from outside: whether there was a call, and what the call
  gave (`Loading`).  A load *uses* its chunk if it gives it without a call, or if its call
  gives a text.

  `memory_recent` says what memory holds in these terms alone: the chunks used last, as many
  as there is room for, in the order of their last use, each with the text that its latest
  call gave.  And the next load makes a call just for a chunk that is not among them.

  The order of last use is that of `List.dedup`, which keeps the last of equal entries.  One
  use moves its chunk to the end, in memory and among all chunks ever used alike; that memory
  has forgotten some of the latter makes no difference to its last places (`rtake_moved`).
-/
import PageAssembly.Proofs.Chunk.Delivering
import Mathlib.Data.List.DropRight
import Mathlib.Data.List.Dedup

namespace PageAssembly

/-! ### The last places of a list -/

theorem rtake_append_of_le {α : Type} (n : Nat) (xs : List α) {ys : List α} (h : n ≤ ys.length) :
    (xs ++ ys).rtake n = ys.rtake n := by
  rw [List.rtake, List.rtake, List.length_append, List.drop_append]
  rw [List.drop_eq_nil_of_le (by omega), List.nil_append]
  congr 1
  omega

theorem rtake_of_length_le {α : Type} {n : Nat} {xs : List α} (h : xs.length ≤ n) : xs.rtake n = xs := by
  rw [List.rtake, Nat.sub_eq_zero_of_le h, List.drop_zero]

section

variable {α : Type} [DecidableEq α]

/-- The list with the element moved to the end, or put there. -/
def moved (a : α) (xs : List α) : List α := xs.filter (· ≠ a) ++ [a]

theorem length_moved {a : α} {xs : List α} (hxs : xs.Nodup) (ha : a ∈ xs) :
    (moved a xs).length = xs.length := by
  have herase : xs.erase a = xs.filter (· ≠ a) := by
    rw [hxs.erase_eq_filter]
    apply List.filter_congr
    intro b _
    rw [bne, decide_not, beq_eq_decide]
  have hpos : 0 < xs.length := List.length_pos_of_mem ha
  rw [moved, ← herase, List.length_append, List.length_erase_of_mem ha, List.length_singleton]
  omega

theorem dedup_concat (a : α) (xs : List α) : (xs ++ [a]).dedup = moved a xs.dedup := by
  induction xs with
  | nil => rfl
  | cons x xs ih =>
    rw [List.cons_append]
    by_cases hx : x ∈ xs
    · rw [List.dedup_cons_of_mem (List.mem_append_left _ hx), List.dedup_cons_of_mem hx, ih]
    · rw [List.dedup_cons_of_notMem hx]
      by_cases hxa : x = a
      · rw [List.dedup_cons_of_mem (by simp [hxa]), ih]
        simp [moved, hxa]
      · rw [List.dedup_cons_of_notMem (by simp [hx, hxa]), ih]
        simp [moved, hxa]

/-- What stands in front of the last places does not matter to them after a move. -/
theorem rtake_moved (n : Nat) (a : α) {xs : List α} (hxs : xs.Nodup) :
    (moved a xs).rtake n = (moved a (xs.rtake n)).rtake n := by
  by_cases hlen : xs.length ≤ n
  · rw [rtake_of_length_le hlen]
  · have hsplit : xs = xs.take (xs.length - n) ++ xs.rtake n := (List.take_append_drop _ _).symm
    have hlast : (xs.rtake n).length = n := by
      rw [List.rtake, List.length_drop]
      omega
    have hmoved : moved a xs = (xs.take (xs.length - n)).filter (· ≠ a) ++ moved a (xs.rtake n) := by
      conv_lhs => rw [hsplit]
      rw [moved, moved, List.filter_append, List.append_assoc]
    have hlength : n ≤ (moved a (xs.rtake n)).length := by
      by_cases ha : a ∈ xs.rtake n
      · have hnodup : (xs.rtake n).Nodup := hxs.sublist (List.drop_sublist _ _)
        rw [length_moved hnodup ha, hlast]
      · have hfilter : (xs.rtake n).filter (· ≠ a) = xs.rtake n := by
          rw [List.filter_eq_self]
          intro b hb
          exact decide_eq_true fun hba => ha (hba ▸ hb)
        rw [moved, hfilter, List.length_append, hlast]
        omega
    rw [hmoved, rtake_append_of_le n _ hlength]

end

namespace Memory

theorem mem_keys_iff {m : Memory} {k : ChunkKey} : k ∈ m.keys ↔ ∃ t, m.get? k = some t := by
  constructor
  · intro h
    obtain ⟨e, he, rfl⟩ := List.mem_map.1 h
    cases hget : m.get? e.1 with
    | some t => exact ⟨t, rfl⟩
    | none =>
      have hne := List.lookup_eq_none_iff.1 hget e he
      simp at hne
  · rintro ⟨t, ht⟩
    exact List.mem_map_of_mem (mem_of_get? ht)

theorem keys_without (m : Memory) (k : ChunkKey) :
    (m.without k).map Prod.fst = m.keys.filter (· ≠ k) := by
  rw [without, keys, List.filter_map]
  rfl

theorem keys_touch {m : Memory} {k : ChunkKey} {t : Text} (h : m.get? k = some t) :
    (m.touch k).keys = moved k m.keys := by
  rw [touch, h, moved, ← keys_without]
  exact List.map_append

theorem keys_put (m : Memory) (k : ChunkKey) (t : Text) :
    (m.put k t).keys = (moved k m.keys).rtake m.capacity.toNat := by
  have hall : (m.without k ++ [(k, t)]).map Prod.fst = moved k m.keys := by
    rw [List.map_append, keys_without]
    rfl
  rw [keys, put, fit, List.map_drop, hall, ← hall, List.rtake, List.length_map]

end Memory

namespace Delivery

variable {ω : Type}

/-! ### One load -/

/-- The reply that the call for a chunk would get now. -/
def replyNow (env : Setting ω) (k : ChunkKey) (s : State ω) : Except Failure Reply :=
  (env.host.answer (Host.chunkCall env.contract k.collection k.index) s.exchange.world).1

theorem loadOne_of_cached {env : Setting ω} {k : ChunkKey} {s : State ω} {t : Text}
    (h : s.loader.cached? k = some t) :
    (loadOne env k).run s =
      (.ok t, { s with loader := { s.loader with memory := s.loader.memory.touch k } }) := by
  rcases Loader.request_cases s.loader k with ⟨t', ht', hrequest⟩ | ⟨hnone, -⟩ | ⟨hnone, -⟩
  · obtain rfl : t = t' := Option.some.inj (h.symm.trans ht')
    have hask : request k s =
        (.ready t, { s with loader := { s.loader with memory := s.loader.memory.touch k } }) := by
      rw [request, hrequest]
    change (request k >>= fun ticket => fly env (flights [ticket]) >>= fun landed =>
      pure (outcome landed ticket)) s = _
    rw [bind_apply, hask]
    rfl
  · rw [h] at hnone
    cases hnone
  · rw [h] at hnone
    cases hnone

/-- What a flight that started since the last reset brings goes into memory. -/
theorem land_memory {l : Loader} {f : Flight} (reply : Except Failure Reply)
    (h : f.generation = l.generation) :
    (l.land f reply).2.memory =
      match reply.bind Reply.content? with
      | .ok (some t) => l.memory.put f.key t
      | _ => l.memory := by
  have hsame : ¬ f.generation ≠ (l.leave f).generation := not_not.2 h
  rw [Loader.land]
  rcases reply.bind Reply.content? with e | _ | t
  · rfl
  · rfl
  · simp only [if_neg hsame]
    split <;> rfl

/-- A load that is not answered from memory makes a call, and memory takes the text that it gives. -/
theorem loadOne_of_not_cached (env : Setting ω) {k : ChunkKey} {s : State ω}
    (h : s.loader.cached? k = none) (hidle : s.loader.pending = [])
    (hroom : 0 ≤ s.loader.memory.capacity) :
    ∃ s', (loadOne env k).run s = (Reply.given (replyNow env k s), s') ∧
      s'.exchange.calls =
        s.exchange.calls ++ [Host.chunkCall env.contract k.collection k.index] ∧
      s'.loader.pending = [] ∧
      s'.loader.memory =
        match (replyNow env k s).bind Reply.content? with
        | .ok (some t) => s.loader.memory.put k t
        | _ => s.loader.memory := by
  have hrequest : request k s = (.started (s.loader.next k), { s with loader := s.loader.launch k }) := by
    rcases Loader.request_cases s.loader k with ⟨t, ht, -⟩ | ⟨-, n, hn, -⟩ | ⟨-, -, hnew⟩
    · rw [h] at ht
      cases ht
    · rw [hidle] at hn
      cases hn
    · rw [request, hnew]
  let landed := land (s.loader.next k, replyNow env k s)
    (call env (s.loader.next k) { s with loader := s.loader.launch k }).2
  have hrun : (loadOne env k).run s = (outcome [landed.1] (.started (s.loader.next k)), landed.2) := by
    change (request k >>= fun ticket => fly env (flights [ticket]) >>= fun landed =>
      pure (outcome landed ticket)) s = _
    rw [bind_apply, hrequest]
    rfl
  obtain ⟨memory, hloader, -⟩ :=
    Loader.land_snd (s.loader.launch k) (s.loader.next k) (replyNow env k s)
  refine ⟨landed.2, ?_, rfl, ?_, land_memory (replyNow env k s) rfl⟩
  · rw [hrun]
    have houtcome : landed.1 = ((s.loader.next k).number, Reply.given (replyNow env k s)) :=
      congrArg (Prod.mk _) (Loader.outcome_land (s.loader.launch k) _ (replyNow env k s) hroom)
    rw [houtcome]
    simp [outcome]
  · change ((s.loader.launch k).land (s.loader.next k) (replyNow env k s)).2.pending = []
    rw [hloader]
    simp [Loader.leave, Loader.launch, Loader.next, hidle]

/-! ### Loads one after another -/

/-- A load of a chunk as it is seen from outside. -/
structure Loading where
  key : ChunkKey
  /-- What the call gave, if there was one. -/
  fetched : Option (Except Failure (Option Text))

/-- The chunk, if it was given without a call or its call gave a text. -/
def Loading.used? (x : Loading) : Option ChunkKey :=
  match x.fetched with
  | none => some x.key
  | some (.ok (some _)) => some x.key
  | some _ => none

/-- What the latest call for a chunk gave. -/
def latest? (k : ChunkKey) (xs : List Loading) : Option (Except Failure (Option Text)) :=
  (xs.filterMap fun x => if x.key = k then x.fetched else none).getLast?

/-- A loader, and the loads since its last reset. -/
structure Diary (ω : Type) where
  state : State ω
  loadings : List Loading

namespace Diary

/-- One more demand is met, and its flight has landed before the next. -/
def next (env : Setting ω) (d : Diary ω) : Demand → Diary ω
  | .load k =>
    let r := (loadOne env k).run d.state
    let fetched :=
      if r.2.exchange.calls = d.state.exchange.calls then none
      else some ((replyNow env k d.state).bind Reply.content?)
    { state := r.2, loadings := d.loadings ++ [⟨k, fetched⟩] }
  | .reset => { state := { d.state with loader := d.state.loader.reset }, loadings := [] }

def after (env : Setting ω) (capacity : Int) (exchange : Exchange ω) (demands : List Demand) : Diary ω :=
  demands.foldl (next env) ⟨.start capacity exchange, []⟩

/-- The chunks used since the last reset, in the order of their last use. -/
def used (d : Diary ω) : List ChunkKey := (d.loadings.filterMap Loading.used?).dedup

/-- Memory is what the loads since the last reset say. -/
structure Recent (env : Setting ω) (capacity : Int) (d : Diary ω) : Prop where
  keys : d.state.loader.memory.keys = d.used.rtake capacity.toNat
  texts : ∀ e ∈ d.state.loader.memory.entries, latest? e.1 d.loadings = some (.ok (some e.2))
  /-- What is in memory is given from there. -/
  given : ∀ e ∈ d.state.loader.memory.entries, ((loadOne env e.1).run d.state).1 = .ok e.2
  calls : ∀ k, ((loadOne env k).run d.state).2.exchange.calls = d.state.exchange.calls ++
    if k ∈ d.state.loader.memory.keys then []
    else [Host.chunkCall env.contract k.collection k.index]

/-- What carries `Recent` from load to load. -/
structure Kept (capacity : Int) (d : Diary ω) : Prop where
  idle : d.state.loader.pending = []
  room : d.state.loader.memory.capacity = capacity
  keys : d.state.loader.memory.keys = d.used.rtake capacity.toNat
  texts : ∀ e ∈ d.state.loader.memory.entries, latest? e.1 d.loadings = some (.ok (some e.2))

section

variable {env : Setting ω} {capacity : Int} {d : Diary ω} {k : ChunkKey}

theorem latest?_concat (k : ChunkKey) (xs : List Loading) (x : Loading) :
    latest? k (xs ++ [x]) = (if x.key = k then x.fetched else none).or (latest? k xs) := by
  rw [latest?, latest?, List.filterMap_append, List.getLast?_append]
  cases hx : (if x.key = k then x.fetched else none) with
  | none => simp [hx]
  | some r => simp [hx]

theorem used_concat {state : State ω} (x : Loading) :
    (Diary.mk state (d.loadings ++ [x])).used =
      match x.used? with
      | some k => moved k d.used
      | none => d.used := by
  rw [used, List.filterMap_append]
  cases hx : x.used? with
  | none => simp [hx, used]
  | some k => simp [hx, dedup_concat, used]

theorem Kept.nodup (h : Kept capacity d) : d.state.loader.memory.keys.Nodup := by
  rw [h.keys]
  exact (List.nodup_dedup _).sublist (List.drop_sublist _ _)

theorem Kept.length_le (h : Kept capacity d) :
    d.state.loader.memory.keys.length ≤ capacity.toNat := by
  rw [h.keys, List.rtake, List.length_drop]
  omega

theorem kept_start (capacity : Int) (exchange : Exchange ω) :
    Kept capacity ⟨.start capacity exchange, []⟩ where
  idle := rfl
  room := rfl
  keys := (List.rtake_nil _).symm
  texts _ he := absurd he List.not_mem_nil

theorem Kept.reset (h : Kept capacity d) : Kept capacity (d.next env .reset) where
  idle := rfl
  room := h.room
  keys := (List.rtake_nil _).symm
  texts _ he := absurd he List.not_mem_nil

theorem next_of_cached {t : Text} (h : d.state.loader.cached? k = some t) :
    d.next env (.load k) =
      ⟨{ d.state with loader := { d.state.loader with memory := d.state.loader.memory.touch k } },
        d.loadings ++ [⟨k, none⟩]⟩ := by
  simp only [next, loadOne_of_cached h, if_true]

/-- A chunk that is in memory moves to the end. -/
theorem Kept.load_cached (h : Kept capacity d) {t : Text} (hcached : d.state.loader.cached? k = some t) :
    Kept capacity (d.next env (.load k)) := by
  rw [next_of_cached hcached]
  have hmem : k ∈ d.state.loader.memory.keys := Memory.mem_keys_iff.2 ⟨t, hcached⟩
  have hlength : (moved k d.state.loader.memory.keys).length ≤ capacity.toNat := by
    rw [length_moved h.nodup hmem]
    exact h.length_le
  refine ⟨h.idle, ?_, ?_, ?_⟩
  · exact (Memory.capacity_touch _ k).trans h.room
  · calc (d.state.loader.memory.touch k).keys
        = moved k d.state.loader.memory.keys := Memory.keys_touch hcached
      _ = (moved k d.state.loader.memory.keys).rtake capacity.toNat := (rtake_of_length_le hlength).symm
      _ = (moved k d.used).rtake capacity.toNat := by
        rw [h.keys]
        exact (rtake_moved _ k (List.nodup_dedup _)).symm
      _ = _ := by rw [used_concat]; rfl
  · intro e he
    rw [latest?_concat, ite_self, Option.none_or]
    exact h.texts e (Memory.mem_of_mem_touch he)

theorem next_of_not_cached (env : Setting ω) (h : Kept capacity d) (hroom : 1 ≤ capacity)
    (hcached : d.state.loader.cached? k = none) :
    ∃ s', d.next env (.load k) =
        ⟨s', d.loadings ++ [⟨k, some ((replyNow env k d.state).bind Reply.content?)⟩]⟩ ∧
      s'.loader.pending = [] ∧
      s'.loader.memory =
        match (replyNow env k d.state).bind Reply.content? with
        | .ok (some t) => d.state.loader.memory.put k t
        | _ => d.state.loader.memory := by
  have hcapacity : 0 ≤ d.state.loader.memory.capacity := by
    rw [h.room]
    omega
  obtain ⟨s', hrun, hcalls, hidle, hmemory⟩ := loadOne_of_not_cached env hcached h.idle hcapacity
  refine ⟨s', ?_, hidle, hmemory⟩
  have hmore : ¬ s'.exchange.calls = d.state.exchange.calls := by
    rw [hcalls]
    simp
  simp only [next, hrun, if_neg hmore]

/-- A load of a chunk that is not in memory is about none of the chunks that are. -/
theorem Kept.latest_other (h : Kept capacity d) (hcached : d.state.loader.cached? k = none)
    (fetched : Option (Except Failure (Option Text))) {e : ChunkKey × Text}
    (he : e ∈ d.state.loader.memory.entries) :
    latest? e.1 (d.loadings ++ [⟨k, fetched⟩]) = some (.ok (some e.2)) := by
  have hne : k ≠ e.1 := by
    rintro rfl
    obtain ⟨t, ht⟩ := Memory.mem_keys_iff.1 (List.mem_map_of_mem he)
    rw [Loader.cached?, ht] at hcached
    cases hcached
  rw [latest?_concat, if_neg hne, Option.none_or]
  exact h.texts e he

/-- A chunk that is brought goes to the end. -/
theorem Kept.brought (h : Kept capacity d) (hcached : d.state.loader.cached? k = none) {s : State ω}
    (hidle : s.loader.pending = []) {t : Text}
    (hmemory : s.loader.memory = d.state.loader.memory.put k t) :
    Kept capacity ⟨s, d.loadings ++ [⟨k, some (.ok (some t))⟩]⟩ := by
  refine ⟨hidle, ?_, ?_, fun e he => ?_⟩
  · rw [hmemory]
    exact h.room
  · rw [hmemory, Memory.keys_put, h.room, h.keys, used_concat]
    exact (rtake_moved _ k (List.nodup_dedup _)).symm
  · rw [hmemory] at he
    obtain ⟨-, rfl | he⟩ := Memory.mem_of_mem_put he
    · rw [latest?_concat, if_pos rfl, Option.some_or]
    · exact h.latest_other hcached _ he

/-- A load that brings nothing uses nothing. -/
theorem Kept.missed (h : Kept capacity d) (hcached : d.state.loader.cached? k = none) {s : State ω}
    (hidle : s.loader.pending = []) (hmemory : s.loader.memory = d.state.loader.memory)
    {fetched : Option (Except Failure (Option Text))} (hunused : (Loading.mk k fetched).used? = none) :
    Kept capacity ⟨s, d.loadings ++ [⟨k, fetched⟩]⟩ := by
  refine ⟨hidle, ?_, ?_, fun e he => ?_⟩
  · rw [hmemory]
    exact h.room
  · rw [hmemory, h.keys, used_concat, hunused]
  · rw [hmemory] at he
    exact h.latest_other hcached _ he

/-- A chunk that is not in memory is called for, and goes to the end if the call gives a text. -/
theorem Kept.load_new (h : Kept capacity d) (hroom : 1 ≤ capacity)
    (hcached : d.state.loader.cached? k = none) : Kept capacity (d.next env (.load k)) := by
  obtain ⟨s', hnext, hidle, hmemory⟩ := next_of_not_cached env h hroom hcached
  rw [hnext]
  generalize (replyNow env k d.state).bind Reply.content? = reply at hmemory ⊢
  cases reply with
  | error e => exact h.missed hcached hidle hmemory rfl
  | ok content =>
    cases content with
    | none => exact h.missed hcached hidle hmemory rfl
    | some t => exact h.brought hcached hidle hmemory

theorem Kept.next (h : Kept capacity d) (hroom : 1 ≤ capacity) (x : Demand) :
    Kept capacity (d.next env x) := by
  cases x with
  | reset => exact h.reset
  | load k =>
    cases hcached : d.state.loader.cached? k with
    | some t => exact h.load_cached hcached
    | none => exact h.load_new hroom hcached

theorem kept_after (env : Setting ω) (hroom : 1 ≤ capacity) (exchange : Exchange ω) (demands : List Demand) :
    Kept capacity (after env capacity exchange demands) := by
  induction demands using List.reverseRecOn with
  | nil => exact kept_start capacity exchange
  | append_singleton demands x ih =>
    rw [after, List.foldl_append]
    exact ih.next hroom x

/-- Whatever calls give, between loads memory holds the chunks used last since the last reset,
    each with the text of its latest call, and a load makes a call just for any other chunk. -/
theorem memory_recent (env : Setting ω) (hroom : 1 ≤ capacity) (exchange : Exchange ω)
    (demands : List Demand) : Recent env capacity (after env capacity exchange demands) := by
  have h := kept_after env hroom exchange demands
  generalize after env capacity exchange demands = d at h ⊢
  refine ⟨h.keys, h.texts, ?_, ?_⟩
  · intro e he
    have hcached : d.state.loader.cached? e.1 = some e.2 := lookup_of_mem h.nodup he
    rw [loadOne_of_cached hcached]
  · intro k
    cases hcached : d.state.loader.cached? k with
    | some t =>
      rw [if_pos (Memory.mem_keys_iff.2 ⟨t, hcached⟩), List.append_nil, loadOne_of_cached hcached]
    | none =>
      have hnot : k ∉ d.state.loader.memory.keys := by
        intro hmem
        obtain ⟨t, ht⟩ := Memory.mem_keys_iff.1 hmem
        rw [Loader.cached?, ht] at hcached
        cases hcached
      have hcapacity : 0 ≤ d.state.loader.memory.capacity := by
        rw [h.room]
        omega
      obtain ⟨s', hrun, hcalls, -⟩ := loadOne_of_not_cached env hcached h.idle hcapacity
      rw [if_neg hnot, hrun, hcalls]

end

/-! ### Two places for three chunks -/

/-- A host that gives its replies one after another, whatever the calls are. -/
def scripted : Setting (List (Except Failure Reply)) where
  host :=
    { answer := fun _ replies => (replies.headD (.error .missingArgument), replies.tail)
      counts := none }
  contract := "C".toList
  concurrency := 1
  batch := 1
  stops _ _ := false

def script : List (Except Failure Reply) :=
  [.ok (.data (.text "x".toList)), .ok (.data .null), .ok (.data (.text "y".toList)),
    .error (Failure.noResult "C".toList none), .ok (.data (.text "z".toList))]

/-- Chunk 0 comes; chunk 1 does not, and then does; chunk 0 is there; chunk 2 fails, and then comes. -/
def turns : List Demand :=
  [.load ⟨"a".toList, 0⟩, .load ⟨"a".toList, 1⟩, .load ⟨"a".toList, 1⟩, .load ⟨"a".toList, 0⟩,
    .load ⟨"a".toList, 2⟩, .load ⟨"a".toList, 2⟩]

theorem memory_recent_turns :
    (1 : Int) ≤ 2 ∧ Recent scripted 2 (after scripted 2 ⟨script, []⟩ turns) ∧
      (after scripted 2 ⟨script, []⟩ turns).state.loader.memory.entries =
        [(⟨"a".toList, 0⟩, "x".toList), (⟨"a".toList, 2⟩, "z".toList)] :=
  ⟨by decide, memory_recent scripted (by decide) ⟨script, []⟩ turns, by decide⟩

end Diary

end Delivery
end PageAssembly
