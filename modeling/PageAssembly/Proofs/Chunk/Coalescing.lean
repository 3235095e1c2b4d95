/-
  PageAssembly/Proofs/Chunk/Coalescing.lean
  =========================================
  **Loads, landings and resets in any order.**

  A loader is watched while chunks are asked for, flights land with whatever their calls
  replied, and the loader is reset, in any order.  The watch writes down what the loader
  itself forgets: every flight that was started, what each gave when it landed, every
  load, and how many resets came before each of them.

  `Coherent` says what then always holds, between any two events.  Flights that have not
  landed and were started since the last reset have different chunks, and the table of
  pending flights lists exactly these.  Memory holds only what such flights brought, though
  they have landed.  And every load is fed by a flight for its own chunk that no reset
  separates from it: it waits for the flight, with all others that wait for it, or
  it was given from memory what the flight had brought.

  Each event keeps this (`Counted.load`, `Counted.reset`, `Counted.finish`), and so it holds of
  every run (`coherent_run`).  What makes it go through for a flight that lands after a
  reset: its number is no longer pending, and its generation is not the loader's.
-/
import PageAssembly.Chunk.Delivery
import Mathlib.Data.List.Induction
import Mathlib.Data.List.Nodup

namespace PageAssembly

/-- What a call's reply gives to those who wait for the chunk: its text, or the empty text
    when there is no such chunk. -/
def Reply.given (reply : Except Failure Reply) : Except Failure Text :=
  (reply.bind Reply.content?).map fun content => content.getD []

theorem mem_of_lookup {α β : Type} [BEq α] [LawfulBEq α] {k : α} {v : β} {es : List (α × β)}
    (h : es.lookup k = some v) : (k, v) ∈ es := by
  obtain ⟨before, after, rfl, -⟩ := List.lookup_eq_some_iff.1 h
  simp

namespace Memory

theorem mem_of_get? {m : Memory} {k : ChunkKey} {v : Text} (h : m.get? k = some v) :
    (k, v) ∈ m.entries := mem_of_lookup h

theorem mem_of_mem_touch {m : Memory} {k : ChunkKey} {e : ChunkKey × Text}
    (h : e ∈ (m.touch k).entries) : e ∈ m.entries := by
  unfold touch at h
  split at h
  · next v hv =>
    rcases List.mem_append.1 h with h | h
    · exact List.mem_of_mem_filter h
    · rw [List.mem_singleton.1 h]
      exact mem_of_get? hv
  · exact h

/-- Something is in memory after a chunk was put in only where there is room. -/
theorem mem_of_mem_put {m : Memory} {k : ChunkKey} {v : Text} {e : ChunkKey × Text}
    (h : e ∈ (m.put k v).entries) : 0 ≤ m.capacity ∧ (e = (k, v) ∨ e ∈ m.entries) := by
  refine ⟨?_, ?_⟩
  · have hlength := m.length_put_le k v
    have hpos := List.length_pos_of_mem h
    omega
  · rcases List.mem_append.1 (List.mem_of_mem_drop h) with h | h
    · exact .inr (List.mem_of_mem_filter h)
    · exact .inl (List.mem_singleton.1 h)

theorem capacity_touch (m : Memory) (k : ChunkKey) : (m.touch k).capacity = m.capacity := by
  unfold touch
  split <;> rfl

end Memory

theorem Delivery.flights_append (ts us : List Ticket) :
    flights (ts ++ us) = flights ts ++ flights us := List.filterMap_append

namespace Loader

/-! ### Watching a loader -/

/-- A load that was asked for: what memory had for it, how many resets there had been, and
    the ticket that was given. -/
structure Load where
  key : ChunkKey
  remembered : Option Text
  resets : Nat
  ticket : Ticket

/-- A loader, and what was written down about it. -/
structure Watch where
  loader : Loader
  resets : Nat
  /-- The flights that were started, each with the number of resets before it. -/
  fetches : List (Flight × Nat)
  /-- The replies that flights landed with, by the number of the flight. -/
  replies : List (Nat × Except Failure Reply)
  /-- What the flights that landed gave. -/
  landed : List (Nat × Except Failure Text)
  loads : List Load

/-- What may happen to a loader. -/
inductive Event where
  | load (key : ChunkKey)
  | reset
  | finish (number : Nat) (reply : Except Failure Reply)

namespace Watch

def new (capacity : Int) : Watch := ⟨.new capacity, 0, [], [], [], []⟩

/-- The watch after one more event; only a flight that is under way can land. -/
def step (w : Watch) : Event → Watch
  | .load k =>
    let asked := w.loader.request k
    { w with
      loader := asked.2
      fetches := w.fetches ++ (Delivery.flights [asked.1]).map fun f => (f, w.resets)
      loads := w.loads ++ [⟨k, w.loader.cached? k, w.resets, asked.1⟩] }
  | .reset => { w with loader := w.loader.reset, resets := w.resets + 1 }
  | .finish n reply =>
    match w.loader.flights.find? fun f => f.number == n with
    | none => w
    | some f =>
      let landing := w.loader.land f reply
      { w with
        loader := landing.2
        replies := w.replies ++ [(n, reply)]
        landed := w.landed ++ [(n, landing.1.outcome)] }

def run (capacity : Int) (events : List Event) : Watch := events.foldl step (new capacity)

/-- The flight has landed, and this is what it gave. -/
def Gave (w : Watch) (f : Flight) (x : Except Failure Text) : Prop := w.landed.lookup f.number = some x

/-- The flight was started since the last reset, and has not landed. -/
def Current (w : Watch) (f : Flight) : Prop :=
  (f, w.resets) ∈ w.fetches ∧ w.landed.lookup f.number = none

end Watch

/-- The load is fed by the flight: the flight is for the same chunk, no reset came between
    them, and the load was given from memory what the flight had brought, or it waits for
    the flight and gets what that gives. -/
structure Load.FedBy (x : Load) (w : Watch) (f : Flight) : Prop where
  key : f.key = x.key
  since : (f, x.resets) ∈ w.fetches
  remembered : ∀ content, x.remembered = some content →
    x.ticket = .ready content ∧ w.Gave f (.ok content)
  waiting : x.remembered = none → x.ticket = .started f ∨ x.ticket = .joined f.number
  answer : ∀ given, w.Gave f given → Delivery.outcome w.landed x.ticket = given

/-- What always holds of a watched loader. -/
structure Coherent (w : Watch) : Prop where
  /-- Flights have different numbers, and land at most once. -/
  numbers : (w.fetches.map fun x => x.1.number).Nodup
  once : (w.landed.map Prod.fst).Nodup
  /-- The flights under way are those that were started and have not landed. -/
  flights : ∀ f, f ∈ w.loader.flights ↔
    (∃ resets, (f, resets) ∈ w.fetches) ∧ w.landed.lookup f.number = none
  /-- There is at most one current flight for a chunk. -/
  single : ∀ f g, w.Current f → w.Current g → f.key = g.key → f = g
  /-- The current flights are those that are pending. -/
  pending : ∀ k n, (k, n) ∈ w.loader.pending ↔ ∃ f, w.Current f ∧ f.key = k ∧ f.number = n
  /-- What is in memory was brought by a flight that was started since the last reset. -/
  memory : ∀ e ∈ w.loader.memory.entries,
    ∃ f, (f, w.resets) ∈ w.fetches ∧ f.key = e.1 ∧ w.Gave f (.ok e.2)
  /-- Flights give what their calls replied. -/
  replied : 0 ≤ w.loader.memory.capacity → w.landed = w.replies.map fun x => (x.1, Reply.given x.2)
  /-- Every flight was started by one load. -/
  started : w.fetches.map Prod.fst = Delivery.flights (w.loads.map Load.ticket)
  /-- Every load is fed by a flight. -/
  fed : ∀ x ∈ w.loads, ∃ f, x.FedBy w f

/-- What carries `Coherent` from event to event: how the loader counts. -/
structure Counted (w : Watch) : Prop extends Coherent w where
  generation : w.loader.generation = w.resets
  stamped : ∀ x ∈ w.fetches,
    x.1.number < w.loader.started ∧ x.1.generation = x.2 ∧ x.2 ≤ w.resets
  below : ∀ x ∈ w.landed, x.1 < w.loader.started

/-! ### What an event does -/

/-- The flight that a load starts if the chunk is neither in memory nor on its way. -/
def next (l : Loader) (k : ChunkKey) : Flight := ⟨l.started, k, l.generation⟩

/-- The loader with this flight under way. -/
def launch (l : Loader) (k : ChunkKey) : Loader :=
  { l with
    pending := (k, l.started) :: l.pending
    flights := l.flights ++ [l.next k]
    started := l.started + 1 }

theorem request_cases (l : Loader) (k : ChunkKey) :
    (∃ content, l.cached? k = some content ∧
      l.request k = (.ready content, { l with memory := l.memory.touch k })) ∨
    (l.cached? k = none ∧ ∃ n, l.pending.lookup k = some n ∧ l.request k = (.joined n, l)) ∨
    (l.cached? k = none ∧ l.pending.lookup k = none ∧
      l.request k = (.started (l.next k), l.launch k)) := by
  unfold request cached?
  cases hmemory : l.memory.get? k with
  | some content => exact .inl ⟨content, rfl, rfl⟩
  | none =>
    cases hpending : l.pending.lookup k with
    | some n => exact .inr (.inl ⟨rfl, n, rfl, rfl⟩)
    | none => exact .inr (.inr ⟨rfl, rfl, rfl⟩)

/-- Memory takes what a flight brought only if there was no reset since the flight started. -/
theorem land_snd (l : Loader) (f : Flight) (reply : Except Failure Reply) :
    ∃ memory, (l.land f reply).2 = { l.leave f with memory } ∧ memory.capacity = l.memory.capacity ∧
      ∀ e ∈ memory.entries, e ∈ l.memory.entries ∨
        e.1 = f.key ∧ f.generation = l.generation ∧ (l.land f reply).1.outcome = .ok e.2 := by
  simp only [land]
  split
  · exact ⟨l.memory, rfl, rfl, fun e he => .inl he⟩
  · exact ⟨l.memory, rfl, rfl, fun e he => .inl he⟩
  · next content hcontent =>
    split
    · exact ⟨l.memory, rfl, rfl, fun e he => .inl he⟩
    · next hgeneration =>
      refine ⟨l.memory.put f.key content, by split <;> rfl, rfl, fun e he => ?_⟩
      obtain ⟨hroom, rfl | he⟩ := Memory.mem_of_mem_put he
      · have hroom : ¬ ((l.leave f).memory.put f.key content).capacity < 0 := Int.not_lt.2 hroom
        exact .inr ⟨rfl, not_not.1 hgeneration, by rw [if_neg hroom]⟩
      · exact .inl he

theorem outcome_land (l : Loader) (f : Flight) (reply : Except Failure Reply)
    (hcapacity : 0 ≤ l.memory.capacity) : (l.land f reply).1.outcome = Reply.given reply := by
  simp only [land, Reply.given]
  split
  · next e he => rw [he]; rfl
  · next he => rw [he]; rfl
  · next content hcontent =>
    rw [hcontent]
    split
    · rfl
    · have hroom : ¬ ((l.leave f).memory.put f.key content).capacity < 0 := Int.not_lt.2 hcapacity
      rw [if_neg hroom]
      rfl

/-! ### Loads that are fed -/

theorem Load.FedBy.of {x : Load} {w : Watch} {f : Flight} (hkey : f.key = x.key)
    (hsince : (f, x.resets) ∈ w.fetches)
    (hremembered : ∀ content, x.remembered = some content →
      x.ticket = .ready content ∧ w.Gave f (.ok content))
    (hwaiting : x.remembered = none → x.ticket = .started f ∨ x.ticket = .joined f.number) :
    x.FedBy w f := by
  refine ⟨hkey, hsince, hremembered, hwaiting, fun given hgiven => ?_⟩
  cases hx : x.remembered with
  | some content =>
    obtain ⟨hticket, hgave⟩ := hremembered content hx
    rw [hticket]
    exact Option.some.inj (hgave.symm.trans hgiven)
  | none =>
    simp only [Watch.Gave] at hgiven
    rcases hwaiting hx with hticket | hticket
    · simp [hticket, Delivery.outcome, hgiven]
    · simp [hticket, Delivery.outcome, hgiven]

theorem Load.FedBy.mono {x : Load} {w w' : Watch} {f : Flight} (h : x.FedBy w f)
    (hfetches : w.fetches ⊆ w'.fetches) (hlanded : ∀ given, w.Gave f given → w'.Gave f given) :
    x.FedBy w' f :=
  .of h.key (hfetches h.since) (fun content hx => ⟨(h.remembered content hx).1,
    hlanded _ (h.remembered content hx).2⟩) h.waiting

/-! ### Every event keeps the loader coherent -/

variable {w : Watch} {f g : Flight} {k : ChunkKey}

theorem Coherent.eq_of_number (h : Coherent w) {m n : Nat} (hf : (f, m) ∈ w.fetches)
    (hg : (g, n) ∈ w.fetches) (hnumber : f.number = g.number) : f = g ∧ m = n :=
  Prod.mk.inj (List.inj_on_of_nodup_map h.numbers hf hg hnumber)

theorem counted_new (capacity : Int) : Counted (.new capacity) where
  numbers := List.nodup_nil
  once := List.nodup_nil
  flights f := by simp [Watch.new, Loader.new]
  single f g hf := by simp [Watch.Current, Watch.new] at hf
  pending k n := by simp [Watch.Current, Watch.new, Loader.new]
  memory := by simp [Watch.new, Loader.new, Memory.empty]
  replied _ := rfl
  started := rfl
  fed := by simp [Watch.new]
  generation := rfl
  stamped := by simp [Watch.new]
  below := by simp [Watch.new]

theorem Counted.reset (h : Counted w) : Counted (w.step .reset) where
  numbers := h.numbers
  once := h.once
  flights := h.flights
  single f g hf := by
    have hstamp : w.resets + 1 ≤ w.resets := (h.stamped _ hf.1).2.2
    omega
  pending k n := by
    simp only [Watch.step, Loader.reset, List.not_mem_nil, false_iff]
    rintro ⟨f, hf, -⟩
    have hstamp : w.resets + 1 ≤ w.resets := (h.stamped _ hf.1).2.2
    omega
  memory := by simp [Watch.step, Loader.reset, Memory.clear]
  replied := h.replied
  started := h.started
  fed x hx := by
    obtain ⟨f, hf⟩ := h.fed x hx
    exact ⟨f, hf.mono (List.Subset.refl _) fun _ => id⟩
  generation := congrArg (· + 1) h.generation
  stamped x hx := by
    obtain ⟨hnumber, hgeneration, hle⟩ := h.stamped x hx
    exact ⟨hnumber, hgeneration, Nat.le_succ_of_le hle⟩
  below := h.below

/-- A load that is given its chunk from memory, or joins a flight, starts none. -/
theorem Counted.load_of_known (h : Counted w) {ticket : Ticket} {memory : Memory}
    (hrequest : w.loader.request k = (ticket, { w.loader with memory }))
    (hticket : Delivery.flights [ticket] = [])
    (hmemory : ∀ e ∈ memory.entries, e ∈ w.loader.memory.entries)
    (hcapacity : memory.capacity = w.loader.memory.capacity)
    (hfed : ∃ f, (Load.mk k (w.loader.cached? k) w.resets ticket).FedBy w f) :
    Counted (w.step (.load k)) := by
  have hstep : w.step (.load k) =
      { w with
        loader := { w.loader with memory }
        loads := w.loads ++ [⟨k, w.loader.cached? k, w.resets, ticket⟩] } := by
    simp [Watch.step, hrequest, hticket]
  rw [hstep]
  refine ⟨⟨h.numbers, h.once, h.flights, h.single, h.pending, ?_, ?_, ?_, ?_⟩, h.generation,
    h.stamped, h.below⟩
  · exact fun e he => h.memory e (hmemory e he)
  · exact fun hroom => h.replied (hcapacity ▸ hroom)
  · rw [List.map_append, List.map_singleton, Delivery.flights_append, hticket, List.append_nil]
    exact h.started
  · intro x hx
    rcases List.mem_append.1 hx with hx | hx
    · obtain ⟨f, hf⟩ := h.fed x hx
      exact ⟨f, hf.mono (List.Subset.refl _) fun _ => id⟩
    · obtain ⟨f, hf⟩ := hfed
      rw [List.mem_singleton.1 hx]
      exact ⟨f, hf.mono (List.Subset.refl _) fun _ => id⟩

/-! ### A flight starts -/

/-- The watch after a load that started a flight. -/
def Watch.launched (w : Watch) (k : ChunkKey) : Watch :=
  { w with
    loader := w.loader.launch k
    fetches := w.fetches ++ [(w.loader.next k, w.resets)]
    loads := w.loads ++ [⟨k, none, w.resets, .started (w.loader.next k)⟩] }

theorem Watch.step_load_new (hcached : w.loader.cached? k = none)
    (hrequest : w.loader.request k = (.started (w.loader.next k), w.loader.launch k)) :
    w.step (.load k) = w.launched k := by
  simp [Watch.step, hrequest, hcached, Delivery.flights, Watch.launched]

theorem Watch.mem_fetches_launched {m : Nat} :
    (g, m) ∈ (w.launched k).fetches ↔ (g, m) ∈ w.fetches ∨ g = w.loader.next k ∧ m = w.resets := by
  simp [Watch.launched]

theorem Watch.fetches_subset_launched (w : Watch) (k : ChunkKey) : w.fetches ⊆ (w.launched k).fetches :=
  List.subset_append_left _ _

/-- The number of the flight that a load starts is new. -/
theorem Counted.number_ne_next (h : Counted w) (k : ChunkKey) {x : Flight × Nat} (hx : x ∈ w.fetches) :
    x.1.number ≠ (w.loader.next k).number :=
  Nat.ne_of_lt (h.stamped x hx).1

theorem Counted.lookup_next (h : Counted w) (k : ChunkKey) :
    w.landed.lookup (w.loader.next k).number = none := by
  rw [List.lookup_eq_none_iff]
  intro x hx
  exact bne_iff_ne.2 (Nat.ne_of_gt (h.below x hx))

theorem Counted.current_launched (h : Counted w) :
    (w.launched k).Current g ↔ w.Current g ∨ g = w.loader.next k := by
  constructor
  · rintro ⟨hg, hlanded⟩
    rcases Watch.mem_fetches_launched.1 hg with hg | ⟨rfl, -⟩
    · exact .inl ⟨hg, hlanded⟩
    · exact .inr rfl
  · rintro (⟨hg, hlanded⟩ | rfl)
    · exact ⟨w.fetches_subset_launched k hg, hlanded⟩
    · exact ⟨Watch.mem_fetches_launched.2 (.inr ⟨rfl, rfl⟩), h.lookup_next k⟩

/-- There is no current flight for a chunk that no load could join. -/
theorem Coherent.key_ne_of_current (h : Coherent w) (hpending : w.loader.pending.lookup k = none)
    (hg : w.Current g) : g.key ≠ k := by
  rintro rfl
  have hne := List.lookup_eq_none_iff.1 hpending _ ((h.pending g.key g.number).2 ⟨g, hg, rfl, rfl⟩)
  simp at hne

/-- A load of a chunk that is neither in memory nor on its way starts a flight. -/
theorem Counted.launched (h : Counted w) (hpending : w.loader.pending.lookup k = none) :
    Counted (w.launched k) := by
  refine ⟨⟨?numbers, h.once, ?flights, ?single, ?pending, ?memory, h.replied, ?started, ?fed⟩,
    h.generation, ?stamped, ?below⟩
  case numbers =>
    rw [Watch.launched, List.map_append, List.nodup_append]
    refine ⟨h.numbers, List.nodup_singleton _, fun n hn m hm => ?_⟩
    obtain ⟨x, hx, rfl⟩ := List.mem_map.1 hn
    rw [List.map_singleton, List.mem_singleton] at hm
    exact hm ▸ h.number_ne_next k hx
  case flights =>
    intro g
    change g ∈ w.loader.flights ++ [w.loader.next k] ↔ _
    rw [List.mem_append, List.mem_singleton, h.flights]
    constructor
    · rintro (⟨⟨m, hm⟩, hlanded⟩ | rfl)
      · exact ⟨⟨m, w.fetches_subset_launched k hm⟩, hlanded⟩
      · exact ⟨⟨_, Watch.mem_fetches_launched.2 (.inr ⟨rfl, rfl⟩)⟩, h.lookup_next k⟩
    · rintro ⟨⟨m, hm⟩, hlanded⟩
      rcases Watch.mem_fetches_launched.1 hm with hm | ⟨rfl, -⟩
      · exact .inl ⟨⟨m, hm⟩, hlanded⟩
      · exact .inr rfl
  case single =>
    intro g g' hg hg' hkey
    rcases h.current_launched.1 hg with hg | rfl
    · rcases h.current_launched.1 hg' with hg' | rfl
      · exact h.single g g' hg hg' hkey
      · exact absurd hkey (h.key_ne_of_current hpending hg)
    · rcases h.current_launched.1 hg' with hg' | rfl
      · exact absurd hkey.symm (h.key_ne_of_current hpending hg')
      · rfl
  case pending =>
    intro k' n
    change (k', n) ∈ (k, w.loader.started) :: w.loader.pending ↔ _
    rw [List.mem_cons, h.pending]
    simp only [h.current_launched]
    constructor
    · rintro (heq | ⟨g, hg, hkey, hnumber⟩)
      · obtain ⟨rfl, rfl⟩ := Prod.mk.inj heq
        exact ⟨_, .inr rfl, rfl, rfl⟩
      · exact ⟨g, .inl hg, hkey, hnumber⟩
    · rintro ⟨g, hg | rfl, rfl, rfl⟩
      · exact .inr ⟨g, hg, rfl, rfl⟩
      · exact .inl rfl
  case memory =>
    intro e he
    obtain ⟨g, hg, hkey, hgave⟩ := h.memory e he
    exact ⟨g, w.fetches_subset_launched k hg, hkey, hgave⟩
  case started =>
    rw [Watch.launched, List.map_append, List.map_append, Delivery.flights_append, h.started]
    rfl
  case fed =>
    intro x hx
    rcases List.mem_append.1 hx with hx | hx
    · obtain ⟨g, hg⟩ := h.fed x hx
      exact ⟨g, hg.mono (w.fetches_subset_launched k) fun _ => id⟩
    · rw [List.mem_singleton.1 hx]
      exact ⟨_, .of rfl (Watch.mem_fetches_launched.2 (.inr ⟨rfl, rfl⟩)) nofun fun _ => .inl rfl⟩
  case stamped =>
    rintro ⟨g, m⟩ hg
    rcases Watch.mem_fetches_launched.1 hg with hg | ⟨rfl, rfl⟩
    · obtain ⟨hnumber, hgeneration, hle⟩ := h.stamped _ hg
      exact ⟨Nat.lt_succ_of_lt hnumber, hgeneration, hle⟩
    · exact ⟨Nat.lt_succ_self _, h.generation, Nat.le_refl _⟩
  case below => exact fun x hx => Nat.lt_succ_of_lt (h.below x hx)

theorem Counted.load (h : Counted w) (k : ChunkKey) : Counted (w.step (.load k)) := by
  rcases request_cases w.loader k with ⟨content, hcached, hrequest⟩ | ⟨hcached, n, hpending, hrequest⟩ |
    ⟨hcached, hpending, hrequest⟩
  · refine h.load_of_known hrequest rfl (fun e => Memory.mem_of_mem_touch) (Memory.capacity_touch _ _) ?_
    obtain ⟨f, hf, hkey, hgave⟩ := h.memory _ (Memory.mem_of_get? hcached)
    refine ⟨f, .of hkey hf (fun content' hx => ?_) fun hx => ?_⟩
    · obtain rfl : content = content' := Option.some.inj (hcached.symm.trans hx)
      exact ⟨rfl, hgave⟩
    · exact absurd (hcached.symm.trans hx) (by simp)
  · refine h.load_of_known hrequest rfl (fun e => id) rfl ?_
    obtain ⟨f, hf, hkey, rfl⟩ := (h.pending k n).1 (mem_of_lookup hpending)
    refine ⟨f, .of hkey hf.1 (fun content hx => ?_) fun _ => .inr rfl⟩
    exact absurd (hcached.symm.trans hx) (by simp)
  · rw [Watch.step_load_new hcached hrequest]
    exact h.launched hpending

/-! ### A flight lands -/

/-- The watch after the landing of a flight with a reply. -/
def Watch.landing (w : Watch) (f : Flight) (reply : Except Failure Reply) : Watch :=
  { w with
    loader := (w.loader.land f reply).2
    replies := w.replies ++ [(f.number, reply)]
    landed := w.landed ++ [(f.number, (w.loader.land f reply).1.outcome)] }

section

variable {reply : Except Failure Reply}

theorem Watch.lookup_landing (n : Nat) : (w.landing f reply).landed.lookup n =
    (w.landed.lookup n).or (if n = f.number then some (w.loader.land f reply).1.outcome else none) := by
  by_cases hn : n = f.number
  · simp [Watch.landing, List.lookup_append, hn]
  · simp [Watch.landing, List.lookup_append, List.lookup_cons, hn, beq_false_of_ne hn]

theorem Watch.Gave.landing {given : Except Failure Text} (h : w.Gave g given) :
    (w.landing f reply).Gave g given := by
  rw [Watch.Gave] at h ⊢
  rw [Watch.lookup_landing, h]
  rfl

theorem Watch.gave_landing_self (h : w.landed.lookup f.number = none) :
    (w.landing f reply).Gave f (w.loader.land f reply).1.outcome := by
  rw [Watch.Gave, Watch.lookup_landing, h, if_pos rfl]
  rfl

/-- The flights that have not landed are those that had not, without the one that lands. -/
theorem Watch.lookup_landing_eq_none : (w.landing f reply).landed.lookup g.number = none ↔
    w.landed.lookup g.number = none ∧ g.number ≠ f.number := by
  rw [Watch.lookup_landing]
  by_cases hg : g.number = f.number
  · simp [hg]
  · simp [hg]

theorem Watch.current_landing :
    (w.landing f reply).Current g ↔ w.Current g ∧ g.number ≠ f.number := by
  rw [Watch.Current, Watch.lookup_landing_eq_none, Watch.Current, and_assoc]
  rfl

theorem Counted.landing (h : Counted w) (hf : f ∈ w.loader.flights) (reply : Except Failure Reply) :
    Counted (w.landing f reply) := by
  obtain ⟨⟨m, hfetched⟩, hnone⟩ := (h.flights f).1 hf
  obtain ⟨memory, hloader, hcapacity, hmemory⟩ := land_snd w.loader f reply
  have hafter : (w.landing f reply).loader = { w.loader.leave f with memory } := hloader
  refine ⟨⟨h.numbers, ?once, ?flights, ?single, ?pending, ?memory, ?replied, h.started, ?fed⟩,
    ?generation, ?stamped, ?below⟩
  case once =>
    rw [Watch.landing, List.map_append, List.nodup_append]
    refine ⟨h.once, List.nodup_singleton _, fun i hi j hj => ?_⟩
    obtain ⟨x, hx, rfl⟩ := List.mem_map.1 hi
    rw [List.map_singleton, List.mem_singleton] at hj
    exact hj ▸ (bne_iff_ne.1 (List.lookup_eq_none_iff.1 hnone x hx)).symm
  case flights =>
    intro g
    have hleft : g ∈ (w.landing f reply).loader.flights ↔
        g ∈ w.loader.flights ∧ g.number ≠ f.number := by
      rw [hafter]
      exact List.mem_filter.trans (and_congr_right' decide_eq_true_iff)
    rw [hleft, h.flights, Watch.lookup_landing_eq_none, and_assoc]
    rfl
  case single =>
    intro g g' hg hg' hkey
    exact h.single g g' (Watch.current_landing.1 hg).1 (Watch.current_landing.1 hg').1 hkey
  case pending =>
    intro k n
    have hleft : (k, n) ∈ (w.landing f reply).loader.pending ↔
        (k, n) ∈ w.loader.pending ∧ (k, n) ≠ (f.key, f.number) := by
      rw [hafter]
      exact List.mem_filter.trans (and_congr_right' decide_eq_true_iff)
    rw [hleft, h.pending]
    simp only [Watch.current_landing]
    constructor
    · rintro ⟨⟨g, hg, rfl, rfl⟩, hne⟩
      refine ⟨g, ⟨hg, fun hnumber => ?_⟩, rfl, rfl⟩
      obtain ⟨rfl, -⟩ := h.eq_of_number hg.1 hfetched hnumber
      exact hne rfl
    · rintro ⟨g, ⟨hg, hne⟩, rfl, rfl⟩
      exact ⟨⟨g, hg, rfl, rfl⟩, fun heq => hne (congrArg Prod.snd heq)⟩
  case memory =>
    intro e he
    rw [hafter] at he
    rcases hmemory e he with he | ⟨hkey, hgeneration, houtcome⟩
    · obtain ⟨g, hg, hkey, hgave⟩ := h.memory e he
      exact ⟨g, hg, hkey, hgave.landing⟩
    · -- the generation of the flight is that of the loader, so no reset came in between
      obtain rfl : m = w.resets := by
        have hstamp : f.generation = m := (h.stamped _ hfetched).2.1
        rw [← hstamp, hgeneration, h.generation]
      exact ⟨f, hfetched, hkey.symm, houtcome ▸ Watch.gave_landing_self hnone⟩
  case replied =>
    intro hroom
    rw [hafter, hcapacity] at hroom
    simp only [Watch.landing, List.map_append, List.map_singleton, h.replied hroom,
      outcome_land w.loader f reply hroom]
  case fed =>
    intro x hx
    obtain ⟨g, hg⟩ := h.fed x hx
    exact ⟨g, hg.mono (List.Subset.refl _) fun _ => Watch.Gave.landing⟩
  case generation =>
    rw [hafter]
    exact h.generation
  case stamped =>
    rw [hafter]
    exact h.stamped
  case below =>
    intro x hx
    rw [hafter]
    rcases List.mem_append.1 hx with hx | hx
    · exact h.below x hx
    · rw [List.mem_singleton.1 hx]
      exact (h.stamped _ hfetched).1

theorem Counted.finish (h : Counted w) (n : Nat) (reply : Except Failure Reply) :
    Counted (w.step (.finish n reply)) := by
  cases hfind : w.loader.flights.find? fun f => f.number == n with
  | none =>
    have hstep : w.step (.finish n reply) = w := by simp [Watch.step, hfind]
    rwa [hstep]
  | some f =>
    obtain rfl : f.number = n := by simpa using List.find?_some hfind
    have hstep : w.step (.finish f.number reply) = w.landing f reply := by
      simp [Watch.step, hfind, Watch.landing]
    rw [hstep]
    exact h.landing (List.mem_of_find?_eq_some hfind) reply

end

/-! ### Runs -/

theorem Counted.step (h : Counted w) (e : Event) : Counted (w.step e) := by
  cases e with
  | load k => exact h.load k
  | reset => exact h.reset
  | finish n reply => exact h.finish n reply

theorem counted_run (capacity : Int) (events : List Event) : Counted (.run capacity events) := by
  induction events using List.reverseRecOn with
  | nil => exact counted_new capacity
  | append_singleton events e ih =>
    rw [Watch.run, List.foldl_append]
    exact ih.step e

/-- However loads, landings and resets follow one another, at every point the flights that are
    pending are the current ones, one for a chunk at most; memory holds what current flights
    brought; and every load is fed by one flight for its chunk, started since the last reset
    before the load. -/
theorem coherent_run (capacity : Int) (events : List Event) : Coherent (.run capacity events) :=
  (counted_run capacity events).toCoherent

end Loader
end PageAssembly
