/-
  PageAssembly/Proofs/Site/Store.lean
  ===================================
  **A site answers for the chunks of a contract by a store.**

  The files of a site do not change, so the calls for chunks give the same at any time: the
  file of the chunk, nothing, or a failure where the contract has no directory (`serves_host`).
  A call for a page gives the page or fails as remote calls do (`content_page`).
-/
import PageAssembly.Proofs.Chunk.Delivering
import PageAssembly.Site.Host

namespace PageAssembly.Site

/-- Whether the contract has a directory. -/
def Holds (site : Site) (contract : Text) : Prop :=
  isContractName contract = true ∧ (site.tree.folderPath? site.root [contract]).isSome = true

instance (site : Site) (contract : Text) : Decidable (site.Holds contract) :=
  inferInstanceAs (Decidable (_ ∧ _))

/-- The chunks of a contract, as the site's files have them. -/
def store (site : Site) (contract : Text) : Store := fun k =>
  if site.Holds contract then
    .ok ((site.tree.readPath? site.root
      [contract, "chunks".toList, k.collection, Text.decimalInt k.index ++ ".md".toList]).map Text.Utf8.decode)
  else .error ⟨contract, some "get_chunk".toList, "Contract not found: ".toList ++ contract⟩

/-- The counts of a contract's collection, where they can be read. -/
def known (site : Site) (contract collection : Text) : Option ChunkCounts :=
  match site.answer (Host.countsCall contract collection) with
  | .ok r => ChunkCounts.ofReply? r
  | .error _ => none

section

variable {site : Site} {contract : Text}

theorem contractPath_of_holds (h : site.Holds contract) (function : Text) :
    site.contractPath contract function = .ok [contract] := by
  rw [contractPath, if_pos]
  rw [Bool.and_eq_true]
  exact h

theorem contractPath_of_not_holds (h : ¬ site.Holds contract) (function : Text) :
    site.contractPath contract function =
      .error (.remote ⟨contract, some function, "Contract not found: ".toList ++ contract⟩) := by
  rw [contractPath, if_neg]
  rw [Bool.and_eq_true]
  exact h

theorem content?_fileReply (bs : Option (List UInt8)) :
    (fileReply bs).content? = .ok (bs.map Text.Utf8.decode) := by
  cases bs <;> rfl

theorem answer_chunk (site : Site) (contract : Text) (k : ChunkKey) :
    (site.answer (Host.chunkCall contract k.collection k.index)).bind Reply.content? =
      (site.store contract k).mapError .remote := by
  have hanswer : site.answer (Host.chunkCall contract k.collection k.index) =
      (site.contractPath contract "get_chunk".toList).bind fun path =>
        .ok (fileReply (site.tree.readPath? site.root
          (path ++ ["chunks".toList, k.collection, Text.decimalInt k.index ++ ".md".toList]))) := rfl
  rw [hanswer, store]
  split
  · next h =>
    rw [contractPath_of_holds h]
    exact content?_fileReply _
  · next h =>
    rw [contractPath_of_not_holds h]
    rfl

theorem answer_counts (site : Site) (contract collection : Text) :
    (∃ r, site.answer (Host.countsCall contract collection) = .ok r) ∨
      ∃ e, site.answer (Host.countsCall contract collection) = .error (.remote e) := by
  have hanswer : site.answer (Host.countsCall contract collection) =
      (site.contractPath contract "get_chunk_meta".toList).bind fun path =>
        site.countsReply path (.positional [.symbol collection]) := rfl
  rw [hanswer]
  by_cases h : site.Holds contract
  · rw [contractPath_of_holds h]
    left
    change ∃ r, site.countsReply [contract] (.positional [.symbol collection]) = .ok r
    simp only [countsReply, argument, collectionOf, bind, Except.bind, List.getElem?_cons_zero]
    split
    · exact ⟨_, rfl⟩
    · exact ⟨_, rfl⟩
  · rw [contractPath_of_not_holds h]
    exact .inr ⟨_, rfl⟩

/-- A site serves the chunks of a contract from its files. -/
theorem serves_host {env : Delivery.Setting Unit} (hhost : env.host = site.host) :
    Delivery.Serves env (site.store env.contract) (site.known env.contract) where
  chunk k world := by
    rw [hhost]
    exact answer_chunk site env.contract k
  counts collection x := by
    have hcounts : (site.host.chunkCounts env.contract collection x).1 =
        (site.answer (Host.countsCall env.contract collection)).map ChunkCounts.ofReply? := rfl
    rw [hhost, hcounts, known]
    rcases answer_counts site env.contract collection with ⟨r, hr⟩ | ⟨e, he⟩
    · rw [hr]
      exact .inl rfl
    · rw [he]
      exact .inr ⟨rfl, e, rfl⟩

/-! ### Pages -/

/-- A call for a page is one for no chunk and for no counts. -/
structure ForPage (call : Call) : Prop where
  chunk : functionOf call ≠ "get_chunk".toList
  counts : functionOf call ≠ "get_chunk_meta".toList

theorem answer_page {call : Call} (h : ForPage call) :
    site.answer call = (site.contractPath call.target (functionOf call)).bind fun path =>
      site.page path call (functionOf call) := by
  have hanswer : site.answer call = (site.contractPath call.target (functionOf call)).bind fun path =>
      if functionOf call = "get_chunk".toList then site.chunkReply path call.arguments
      else if functionOf call = "get_chunk_meta".toList then site.countsReply path call.arguments
      else site.page path call (functionOf call) := rfl
  rw [hanswer]
  simp only [if_neg h.chunk, if_neg h.counts]

/-- A page of a site is there, or the call for it fails. -/
theorem content_page (site : Site) {call : Call} (h : ForPage call) :
    (∃ t, Host.content call (site.answer call) = .ok t ∧ site.Holds call.target) ∨
      ∃ e, Host.content call (site.answer call) = .error (.remote e) := by
  rw [answer_page h]
  by_cases hholds : site.Holds call.target
  · rw [contractPath_of_holds hholds]
    change (∃ t, Host.content call (site.page [call.target] call (functionOf call)) = .ok t ∧ _) ∨
      ∃ e, Host.content call (site.page [call.target] call (functionOf call)) = .error (.remote e)
    unfold page
    split
    · exact .inl ⟨_, rfl, hholds⟩
    · exact .inr ⟨_, rfl⟩
  · rw [contractPath_of_not_holds hholds]
    exact .inr ⟨_, rfl⟩

end

end PageAssembly.Site
