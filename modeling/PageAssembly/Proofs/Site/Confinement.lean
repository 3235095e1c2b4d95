/-
  PageAssembly/Proofs/Site/Confinement.lean
  =========================================
  **A site serves a contract from the contract's directory.**

  Four texts that a page chooses go into the path of a file: the name of a contract, the
  name of a function, a render path and the name of a collection.  The name of a contract
  is checked, and so is a render path; the other two are joined as they are.

  A call is `Contained` if its texts do not climb: the contract is not a dot or two, and
  neither the function's name nor the collection's ever leads above the contract's directory.
  For the contained calls of a page's directives the files that are looked at lie below
  this directory, which is an entry of the root; the answer is the one that the site gives
  with nothing but this directory in it; and it is a file, counts, nothing, or a failure of
  the remote kind (`answer_confined`).  What other calls can reach is `answer_escapes`.
-/
import PageAssembly.Inclusion.Resolution
import PageAssembly.Proofs.Site.Names
import PageAssembly.Proofs.Verbatim.Signs
import PageAssembly.Site.Host
import PageAssembly.Waterfall.Run

namespace PageAssembly

open FileTree (components isAbsolute climb)

/-! ### Calls of directives -/

/-- The calls that the directives of a page can make: for the page that an include names, for
    a chunk or the counts of a collection, and for the page at a render path. -/
inductive Call.OfDirective : Call → Prop
  | inclusion (p : Resolution.Planned) (viewer : Option Text) (aliases : Aliases) :
      OfDirective (p.call viewer aliases)
  | chunk (contract collection : Text) (index : Int) :
      OfDirective (Host.chunkCall contract collection index)
  | counts (contract collection : Text) : OfDirective (Host.countsCall contract collection)
  | render (contract : Text) (viewer : Option Text) (path : Text) :
      OfDirective (Waterfall.pageCall contract viewer path)

namespace Site

variable {site : Site} {tree : FileTree} {root : List Text} {call : Call} {target : Text}
  {rest : List Text} {m : Nat}

/-- Whether the call is for a chunk or for counts, and so names a collection. -/
def NamesCollection (call : Call) : Prop :=
  functionOf call = "get_chunk".toList ∨ functionOf call = "get_chunk_meta".toList

/-- No text of the call leads out of the contract's directory: neither the contract's name
    itself, nor the function's below the directory, nor the collection's below `chunks`. -/
structure Contained (call : Call) : Prop where
  target : call.target ≠ ['.'] ∧ call.target ≠ ['.', '.']
  function : (climb 0 (components (functionOf call))).isSome
  collection : NamesCollection call → ∀ c, argument call.arguments 0 = .ok c →
    isAbsolute (collectionOf c) = false ∧ (climb 1 (components (collectionOf c))).isSome

/-! ### The files that are looked at -/

/-- Where a path below the root leads, once its dots are resolved. -/
def place (site : Site) (parts : List Text) : Place :=
  (FileTree.join site.root parts).1.follow (FileTree.join site.root parts).2

/-- The places at which a call looks for a file, or reads or sizes one: that of the chunk; the
    entries of the collection's directory; those of the files that may be the page. -/
inductive Examines (site : Site) (call : Call) : Place → Prop
  | chunk {c : Argument} {n : Int} :
      site.contractPath call.target (functionOf call) = .ok [call.target] →
      functionOf call = "get_chunk".toList → argument call.arguments 0 = .ok c →
      Examines site call (site.place
        [call.target, "chunks".toList, collectionOf c, Text.decimalInt n ++ ".md".toList])
  | counted {c : Argument} {names : List Text} {entry : Text × Nat} :
      site.contractPath call.target (functionOf call) = .ok [call.target] →
      functionOf call = "get_chunk_meta".toList → argument call.arguments 0 = .ok c →
      site.place [call.target, "chunks".toList, collectionOf c] = .inside names →
      entry ∈ site.tree.listing (.inside names) →
      Examines site call (.inside (names ++ [entry.1]))
  | page {parts : List Text} :
      site.contractPath call.target (functionOf call) = .ok [call.target] →
      ¬ NamesCollection call → parts ∈ candidates [call.target] (functionOf call) call.arguments →
      Examines site call (site.place parts)

/-- What a call can be answered by: a file at a place that it looks at, the counts of a
    directory whose entries it looks at, nothing, or a failure of the remote kind. -/
inductive Answered (site : Site) (call : Call) : Except Failure Reply → Prop
  | file {q : Place} {bs : List UInt8} : Examines site call q → site.tree.read? q = some bs →
      Answered site call (.ok (.bytes bs))
  | counts {names : List Text} :
      (∀ entry ∈ site.tree.listing (.inside names), Examines site call (.inside (names ++ [entry.1]))) →
      Answered site call (.ok (.data (countsData (countsOf (site.tree.listing (.inside names))))))
  | nothing : Answered site call (.ok (.data .null))
  | failed (e : RemoteFailure) : Answered site call (.error (.remote e))

/-! ### Names that are checked -/

/-- The name of a contract that is not a dot or two is the name of an entry of the root. -/
theorem isName_of_contractName (h : isContractName target = true)
    (hdots : target ≠ ['.'] ∧ target ≠ ['.', '.']) : IsName target := by
  simp only [isContractName, Bool.and_eq_true, Bool.not_eq_true', List.isEmpty_eq_false_iff,
    List.all_eq_true] at h
  refine ⟨h.1, hdots.1, hdots.2, fun hslash => ?_⟩
  have hchar := h.2 '/' hslash
  revert hchar
  decide

/-- The file of a render path has names only, and one at least. -/
theorem isName_of_pagePath {path : Text} {names : List Text} (h : PagePath.ofPath? path = some names) :
    names ≠ [] ∧ ∀ s ∈ names, IsName s :=
  (PagePath.safe_of_ofPath? h).imp_right fun hsafe s hs => (hsafe s hs).isName

/-! ### Paths in the contract's directory -/

/-- A path below the contract's directory that does not climb out of it, and ends so deep. -/
structure Leads (rest : List Text) (m : Nat) : Prop where
  relative : ∀ part ∈ rest, isAbsolute part = false
  depth : climb 0 (rest.flatMap components) = some m

theorem place_of_leads (tree : FileTree) (root : List Text) (ht : IsName target) (h : Leads rest m) :
    ∃ names, names.length = m ∧
      place ⟨tree, .inside root⟩ (target :: rest) = .inside (root ++ target :: names) := by
  obtain ⟨names, hlength, hfollow⟩ := FileTree.follow_of_climb (root ++ [target]) [] h.depth
  refine ⟨names, hlength, ?_⟩
  have hrelative : ∀ part ∈ target :: rest, isAbsolute part = false :=
    List.forall_mem_cons.2 ⟨FileTree.isAbsolute_name ht, h.relative⟩
  rw [place, FileTree.join_relative _ hrelative, List.flatMap_cons, FileTree.components_name ht,
    List.singleton_append, Place.follow, List.foldl_cons, Place.next_of_ne _ ht.not_parent]
  simpa [Place.follow] using hfollow

theorem find_of_leads (tree : FileTree) (root : List Text) (ht : IsName target) (h : Leads rest m) :
    tree.find (.inside root) (target :: rest) =
      if tree.isFolder (.inside root) then
        tree.walk (.inside (root ++ [target])) (rest.flatMap components)
      else none := by
  have hrelative : ∀ part ∈ target :: rest, isAbsolute part = false :=
    List.forall_mem_cons.2 ⟨FileTree.isAbsolute_name ht, h.relative⟩
  rw [FileTree.find, FileTree.join_relative _ hrelative, List.flatMap_cons,
    FileTree.components_name ht, List.singleton_append, FileTree.walk, FileTree.step_inside,
    Place.next_of_ne _ ht.not_parent]
  split <;> rfl

theorem find_eq_place (site : Site) {parts : List Text} {q : Place} (h : site.tree.find site.root parts = some q) :
    q = site.place parts := FileTree.walk_eq_follow h

/-- What a tree has at the end of such a path is the contract's directory or stands below it. -/
theorem find_inside (ht : IsName target) (h : Leads rest m) {q : Place}
    (hq : tree.find (.inside root) (target :: rest) = some q) :
    ∃ names, q = .inside (root ++ [target] ++ names) := by
  obtain ⟨names, -, hplace⟩ := place_of_leads tree root ht h
  refine ⟨names, ?_⟩
  rw [find_eq_place ⟨tree, .inside root⟩ hq, hplace]
  simp

theorem folderPath?_contract (tree : FileTree) (root : List Text) (ht : IsName target) :
    (tree.folderPath? (.inside root) [target]).isSome = tree.isFolder (.inside (root ++ [target])) := by
  have hleads : Leads [] 0 := ⟨by simp, rfl⟩
  rw [FileTree.folderPath?, find_of_leads tree root ht hleads]
  cases hfolder : tree.isFolder (.inside (root ++ [target])) with
  | true => simp [FileTree.isFolder_parent hfolder, FileTree.walk, hfolder]
  | false => split <;> simp [FileTree.walk, hfolder]

/-- The tree with nothing but the contract's directory finds what the whole tree finds. -/
theorem find_within (ht : IsName target) (hfolder : tree.isFolder (.inside (root ++ [target])) = true)
    (h : Leads rest m) :
    (tree.within (root ++ [target])).find (.inside root) (target :: rest) =
      tree.find (.inside root) (target :: rest) := by
  -- The root itself is a folder of the smaller tree because the contract's directory is in it.
  have hwithin := FileTree.isFolder_within tree (List.concat_ne_nil target root) []
  rw [List.append_nil, hfolder] at hwithin
  rw [find_of_leads _ root ht h, find_of_leads _ root ht h, if_pos (FileTree.isFolder_parent hfolder),
    if_pos (FileTree.isFolder_parent hwithin)]
  have hwalk := FileTree.walk_within tree (List.concat_ne_nil target root) [] h.depth
  rwa [List.append_nil] at hwalk

theorem readPath?_within (ht : IsName target)
    (hfolder : tree.isFolder (.inside (root ++ [target])) = true) (h : Leads rest m) :
    (tree.within (root ++ [target])).readPath? (.inside root) (target :: rest) =
      tree.readPath? (.inside root) (target :: rest) := by
  rw [FileTree.readPath?, FileTree.readPath?, find_within ht hfolder h]
  cases hfind : tree.find (.inside root) (target :: rest) with
  | none => rfl
  | some q =>
    obtain ⟨names, rfl⟩ := find_inside ht h hfind
    exact FileTree.read?_within tree _ names

theorem folderPath?_within (ht : IsName target)
    (hfolder : tree.isFolder (.inside (root ++ [target])) = true) (h : Leads rest m) :
    (tree.within (root ++ [target])).folderPath? (.inside root) (target :: rest) =
      tree.folderPath? (.inside root) (target :: rest) := by
  rw [FileTree.folderPath?, FileTree.folderPath?, find_within ht hfolder h]
  cases hfind : tree.find (.inside root) (target :: rest) with
  | none => rfl
  | some q =>
    obtain ⟨names, rfl⟩ := find_inside ht h hfind
    rw [Option.filter_some, Option.filter_some, FileTree.isFolder_within tree (by simp)]

/-! ### The paths of a contained call -/

theorem leads_collection {collection : Text} (hrelative : isAbsolute collection = false)
    (hdepth : (climb 1 (components collection)).isSome) :
    ∃ m, Leads ["chunks".toList, collection] m := by
  obtain ⟨m, hm⟩ := Option.isSome_iff_exists.1 hdepth
  have hchunks : IsName "chunks".toList := ⟨by decide, by decide, by decide, by decide⟩
  refine ⟨m, ?_, ?_⟩
  · simpa only [List.forall_mem_cons, List.not_mem_nil, false_implies, implies_true, and_true]
      using ⟨FileTree.isAbsolute_name hchunks, hrelative⟩
  · rw [List.flatMap_cons, FileTree.components_name hchunks, List.flatMap_singleton,
      FileTree.climb_append, FileTree.climb_names 0 (by simpa using hchunks)]
    exact hm

/-- Names behind a path lead deeper. -/
theorem Leads.append {names : List Text} (h : Leads rest m) (hnames : ∀ s ∈ names, IsName s) :
    Leads (rest ++ names) (m + names.length) where
  relative part hpart := by
    rcases List.mem_append.1 hpart with hpart | hpart
    · exact h.relative part hpart
    · exact FileTree.isAbsolute_name (hnames part hpart)
  depth := by
    have hself : names.flatMap components = names := by
      rw [List.flatMap_congr fun s hs => FileTree.components_name (hnames s hs)]
      exact List.flatMap_singleton' names
    rw [List.flatMap_append, hself, FileTree.climb_append, h.depth, Option.bind_some,
      FileTree.climb_names m hnames]

theorem isName_index (n : Int) : IsName (Text.decimalInt n ++ ".md".toList) := by
  refine isName_of_page ?_
  intro hmem
  have hfree : ∀ k, '/' ∉ Text.decimal k := fun k hk => absurd (Verbatim.mem_decimal hk) (by decide)
  cases n with
  | ofNat n => exact hfree n hmem
  | negSucc n =>
    rcases List.mem_cons.1 hmem with h | h
    · cases h
    · exact hfree _ h

theorem leads_whole {function : Text} (hrelative : isAbsolute function = false)
    (hdepth : (climb 0 (components function)).isSome) :
    ∃ m, Leads [function ++ ".md".toList] (m + 1) := by
  obtain ⟨init, last, more, hcomponents, hlast, hpage⟩ := FileTree.exists_components_page function
  rw [hcomponents, FileTree.climb_append, Option.isSome_iff_exists] at hdepth
  obtain ⟨n, hn⟩ := hdepth
  obtain ⟨m, hm, -⟩ := Option.bind_eq_some_iff.1 hn
  refine ⟨m, ?_, ?_⟩
  · rw [List.forall_mem_singleton]
    cases function with
    | nil => rfl
    | cons c function => simpa [isAbsolute] using hrelative
  · rw [List.flatMap_singleton, hpage, FileTree.climb_append, hm, Option.bind_some,
      FileTree.climb_names m (by simpa using hlast), List.length_singleton]

theorem leads_candidate {function : Text} {args : Arguments} {parts : List Text}
    (hrelative : isAbsolute function = false) (hdepth : (climb 0 (components function)).isSome)
    (h : parts ∈ candidates [target] function args) :
    ∃ rest m, parts = target :: rest ∧ Leads rest (m + 1) := by
  have hwhole : ∀ q ∈ [[target] ++ [function ++ ".md".toList]],
      ∃ rest m, q = target :: rest ∧ Leads rest (m + 1) := by
    rw [List.forall_mem_singleton]
    obtain ⟨m, hm⟩ := leads_whole hrelative hdepth
    exact ⟨_, m, rfl, hm⟩
  -- A function's own page, and in front of it the page at a render path below the function's name.
  unfold candidates at h
  dsimp only at h
  split at h
  · exact hwhole parts h
  · split at h
    · exact hwhole parts h
    · rcases List.mem_append.1 h with h | h
      · obtain ⟨names, hnames, rfl⟩ := List.mem_map.1 h
        obtain ⟨hne, hname⟩ := isName_of_pagePath (Option.mem_toList.1 hnames)
        obtain ⟨n, hn⟩ := Option.isSome_iff_exists.1 hdepth
        have hfunction : Leads [function] n := ⟨by simpa using hrelative, by simpa using hn⟩
        have hlength : n + names.length = n + names.length - 1 + 1 := by
          have := List.length_pos_iff.2 hne
          omega
        exact ⟨function :: names, _, rfl, hlength ▸ hfunction.append hname⟩
      · exact hwhole parts h

/-! ### The answer to a contained call -/

theorem contractPath_ok {site : Site} {function : Text} {contract : List Text}
    (h : site.contractPath target function = .ok contract) :
    contract = [target] ∧ isContractName target = true ∧
      (site.tree.folderPath? site.root [target]).isSome = true := by
  unfold contractPath at h
  split at h
  · next hfound =>
    cases h
    exact ⟨rfl, Bool.and_eq_true_iff.1 hfound⟩
  · cases h

theorem contractPath_error {site : Site} {function : Text} {e : Failure}
    (h : site.contractPath target function = .error e) : ∃ f, e = .remote f := by
  unfold contractPath at h
  split at h
  · cases h
  · cases h
    exact ⟨_, rfl⟩

theorem contractPath_within (tree : FileTree) (root : List Text)
    (hdots : target ≠ ['.'] ∧ target ≠ ['.', '.']) (function : Text) :
    contractPath ⟨tree.within (root ++ [target]), .inside root⟩ target function =
      contractPath ⟨tree, .inside root⟩ target function := by
  cases hname : isContractName target with
  | false => simp only [contractPath, hname, Bool.false_and]
  | true =>
    have ht := isName_of_contractName hname hdots
    have hfolder := FileTree.isFolder_within tree (List.concat_ne_nil target root) []
    rw [List.append_nil] at hfolder
    simp only [contractPath, folderPath?_contract _ root ht, hfolder]

theorem answer_of_contract {site : Site} {contract : List Text}
    (h : site.contractPath call.target (functionOf call) = .ok contract) :
    site.answer call =
      if functionOf call = "get_chunk".toList then site.chunkReply contract call.arguments
      else if functionOf call = "get_chunk_meta".toList then site.countsReply contract call.arguments
      else site.page contract call (functionOf call) := by
  rw [answer, h]
  rfl

theorem chunkReply_eq {site : Site} {args : Arguments} {c : Argument}
    (hc : argument args 0 = .ok c) (contract : List Text) :
    site.chunkReply contract args =
      (argument args 1 >>= indexOf) >>= fun n => .ok (fileReply (site.tree.readPath? site.root
        (contract ++ ["chunks".toList, collectionOf c] ++ [Text.decimalInt n ++ ".md".toList]))) := by
  rw [chunkReply, hc]
  cases argument args 1 with
  | error e => rfl
  | ok i => simp only [List.append_assoc]; rfl

theorem countsReply_eq {site : Site} {args : Arguments} {c : Argument}
    (hc : argument args 0 = .ok c) (contract : List Text) :
    site.countsReply contract args =
      match site.tree.folderPath? site.root (contract ++ ["chunks".toList, collectionOf c]) with
      | some p => .ok (.data (countsData (countsOf (site.tree.listing p))))
      | none => .ok (.data .null) := by
  rw [countsReply, hc]
  rfl

theorem findSome?_congr {α β : Type} {f g : α → Option β} {xs : List α} (h : ∀ x ∈ xs, f x = g x) :
    xs.findSome? f = xs.findSome? g := by
  induction xs with
  | nil => rfl
  | cons x xs ih =>
    obtain ⟨hx, hxs⟩ := List.forall_mem_cons.1 h
    rw [List.findSome?_cons, List.findSome?_cons, hx, ih hxs]

theorem leads_chunk {collection : Text} (hrelative : isAbsolute collection = false)
    (hdepth : (climb 1 (components collection)).isSome) (n : Int) :
    ∃ m, Leads (["chunks".toList, collection] ++ [Text.decimalInt n ++ ".md".toList]) (m + 1) := by
  obtain ⟨m, hm⟩ := leads_collection hrelative hdepth
  refine ⟨m, hm.append ?_⟩
  rw [List.forall_mem_singleton]
  exact isName_index n

theorem chunkReply_within (h : Contained call) (ht : IsName call.target)
    (hfolder : tree.isFolder (.inside (root ++ [call.target])) = true) (hchunk : functionOf call = "get_chunk".toList) :
    chunkReply ⟨tree.within (root ++ [call.target]), .inside root⟩ [call.target] call.arguments =
      chunkReply ⟨tree, .inside root⟩ [call.target] call.arguments := by
  cases hc : argument call.arguments 0 with
  | error e =>
    rw [chunkReply, chunkReply, hc]
    rfl
  | ok c =>
    obtain ⟨hrelative, hdepth⟩ := h.collection (.inl hchunk) c hc
    rw [chunkReply_eq hc, chunkReply_eq hc]
    congr 1
    funext n
    obtain ⟨m, hm⟩ := leads_chunk hrelative hdepth n
    exact congrArg (fun bs => Except.ok (fileReply bs)) (readPath?_within ht hfolder hm)

theorem countsReply_within (h : Contained call) (ht : IsName call.target)
    (hfolder : tree.isFolder (.inside (root ++ [call.target])) = true)
    (hcounts : functionOf call = "get_chunk_meta".toList) :
    countsReply ⟨tree.within (root ++ [call.target]), .inside root⟩ [call.target] call.arguments =
      countsReply ⟨tree, .inside root⟩ [call.target] call.arguments := by
  cases hc : argument call.arguments 0 with
  | error e =>
    rw [countsReply, countsReply, hc]
    rfl
  | ok c =>
    obtain ⟨hrelative, hdepth⟩ := h.collection (.inr hcounts) c hc
    obtain ⟨m, hm⟩ := leads_collection hrelative hdepth
    rw [countsReply_eq hc, countsReply_eq hc, List.singleton_append]
    dsimp only
    rw [folderPath?_within ht hfolder hm]
    cases hfind : tree.folderPath? (.inside root) (call.target :: ["chunks".toList, collectionOf c]) with
    | none => rfl
    | some q =>
      obtain ⟨names, rfl⟩ := find_inside ht hm (Option.filter_eq_some_iff.1 hfind).1
      dsimp only
      rw [FileTree.listing_within]

/-- Each of the files that may be the page is read in the same way in both trees. -/
theorem page_within (h : Contained call) (ht : IsName call.target)
    (hfolder : tree.isFolder (.inside (root ++ [call.target])) = true)
    (hfunction : isAbsolute (functionOf call) = false) :
    page ⟨tree.within (root ++ [call.target]), .inside root⟩ [call.target] call (functionOf call) =
      page ⟨tree, .inside root⟩ [call.target] call (functionOf call) := by
  have hsame : ∀ parts ∈ candidates [call.target] (functionOf call) call.arguments,
      (tree.within (root ++ [call.target])).readPath? (.inside root) parts =
        tree.readPath? (.inside root) parts := by
    intro parts hparts
    obtain ⟨rest, m, rfl, hm⟩ := leads_candidate hfunction h.function hparts
    exact readPath?_within ht hfolder hm
  rw [page, page]
  dsimp only
  rw [findSome?_congr hsame]

/-- A contained call is answered as if there were nothing but the contract's directory. -/
theorem answer_within (tree : FileTree) (root : List Text) (h : Contained call)
    (hfunction : isAbsolute (functionOf call) = false) :
    answer ⟨tree.within (root ++ [call.target]), .inside root⟩ call = answer ⟨tree, .inside root⟩ call := by
  have hwithin := contractPath_within tree root h.target (functionOf call)
  cases hcontract : contractPath ⟨tree, .inside root⟩ call.target (functionOf call) with
  | error e =>
    rw [hcontract] at hwithin
    rw [answer, answer, hcontract, hwithin]
    rfl
  | ok contract =>
    obtain ⟨rfl, hname, hfolder⟩ := contractPath_ok hcontract
    have ht := isName_of_contractName hname h.target
    rw [folderPath?_contract tree root ht] at hfolder
    rw [hcontract] at hwithin
    rw [answer_of_contract hcontract, answer_of_contract hwithin]
    split
    · next hchunk => exact chunkReply_within h ht hfolder hchunk
    · split
      · next hcounts => exact countsReply_within h ht hfolder hcounts
      · exact page_within h ht hfolder hfunction

/-! ### The arguments of directives -/

theorem renderFunction_eq (func : Option Text) :
    ∃ f, renderFunction func = 'r' :: f := by
  unfold renderFunction
  split
  · exact ⟨_, rfl⟩
  · exact ⟨_, rfl⟩
  · split
    · next h =>
      rcases h with h | h
      · exact ⟨_, h⟩
      · obtain ⟨f, hf⟩ := List.isPrefixOf_iff_prefix.1 h
        exact ⟨_, hf.symm⟩
    · exact ⟨_, rfl⟩

theorem functionOf_inclusion (p : Resolution.Planned) (viewer : Option Text) (aliases : Aliases) :
    ∃ f, functionOf (p.call viewer aliases) = 'r' :: f := by
  obtain ⟨f, hf⟩ := renderFunction_eq p.place.value.func
  refine ⟨f, ?_⟩
  rw [functionOf, Resolution.Planned.call, hf]

theorem isAbsolute_functionOf (h : call.OfDirective) : isAbsolute (functionOf call) = false := by
  cases h with
  | inclusion p viewer aliases =>
    obtain ⟨f, hf⟩ := functionOf_inclusion p viewer aliases
    rw [hf]
    rfl
  | chunk => rfl
  | counts => rfl
  | render => rfl

theorem exists_chunk_arguments (h : call.OfDirective) (hchunk : functionOf call = "get_chunk".toList) :
    ∃ c n, argument call.arguments 0 = .ok c ∧ argument call.arguments 1 >>= indexOf = .ok n := by
  cases h with
  | inclusion p viewer aliases =>
    obtain ⟨f, hf⟩ := functionOf_inclusion p viewer aliases
    rw [hf] at hchunk
    cases hchunk
  | chunk contract collection index => exact ⟨_, _, rfl, rfl⟩
  | counts => exact absurd (show "get_chunk_meta".toList = "get_chunk".toList from hchunk) (by decide)
  | render => exact absurd (show "render".toList = "get_chunk".toList from hchunk) (by decide)

theorem exists_counts_arguments (h : call.OfDirective)
    (hcounts : functionOf call = "get_chunk_meta".toList) :
    ∃ c, argument call.arguments 0 = .ok c := by
  cases h with
  | inclusion p viewer aliases =>
    obtain ⟨f, hf⟩ := functionOf_inclusion p viewer aliases
    rw [hf] at hcounts
    cases hcounts
  | chunk => exact absurd (show "get_chunk".toList = "get_chunk_meta".toList from hcounts) (by decide)
  | counts contract collection => exact ⟨_, rfl⟩
  | render => exact absurd (show "render".toList = "get_chunk_meta".toList from hcounts) (by decide)

theorem Examines.inside {q : Place} (hq : Examines ⟨tree, .inside root⟩ call q) (h : Contained call)
    (hfunction : isAbsolute (functionOf call) = false) :
    IsName call.target ∧ ∃ names, names ≠ [] ∧ q = .inside (root ++ call.target :: names) := by
  cases hq with
  | @chunk c n hcontract hchunk hc =>
    have ht := isName_of_contractName (contractPath_ok hcontract).2.1 h.target
    obtain ⟨hrelative, hdepth⟩ := h.collection (.inl hchunk) c hc
    obtain ⟨m, hm⟩ := leads_chunk hrelative hdepth n
    obtain ⟨names, hlength, hplace⟩ := place_of_leads tree root ht hm
    exact ⟨ht, names, List.ne_nil_of_length_eq_add_one hlength, hplace⟩
  | @counted c names entry hcontract hcounts hc hnames _ =>
    have ht := isName_of_contractName (contractPath_ok hcontract).2.1 h.target
    obtain ⟨hrelative, hdepth⟩ := h.collection (.inr hcounts) c hc
    obtain ⟨m, hm⟩ := leads_collection hrelative hdepth
    obtain ⟨names', -, hplace⟩ := place_of_leads tree root ht hm
    rw [hplace] at hnames
    cases hnames
    exact ⟨ht, names' ++ [entry.1], by simp, by simp⟩
  | page hcontract _ hparts =>
    have ht := isName_of_contractName (contractPath_ok hcontract).2.1 h.target
    obtain ⟨rest, m, rfl, hm⟩ := leads_candidate hfunction h.function hparts
    obtain ⟨names, hlength, hplace⟩ := place_of_leads tree root ht hm
    exact ⟨ht, names, List.ne_nil_of_length_eq_add_one hlength, hplace⟩

theorem exists_place_of_readPath? (site : Site) {parts : List Text} {bs : List UInt8}
    (h : site.tree.readPath? site.root parts = some bs) :
    site.tree.read? (site.place parts) = some bs := by
  obtain ⟨q, hfind, hread⟩ := Option.bind_eq_some_iff.1 h
  rwa [find_eq_place site hfind] at hread

theorem answered_page (hcontract : site.contractPath call.target (functionOf call) = .ok [call.target])
    (hnames : ¬ NamesCollection call) :
    Answered site call (site.page [call.target] call (functionOf call)) := by
  rw [page]
  split
  · next bs hfound =>
    obtain ⟨parts, hparts, hread⟩ := List.exists_of_findSome?_eq_some hfound
    exact .file (.page hcontract hnames hparts) (exists_place_of_readPath? site hread)
  · exact .failed _

/-- The call of a directive is answered by a file that it looks at, by the counts of a
    directory, by nothing, or by a failure of the remote kind. -/
theorem answered (h : call.OfDirective) (hcontained : Contained call) (tree : FileTree) (root : List Text) :
    Answered ⟨tree, .inside root⟩ call (answer ⟨tree, .inside root⟩ call) := by
  cases hcontract : contractPath ⟨tree, .inside root⟩ call.target (functionOf call) with
  | error e =>
    obtain ⟨f, rfl⟩ := contractPath_error hcontract
    rw [answer, hcontract]
    exact .failed f
  | ok contract =>
    obtain ⟨rfl, hname, -⟩ := contractPath_ok hcontract
    rw [answer_of_contract hcontract]
    split
    · next hchunk =>
      obtain ⟨c, n, hc, hn⟩ := exists_chunk_arguments h hchunk
      rw [chunkReply_eq hc, hn]
      change Answered _ call (.ok (fileReply (tree.readPath? (.inside root) _)))
      cases hread : tree.readPath? (.inside root) ([call.target] ++
          ["chunks".toList, collectionOf c] ++ [Text.decimalInt n ++ ".md".toList]) with
      | none => exact .nothing
      | some bs =>
        exact .file (.chunk hcontract hchunk hc)
          (exists_place_of_readPath? ⟨tree, .inside root⟩ hread)
    · next hchunk =>
      split
      · next hcounts =>
        obtain ⟨c, hc⟩ := exists_counts_arguments h hcounts
        have ht := isName_of_contractName hname hcontained.target
        obtain ⟨hrelative, hdepth⟩ := hcontained.collection (.inr hcounts) c hc
        obtain ⟨m, hm⟩ := leads_collection hrelative hdepth
        rw [countsReply_eq hc, List.singleton_append]
        dsimp only
        cases hfolder : tree.folderPath? (.inside root) (call.target :: ["chunks".toList, collectionOf c]) with
        | none => exact .nothing
        | some q =>
          have hplace := find_eq_place ⟨tree, .inside root⟩ (Option.filter_eq_some_iff.1 hfolder).1
          obtain ⟨names, rfl⟩ := find_inside ht hm (Option.filter_eq_some_iff.1 hfolder).1
          exact .counts fun entry hentry => .counted hcontract hcounts hc hplace.symm hentry
      · next hcounts => exact answered_page hcontract (not_or.2 ⟨hchunk, hcounts⟩)

/-- The calls that the directives of a page make, if none of their texts leads out of the
    contract's directory, are confined to it, for every tree of files and every root.  Every
    file that is looked at lies strictly below the directory, and the directory is an entry of
    the root.  The answer is the same if there is nothing else in the tree.  It is a file that
    was looked at, the counts of a directory, nothing, or a failure of the remote kind. -/
theorem answer_confined (tree : FileTree) (root : List Text) (hcall : call.OfDirective)
    (h : Contained call) :
    (∀ q, Examines ⟨tree, .inside root⟩ call q →
      IsName call.target ∧ ∃ names, names ≠ [] ∧ q = .inside (root ++ call.target :: names)) ∧
    answer ⟨tree, .inside root⟩ call = answer ⟨tree.within (root ++ [call.target]), .inside root⟩ call ∧
    Answered ⟨tree, .inside root⟩ call (answer ⟨tree, .inside root⟩ call) := by
  have hfunction := isAbsolute_functionOf hcall
  refine ⟨?_, ?_, ?_⟩
  · intro q hq
    exact hq.inside h hfunction
  · exact (answer_within tree root h hfunction).symm
  · exact answered hcall h tree root

/-! ### A root with a contract, and what stands beside them -/

/-- Below the root `pages` the contract `site`, with a chunk, and another file; and a file
    beside the root. -/
def pagesTree : FileTree where
  files := [
    (["pages".toList, "site".toList, "chunks".toList, "b".toList, "0.md".toList], [98]),
    (["pages".toList, "secret".toList, "0.md".toList], [115]),
    (["render.md".toList], [114])]
  folders := [
    ["pages".toList, "site".toList, "chunks".toList, "a".toList],
    ["pages".toList, "site".toList, "render_x".toList]]

def pagesSite : Site := ⟨pagesTree, .inside ["pages".toList]⟩

/-- A collection whose name climbs, but not out of the contract's directory. -/
def dottedCall : Call := Host.chunkCall "site".toList "a/../b".toList 0

theorem contained_dottedCall : Contained dottedCall where
  target := by decide
  function := by decide
  collection _ c hc := by
    cases hc
    decide

theorem answer_confined_dotted :
    (∀ q, Examines pagesSite dottedCall q → IsName dottedCall.target ∧
      ∃ names, names ≠ [] ∧ q = .inside (["pages".toList] ++ dottedCall.target :: names)) ∧
    answer pagesSite dottedCall =
      answer ⟨pagesTree.within (["pages".toList] ++ [dottedCall.target]), .inside ["pages".toList]⟩
        dottedCall ∧
    Answered pagesSite dottedCall (answer pagesSite dottedCall) :=
  answer_confined pagesTree ["pages".toList] (.chunk _ _ _) contained_dottedCall

/-- The chunk is found, and the file that it is read from is in the contract's directory. -/
example : answer pagesSite dottedCall = .ok (.bytes [98]) := rfl

/-- A page of the contract `site` with directives that reach a file beside the root, by the name
    of the contract, and a file of the root that is not the contract's, by the name of the
    function and by that of the collection. -/
def climbingPage : Text :=
  "{{include contract=..}}{{include contract=site func=x/../../secret/0}}".toList ++
    "{{chunk collection=../../secret index=0}}".toList

theorem answer_escapes :
    ((Directive.inclusions climbingPage).map fun i =>
      answer pagesSite ((Resolution.plan "site".toList .empty i).call none .empty)) =
        [.ok (.bytes [114]), .ok (.bytes [115])] ∧
    ((Directive.chunks climbingPage).map fun c =>
      answer pagesSite (Host.chunkCall "site".toList c.value.collection c.value.index)) =
        [.ok (.bytes [115])] := by
  set_option maxRecDepth 10000 in
  exact ⟨rfl, rfl⟩

end Site
end PageAssembly
