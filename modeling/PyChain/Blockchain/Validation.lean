import PyChain.Blockchain.ChainState

/-!
# Block and chain validation

The header checks, the append of one block to a trusted parent state, and the
full replay from the genesis block.  Replay is characterised by an inductive
relation that grows a chain one block at a time.
-/

namespace PyChain

open Foundation

def SUPPORTED_BLOCK_VERSION : Int := 1

def MAX_FUTURE_BLOCK_TIME : Int := 2 * 60 * 60

/-- The argument `current_time` together with the reading of the wall clock, in
seconds since the epoch, that stands in for it when it is `None`. -/
structure Clock where
  currentTime : Option Int
  wallClock : Nat
deriving DecidableEq, Repr

namespace Clock

/-- An explicit `current_time`. -/
def at_ (now : Int) : Clock :=
  { currentTime := some now, wallClock := 0 }

end Clock

def resolveCurrentTime (clock : Clock) : Except PyError Int :=
  match clock.currentTime with
  | none => .ok clock.wallClock
  | some now => do
      require (0 ≤ now) (PyError.valueError "current_time must be a non-negative integer")
      return now

variable [Crypto]

def validateBlockStructure (block : Block) : Bool :=
  if block.version < 1 ∨ block.version ≠ SUPPORTED_BLOCK_VERSION then false
  else if block.timestamp < 0 then false
  else if isValidDifficulty block.difficulty = false then false
  else if isValidNonce block.nonce = false then false
  else if isHash block.previousBlockHash = false then false
  else if isHash block.merkleRoot = false then false
  else
    let txids := block.transactions.map Transaction.txid
    if txids.all isHash = false then false
    else if ¬ txids.Nodup then false
    else
      match calculateMerkleRootFromTxids txids with
      | .error _ => false
      | .ok expectedRoot => block.merkleRoot = expectedRoot

def validateNonGenesisBlockBody (block : Block) : Bool :=
  match block.transactions with
  | [] => false
  | coinbase :: regular =>
      if validateCoinbaseStructure coinbase block.timestamp = false then false
      else regular.all (fun transaction => !transaction.inputs.isEmpty)

def validateBlockHeader (block previousBlock : Block) (clock : Clock) :
    Except PyError Bool := do
  let now <- resolveCurrentTime clock
  if validateBlockStructure previousBlock = false then .ok false
  else if validateBlockStructure block = false then .ok false
  else if block.previousBlockHash ≠ previousBlock.hash then .ok false
  else if block.timestamp < previousBlock.timestamp then .ok false
  else if now + MAX_FUTURE_BLOCK_TIME < block.timestamp then .ok false
  else do
    let expected <- expectedDifficulty previousBlock.difficulty
    if block.difficulty ≠ expected then .ok false
    else if validateNonGenesisBlockBody block = false then .ok false
    else .ok (validateProofOfWork block)

def validateAndApplyBlock (block previousBlock : Block) (state : ChainState)
    (clock : Clock) : Except PyError (Option ChainState) := do
  let valid <- validateBlockHeader block previousBlock clock
  if valid = false then .ok none else .ok (applyBlockTransactions block state)

def validateBlock (block previousBlock : Block) (state : ChainState) (clock : Clock) :
    Except PyError Bool := do
  let next <- validateAndApplyBlock block previousBlock state clock
  return next.isSome

/-- The loop of the replay over the blocks after `previousBlock`. -/
def replayBlocks (now : Int) : Block -> List Block -> Finset Str -> ChainState ->
    Except PyError (Option ChainState)
  | _, [], _, state => .ok (some state)
  | previousBlock, block :: rest, seenHashes, state => do
      match <- validateAndApplyBlock block previousBlock state (Clock.at_ now) with
      | none => .ok none
      | some next =>
          if block.hash ∈ seenHashes then .ok none
          else replayBlocks now block rest (insert block.hash seenHashes) next

def rebuildChainState (blocks : List Block) (clock : Clock) :
    Except PyError (Option ChainState) := do
  let now <- resolveCurrentTime clock
  match blocks with
  | [] => .ok none
  | genesis :: rest =>
      if validateBlockStructure genesis = false then .ok none
      else if isGenesisBlock genesis = false then .ok none
      else replayBlocks now genesis rest {genesis.hash} ChainState.empty

def validateChain (blocks : List Block) (clock : Clock) : Except PyError Bool := do
  let state <- rebuildChainState blocks clock
  return state.isSome

/-!
## One block
-/

/-- The clock does not judge: these checks hold or fail at any time. -/
structure Linked (block previousBlock : Block) : Prop where
  previousStructure : validateBlockStructure previousBlock = true
  structure_ : validateBlockStructure block = true
  previousHash : block.previousBlockHash = previousBlock.hash
  timestamp : previousBlock.timestamp ≤ block.timestamp
  difficulty : block.difficulty = MINING_DIFFICULTY
  body : validateNonGenesisBlockBody block = true
  proofOfWork : validateProofOfWork block = true

/-- The checks of a linked block apart from its proof of work. -/
structure LinkedUpToWork (block previousBlock : Block) : Prop where
  previousStructure : validateBlockStructure previousBlock = true
  structure_ : validateBlockStructure block = true
  previousHash : block.previousBlockHash = previousBlock.hash
  timestamp : previousBlock.timestamp ≤ block.timestamp
  difficulty : block.difficulty = MINING_DIFFICULTY
  body : validateNonGenesisBlockBody block = true

theorem LinkedUpToWork.linked {block tip : Block} (h : LinkedUpToWork block tip)
    (hpow : validateProofOfWork block = true) : Linked block tip :=
  ⟨h.previousStructure, h.structure_, h.previousHash, h.timestamp, h.difficulty, h.body,
    hpow⟩

theorem Linked.upToWork {block tip : Block} (h : Linked block tip) :
    LinkedUpToWork block tip :=
  ⟨h.previousStructure, h.structure_, h.previousHash, h.timestamp, h.difficulty, h.body⟩

/-- `validate_block_header` without its last check, the proof of work. -/
def validateHeaderUpToWork (block previousBlock : Block) (clock : Clock) :
    Except PyError Bool := do
  let now <- resolveCurrentTime clock
  if validateBlockStructure previousBlock = false then .ok false
  else if validateBlockStructure block = false then .ok false
  else if block.previousBlockHash ≠ previousBlock.hash then .ok false
  else if block.timestamp < previousBlock.timestamp then .ok false
  else if now + MAX_FUTURE_BLOCK_TIME < block.timestamp then .ok false
  else do
    let expected <- expectedDifficulty previousBlock.difficulty
    if block.difficulty ≠ expected then .ok false
    else if validateNonGenesisBlockBody block = false then .ok false
    else .ok true

structure StructureValid (block : Block) : Prop where
  version : block.version = SUPPORTED_BLOCK_VERSION
  timestamp : 0 ≤ block.timestamp
  difficulty : isValidDifficulty block.difficulty = true
  nonce : isValidNonce block.nonce = true
  previousHash : isHash block.previousBlockHash = true
  txids_nodup : (block.transactions.map Transaction.txid).Nodup
  merkleRoot : calculateMerkleRoot block.transactions = .ok block.merkleRoot

theorem validateBlockStructure_iff (block : Block) :
    validateBlockStructure block = true <-> StructureValid block := by
  have hroot := calculateMerkleRoot_total block.transactions
  have htxids : (block.transactions.map Transaction.txid).all isHash = true := by
    rw [List.all_eq_true]
    intro txid htxid
    rcases List.mem_map.mp htxid with ⟨transaction, _, heq⟩
    rw [← heq]
    exact sha256Hex_isHash transaction.encoding
  rcases hroot with ⟨data, hdata⟩
  unfold calculateMerkleRoot at hdata
  unfold validateBlockStructure
  simp only [htxids, Bool.true_eq_false, if_false, hdata]
  constructor
  · intro h
    split at h
    · cases h
    rename_i hversion
    split at h
    · cases h
    rename_i htimestamp
    split at h
    · cases h
    rename_i hdifficulty
    split at h
    · cases h
    rename_i hnonce
    split at h
    · cases h
    rename_i hprevious
    split at h
    · cases h
    split at h
    · cases h
    rename_i hnodup
    rw [not_or] at hversion
    constructor
    · simpa using hversion.right
    · omega
    · simpa using hdifficulty
    · simpa using hnonce
    · simpa using hprevious
    · simpa using hnodup
    · unfold calculateMerkleRoot
      rw [hdata]
      have hmerkle : block.merkleRoot = sha256Hex data := by
        simpa using h
      rw [hmerkle]
  · intro h
    have hmerkle := h.merkleRoot
    unfold calculateMerkleRoot at hmerkle
    rw [hdata] at hmerkle
    have hmerkle' : block.merkleRoot = sha256Hex data := (Except.ok.inj hmerkle).symm
    have hhash : isHash block.merkleRoot = true := by
      rw [hmerkle']
      exact sha256Hex_isHash data
    have hversion : ¬ (block.version < 1 ∨ block.version ≠ SUPPORTED_BLOCK_VERSION) := by
      rw [h.version]
      decide
    have htimestamp := h.timestamp
    rw [if_neg hversion, if_neg (by omega), if_neg (by simp [h.difficulty]),
      if_neg (by simp [h.nonce]), if_neg (by simp [h.previousHash]),
      if_neg (by simp [hhash]), if_neg (by simpa using h.txids_nodup)]
    simpa using hmerkle'

omit [Crypto] in
theorem resolveCurrentTime_at_ {now : Int} (h : 0 ≤ now) :
    resolveCurrentTime (Clock.at_ now) = .ok now :=
  bind_eq_ok_iff.mpr ⟨(), require_eq_ok_iff.mpr h, rfl⟩

omit [Crypto] in
theorem resolveCurrentTime_nonneg {clock : Clock} {now : Int}
    (h : resolveCurrentTime clock = .ok now) : 0 ≤ now := by
  unfold resolveCurrentTime at h
  split at h
  · cases h
    exact Int.natCast_nonneg _
  · rcases bind_eq_ok_iff.mp h with ⟨_, hrequire, heq⟩
    cases heq
    exact require_eq_ok_iff.mp hrequire

theorem validateHeaderUpToWork_eq (block previousBlock : Block) {clock : Clock} {now : Int}
    (hnow : resolveCurrentTime clock = .ok now) :
    exists answer, validateHeaderUpToWork block previousBlock clock = .ok answer ∧
      (answer = true <->
        LinkedUpToWork block previousBlock ∧
          block.timestamp ≤ now + MAX_FUTURE_BLOCK_TIME) := by
  unfold validateHeaderUpToWork
  rw [hnow]
  apply rejecting_guard
  · intro hguard h
    simp [h.left.previousStructure] at hguard
  intro hprevious
  apply rejecting_guard
  · intro hguard h
    simp [h.left.structure_] at hguard
  intro hstructure
  apply rejecting_guard
  · intro hguard h
    exact hguard h.left.previousHash
  intro hlink
  apply rejecting_guard
  · intro hguard h
    have htime := h.left.timestamp
    omega
  intro htime
  apply rejecting_guard
  · intro hguard h
    have hfuture := h.right
    omega
  intro hfuture
  have hpreviousValid : validateBlockStructure previousBlock = true := by
    simpa using hprevious
  rw [expectedDifficulty_of_valid
    ((validateBlockStructure_iff previousBlock).mp hpreviousValid).difficulty]
  apply rejecting_guard
  · intro hguard h
    exact hguard h.left.difficulty
  intro hdifficulty
  apply rejecting_guard
  · intro hguard h
    simp [h.left.body] at hguard
  intro hbody
  refine ⟨true, rfl, ?_⟩
  constructor
  · intro _
    constructor
    · exact ⟨hpreviousValid, by simpa using hstructure, by simpa using hlink, by omega,
        by simpa using hdifficulty, by simpa using hbody⟩
    · omega
  · intro _
    rfl

theorem validateBlockHeader_eq_upToWork (block previousBlock : Block) (clock : Clock) :
    validateBlockHeader block previousBlock clock =
      (validateHeaderUpToWork block previousBlock clock).map
        (fun valid => valid && validateProofOfWork block) := by
  unfold validateBlockHeader validateHeaderUpToWork
  cases resolveCurrentTime clock with
  | error e => rfl
  | ok now =>
      simp only [bind, Except.bind]
      split
      · rfl
      split
      · rfl
      split
      · rfl
      split
      · rfl
      split
      · rfl
      cases expectedDifficulty previousBlock.difficulty with
      | error e => rfl
      | ok expected =>
          simp only
          split
          · rfl
          split
          · rfl
          · simp [Except.map]

theorem validateBlockHeader_eq (block previousBlock : Block) {clock : Clock} {now : Int}
    (hnow : resolveCurrentTime clock = .ok now) :
    exists answer, validateBlockHeader block previousBlock clock = .ok answer ∧
      (answer = true <->
        Linked block previousBlock ∧
          block.timestamp ≤ now + MAX_FUTURE_BLOCK_TIME) := by
  rcases validateHeaderUpToWork_eq block previousBlock hnow with ⟨valid, hvalid, hiff⟩
  refine ⟨valid && validateProofOfWork block, ?_, ?_⟩
  · rw [validateBlockHeader_eq_upToWork, hvalid]
    rfl
  · rw [Bool.and_eq_true, hiff]
    constructor
    · intro h
      exact ⟨h.left.left.linked h.right, h.left.right⟩
    · intro h
      exact ⟨⟨h.left.upToWork, h.right⟩, h.left.proofOfWork⟩

theorem validateAndApplyBlock_eq_ok_some_iff (block previousBlock : Block)
    (state next : ChainState) {clock : Clock} {now : Int}
    (hnow : resolveCurrentTime clock = .ok now) :
    validateAndApplyBlock block previousBlock state clock = .ok (some next) <->
      Linked block previousBlock ∧ block.timestamp ≤ now + MAX_FUTURE_BLOCK_TIME ∧
        applyBlockTransactions block state = some next := by
  rcases validateBlockHeader_eq block previousBlock hnow with ⟨answer, hanswer, hiff⟩
  unfold validateAndApplyBlock
  rw [hanswer]
  change (if answer = false then Except.ok none else _) = _ <-> _
  rw [← and_assoc, ← hiff]
  cases answer with
  | false =>
      simp
  | true =>
      simp

theorem validateAndApplyBlock_ok (block previousBlock : Block) (state : ChainState)
    {clock : Clock} {now : Int} (hnow : resolveCurrentTime clock = .ok now) :
    exists answer, validateAndApplyBlock block previousBlock state clock = .ok answer := by
  rcases validateBlockHeader_eq block previousBlock hnow with ⟨valid, hvalid, _⟩
  unfold validateAndApplyBlock
  rw [hvalid]
  change exists answer, (if valid = false then Except.ok none else _) = Except.ok answer
  cases valid with
  | false => exact ⟨none, rfl⟩
  | true => exact ⟨_, rfl⟩

/-!
## Chains

A valid chain starts with the fixed genesis block and the empty ledger, and
grows by linked blocks with new hashes.
-/

inductive ValidChain : List Block -> Block -> ChainState -> Prop where
  | genesis {block : Block} :
      validateBlockStructure block = true -> isGenesisBlock block = true ->
      ValidChain [block] block ChainState.empty
  | extend {blocks : List Block} {tip block : Block} {state next : ChainState} :
      ValidChain blocks tip state -> Linked block tip ->
      applyBlockTransactions block state = some next ->
      (forall other, other ∈ blocks -> other.hash ≠ block.hash) ->
      ValidChain (blocks ++ [block]) block next

/-- Every block after the genesis block is acceptable at a time. -/
def TimelyAt (now : Int) (blocks : List Block) : Prop :=
  forall block, block ∈ blocks.tail -> block.timestamp ≤ now + MAX_FUTURE_BLOCK_TIME

theorem ValidChain.ne_nil {blocks : List Block} {tip : Block} {state : ChainState}
    (h : ValidChain blocks tip state) : blocks ≠ [] := by
  cases h with
  | genesis _ _ => simp
  | extend _ _ _ _ => simp

theorem ValidChain.getLast? {blocks : List Block} {tip : Block} {state : ChainState}
    (h : ValidChain blocks tip state) : blocks.getLast? = some tip := by
  cases h with
  | genesis _ _ => rfl
  | extend _ _ _ _ => simp

theorem ValidChain.hashes_nodup {blocks : List Block} {tip : Block} {state : ChainState}
    (h : ValidChain blocks tip state) : (blocks.map Block.hash).Nodup := by
  induction h with
  | genesis _ _ => exact List.nodup_singleton _
  | @extend blocks tip block state next _ _ _ hfresh ih =>
      rw [List.map_append, List.nodup_append]
      refine ⟨ih, List.nodup_singleton _, ?_⟩
      intro hash hhash other hother heq
      rcases List.mem_map.mp hhash with ⟨existing, hexisting, hexistingHash⟩
      have hother' : other = block.hash := by
        simpa using hother
      exact hfresh existing hexisting (by rw [hexistingHash, heq, hother'])

theorem ValidChain.snoc_inv {blocks : List Block} {block tip : Block} {next : ChainState}
    (h : ValidChain (blocks ++ [block]) tip next) (hne : blocks ≠ []) :
    exists previous state, ValidChain blocks previous state ∧ tip = block ∧
      Linked block previous ∧ applyBlockTransactions block state = some next ∧
      forall other, other ∈ blocks -> other.hash ≠ block.hash := by
  generalize hall : blocks ++ [block] = all at h
  cases h with
  | genesis _ _ =>
      have hlength := congrArg List.length hall
      simp only [List.length_append, List.length_cons, List.length_nil] at hlength
      exact absurd (List.eq_nil_of_length_eq_zero (by omega)) hne
  | extend hchain hlinked happly hfresh =>
      have hblocks := List.append_inj_left' hall rfl
      have hblock : block = tip := by
        simpa using List.append_inj_right' hall rfl
      subst hblocks
      subst hblock
      exact ⟨_, _, hchain, rfl, hlinked, happly, hfresh⟩

theorem ValidChain.genesis_inv {block tip : Block} {state : ChainState}
    (h : ValidChain [block] tip state) :
    tip = block ∧ state = ChainState.empty ∧ validateBlockStructure block = true ∧
      isGenesisBlock block = true := by
  generalize hall : [block] = all at h
  cases h with
  | genesis hstructure hgenesis =>
      have hblock : block = tip := by
        simpa using hall
      subst hblock
      exact ⟨rfl, rfl, hstructure, hgenesis⟩
  | extend hchain _ _ _ =>
      have hlength := congrArg List.length hall
      simp only [List.length_append, List.length_cons, List.length_nil] at hlength
      exact absurd (List.eq_nil_of_length_eq_zero (by omega)) hchain.ne_nil

theorem ValidChain.deterministic {blocks : List Block} {tip tip' : Block}
    {state state' : ChainState} (h : ValidChain blocks tip state)
    (h' : ValidChain blocks tip' state') : tip = tip' ∧ state = state' := by
  induction h generalizing tip' state' with
  | genesis _ _ =>
      rcases h'.genesis_inv with ⟨htip, hstate, _, _⟩
      exact ⟨htip.symm, hstate.symm⟩
  | extend hchain _ happly _ ih =>
      rcases h'.snoc_inv hchain.ne_nil with ⟨previous, old, hold, htip, _, happly', _⟩
      rcases ih hold with ⟨_, hstate⟩
      rw [← hstate, happly] at happly'
      exact ⟨htip.symm, Option.some.inj happly'⟩

theorem ValidChain.take {blocks : List Block} {tip : Block} {state : ChainState}
    (h : ValidChain blocks tip state) :
    forall xs ys, blocks = xs ++ ys -> xs ≠ [] ->
      exists tip' state', ValidChain xs tip' state' := by
  induction h with
  | @genesis block hstructure hgenesis =>
      intro xs ys hsplit hne
      cases xs with
      | nil =>
          exact absurd rfl hne
      | cons first rest =>
          have hparts : first = block ∧ rest = [] := by
            have hinj := List.cons.inj hsplit
            exact ⟨hinj.left.symm, (List.nil_eq_append_iff.mp hinj.right).left⟩
          rw [hparts.left, hparts.right]
          exact ⟨_, _, ValidChain.genesis hstructure hgenesis⟩
  | @extend blocks tip block state next hchain hlinked happly hfresh ih =>
      intro xs ys hsplit hne
      rcases List.eq_nil_or_concat ys with hys | ⟨front, last, hys⟩
      · rw [hys, List.append_nil] at hsplit
        rw [← hsplit]
        exact ⟨_, _, ValidChain.extend hchain hlinked happly hfresh⟩
      · rw [hys, List.concat_eq_append, ← List.append_assoc] at hsplit
        exact ih xs front (List.append_inj_left' hsplit rfl) hne

/-- The replay loop, started on a valid chain, accepts exactly the timely valid
extensions of it. -/
theorem replayBlocks_eq_ok_some_iff {now : Int} (hnow : 0 ≤ now) (rest : List Block) :
    forall (blocks : List Block) (tip : Block) (state final : ChainState),
      ValidChain blocks tip state ->
      (replayBlocks now tip rest (blocks.map Block.hash).toFinset state =
          .ok (some final) <->
        (exists last, ValidChain (blocks ++ rest) last final) ∧
          forall block, block ∈ rest ->
            block.timestamp ≤ now + MAX_FUTURE_BLOCK_TIME) := by
  induction rest with
  | nil =>
      intro blocks tip state final hchain
      simp only [replayBlocks, Except.ok.injEq, Option.some.injEq, List.append_nil,
        List.not_mem_nil, false_implies, implies_true, and_true]
      constructor
      · intro h
        subst h
        exact ⟨tip, hchain⟩
      · intro h
        rcases h with ⟨last, hlast⟩
        exact (hchain.deterministic hlast).right
  | cons block rest ih =>
      intro blocks tip state final hchain
      have hresolve := resolveCurrentTime_at_ hnow
      have hseen : insert block.hash (blocks.map Block.hash).toFinset =
          ((blocks ++ [block]).map Block.hash).toFinset := by
        ext hash
        simp only [Finset.mem_insert, List.mem_toFinset, List.map_append, List.mem_append,
          List.map_cons, List.map_nil, List.mem_singleton]
        exact or_comm
      have happend : blocks ++ block :: rest = (blocks ++ [block]) ++ rest := by
        simp
      constructor
      · intro h
        unfold replayBlocks at h
        rcases bind_eq_ok_iff.mp h with ⟨answer, hanswer, h⟩
        cases answer with
        | none =>
            cases h
        | some next =>
            rcases (validateAndApplyBlock_eq_ok_some_iff _ _ _ _ hresolve).mp hanswer with
              ⟨hlinked, htimely, happly⟩
            simp only at h
            split at h
            · cases h
            · rename_i hnew
              have hfresh : forall other, other ∈ blocks -> other.hash ≠ block.hash := by
                intro other hother heq
                apply hnew
                rw [List.mem_toFinset, ← heq]
                exact List.mem_map_of_mem hother
              rw [hseen] at h
              rcases (ih _ _ _ _ (ValidChain.extend hchain hlinked happly hfresh)).mp h with
                ⟨hfinal, hrest⟩
              rw [← happend] at hfinal
              constructor
              · exact hfinal
              · intro other hother
                rcases List.mem_cons.mp hother with heq | hmem
                · rw [heq]
                  exact htimely
                · exact hrest other hmem
      · intro h
        rcases h with ⟨⟨last, hfinal⟩, htimely⟩
        rw [happend] at hfinal
        rcases hfinal.take _ _ rfl (by simp) with ⟨tip', next, hnext⟩
        rcases hnext.snoc_inv hchain.ne_nil with
          ⟨previous, old, hold, htip, hlinked, happly, hfresh⟩
        rcases hchain.deterministic hold with ⟨hprevious, hstate⟩
        subst hprevious
        subst hstate
        subst htip
        have hanswer := (validateAndApplyBlock_eq_ok_some_iff tip' tip state next
          hresolve).mpr ⟨hlinked, htimely tip' List.mem_cons_self, happly⟩
        have hnew : tip'.hash ∉ (blocks.map Block.hash).toFinset := by
          intro hmem
          rcases List.mem_map.mp (List.mem_toFinset.mp hmem) with ⟨other, hother, heq⟩
          exact hfresh other hother heq
        unfold replayBlocks
        apply bind_eq_ok_iff.mpr
        refine ⟨some next, hanswer, ?_⟩
        simp only [if_neg hnew, hseen]
        apply (ih _ _ _ _ hnext).mpr
        constructor
        · exact ⟨last, hfinal⟩
        · intro other hother
          exact htimely other (List.mem_cons_of_mem _ hother)

theorem rebuildChainState_eq_ok_some_iff (blocks : List Block) (clock : Clock)
    (state : ChainState) :
    rebuildChainState blocks clock = .ok (some state) <->
      exists now tip, resolveCurrentTime clock = .ok now ∧
        ValidChain blocks tip state ∧ TimelyAt now blocks := by
  have hstart : forall {genesis : Block} {rest : List Block} {now : Int},
      0 ≤ now -> validateBlockStructure genesis = true -> isGenesisBlock genesis = true ->
      (replayBlocks now genesis rest {genesis.hash} ChainState.empty = .ok (some state) <->
        (exists tip, ValidChain (genesis :: rest) tip state) ∧
          TimelyAt now (genesis :: rest)) := by
    intro genesis rest now hnow hstructure hgenesis
    exact replayBlocks_eq_ok_some_iff hnow rest [genesis] genesis ChainState.empty state
      (ValidChain.genesis hstructure hgenesis)
  unfold rebuildChainState
  rw [bind_eq_ok_iff]
  constructor
  · intro h
    rcases h with ⟨now, hnow, h⟩
    cases blocks with
    | nil =>
        cases h
    | cons genesis rest =>
        simp only at h
        split at h
        · cases h
        rename_i hstructure
        split at h
        · cases h
        rename_i hgenesis
        rcases (hstart (resolveCurrentTime_nonneg hnow) (by simpa using hstructure)
          (by simpa using hgenesis)).mp h with ⟨⟨tip, hchain⟩, htimely⟩
        exact ⟨now, tip, hnow, hchain, htimely⟩
  · intro h
    rcases h with ⟨now, tip, hnow, hchain, htimely⟩
    refine ⟨now, hnow, ?_⟩
    cases blocks with
    | nil =>
        exact absurd rfl hchain.ne_nil
    | cons genesis rest =>
        rcases hchain.take [genesis] rest rfl (by simp) with ⟨first, start, hfirst⟩
        rcases hfirst.genesis_inv with ⟨_, _, hstructure, hgenesis⟩
        simp only
        rw [if_neg (by simp [hstructure]), if_neg (by simp [hgenesis])]
        exact (hstart (resolveCurrentTime_nonneg hnow) hstructure hgenesis).mpr
          ⟨⟨tip, hchain⟩, htimely⟩

theorem replayBlocks_ok {now : Int} (hnow : 0 ≤ now) (rest : List Block) :
    forall (tip : Block) (seenHashes : Finset Str) (state : ChainState),
      exists answer, replayBlocks now tip rest seenHashes state = .ok answer := by
  induction rest with
  | nil =>
      intro tip seenHashes state
      exact ⟨some state, rfl⟩
  | cons block rest ih =>
      intro tip seenHashes state
      rcases validateAndApplyBlock_ok block tip state (resolveCurrentTime_at_ hnow) with
        ⟨answer, hanswer⟩
      unfold replayBlocks
      rw [hanswer]
      cases answer with
      | none =>
          exact ⟨none, rfl⟩
      | some next =>
          change exists answer, (if block.hash ∈ seenHashes then _ else _) = _
          split
          · exact ⟨none, rfl⟩
          · exact ih block _ next

theorem rebuildChainState_ok (blocks : List Block) {clock : Clock} {now : Int}
    (hnow : resolveCurrentTime clock = .ok now) :
    exists answer, rebuildChainState blocks clock = .ok answer := by
  unfold rebuildChainState
  rw [hnow]
  cases blocks with
  | nil =>
      exact ⟨none, rfl⟩
  | cons genesis rest =>
      change exists answer, (if validateBlockStructure genesis = false then _ else _) = _
      split
      · exact ⟨none, rfl⟩
      split
      · exact ⟨none, rfl⟩
      exact replayBlocks_ok (resolveCurrentTime_nonneg hnow) rest _ _ _

end PyChain
