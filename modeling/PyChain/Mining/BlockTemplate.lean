import PyChain.Blockchain.Commitment
import PyChain.Blockchain.Ledger
import PyChain.Transaction.Selection

/-!
# Block templates

A template is an unmined block on top of the tip.  It holds the selected pending
transactions and a coinbase that claims the subsidy and their fees.  Once mined
it is accepted, and the pool keeps exactly what was not selected.
-/

namespace PyChain

open Foundation
open OutputLedger (Applies post)

section Templates

variable [Crypto]

omit [Crypto] in
def resolveTimestamp (timestamp : Option Int) (wallClock : Nat) : Except PyError Int :=
  match timestamp with
  | none => .ok wallClock
  | some time => do
      require (0 ≤ time) (PyError.valueError "timestamp must be a non-negative integer")
      return time

/-- The batch that verifies the fees, if the parent state is given. -/
def templateBatch (transactions : List Transaction) (utxoSet : Option UTXOSet)
    (seenTxids : Option (Finset Str)) : Except PyError (Option TransactionBatch) :=
  match utxoSet, seenTxids with
  | some utxos, some seen => (applyTransactions transactions utxos seen).map some
  | _, _ => .ok none

def createBlockTemplate (previousBlock : Block) (minerAddress : Str)
    (transactions : Option (List Transaction)) (timestamp : Option Int) (wallClock : Nat)
    (utxoSet : Option UTXOSet) (seenTxids : Option (Finset Str)) : Except PyError Block := do
  require (0 ≤ previousBlock.timestamp)
    (PyError.valueError "previous_block.timestamp must be a non-negative integer")
  let resolved <- resolveTimestamp timestamp wallClock
  let blockTimestamp :=
    if timestamp.isNone then max resolved (previousBlock.timestamp + 1) else resolved
  require (previousBlock.timestamp ≤ blockTimestamp)
    (PyError.valueError "timestamp cannot be earlier than the previous block")
  let regularTransactions := transactions.getD []
  require (regularTransactions.all (fun transaction => !transaction.inputs.isEmpty) = true)
    (PyError.valueError "regular transactions must contain at least one input")
  require (utxoSet.isNone = seenTxids.isNone)
    (PyError.valueError "utxo_set and seen_txids must be supplied together")
  require (regularTransactions.isEmpty = true ∨ utxoSet.isSome = true)
    (PyError.valueError "Transactions require the parent UTXO and TXID state")
  let result <- templateBatch regularTransactions utxoSet seenTxids
  let totalFees := (result.map TransactionBatch.totalFees).getD 0
  let coinbase <- createCoinbaseTransaction minerAddress blockTimestamp totalFees
  require (forall batch, result = some batch -> coinbase.txid ∉ batch.seenTxids)
    (PyError.valueError "Coinbase TXID already exists; choose a later timestamp")
  let difficulty <- expectedDifficulty previousBlock.difficulty
  Block.create (coinbase :: regularTransactions) previousBlock.hash blockTimestamp
    SUPPORTED_BLOCK_VERSION difficulty 0

namespace Blockchain

def createBlockTemplate (chain : Blockchain) (minerAddress : Str)
    (transactions : Option (List Transaction)) (timestamp : Option Int)
    (wallClock : Nat) : Except PyError Block := do
  ensureUsable chain
  match chain.blocks.getLast? with
  | none => .error (.indexError "list index out of range")
  | some tip =>
      PyChain.createBlockTemplate tip minerAddress transactions timestamp wallClock
        (some chain.state.utxoSet) (some chain.state.seenTxids)

def createMempoolBlockTemplate (chain : Blockchain) (minerAddress : Str)
    (timestamp : Option Int) (wallClock : Nat) (maxTransactions maxBytes : Int) :
    Except PyError Block := do
  ensureUsable chain
  let selected <- chain.mempool.selectTransactions maxTransactions maxBytes
  createBlockTemplate chain minerAddress (some selected) timestamp wallClock

end Blockchain

/-!
## The place of a new block in the chain
-/

theorem Linked.hash_ne_genesis {block tip : Block} (h : Linked block tip) :
    block.hash ≠ GENESIS_HASH := by
  intro heq
  have hpow := h.proofOfWork
  have hgenesis : hashMeetsTarget GENESIS_HASH MINING_DIFFICULTY = .ok false := by
    decide +kernel
  unfold validateProofOfWork at hpow
  rw [heq, h.difficulty, hgenesis] at hpow
  split at hpow
  · cases hpow
  · cases hpow

/-- A mined block names a block of the chain as its predecessor, and never the
tip. -/
theorem ValidChain.predecessor {blocks : List Block} {tip : Block} {state : ChainState}
    (h : ValidChain blocks tip state) {other : Block} (hother : other ∈ blocks)
    (hne : other.hash ≠ GENESIS_HASH) :
    (exists previous, previous ∈ blocks ∧ other.previousBlockHash = previous.hash) ∧
      other.previousBlockHash ≠ tip.hash := by
  induction h with
  | genesis _ hgenesis =>
      rw [List.mem_singleton.mp hother] at hne
      exact absurd ((isGenesisBlock_iff _).mp hgenesis).right hne
  | @extend blocks tip block state next hchain hlinked _ hfresh ih =>
      have hmem : tip ∈ blocks := List.mem_of_getLast? hchain.getLast?
      rcases List.mem_append.mp hother with hold | hnew
      · rcases (ih hold).left with ⟨previous, hprevious, hhash⟩
        refine ⟨⟨previous, List.mem_append_left _ hprevious, hhash⟩, ?_⟩
        rw [hhash]
        exact hfresh previous hprevious
      · rw [List.mem_singleton.mp hnew, hlinked.previousHash]
        exact ⟨⟨tip, List.mem_append_left _ hmem, rfl⟩, hfresh tip hmem⟩

theorem ValidChain.tip_structure {blocks : List Block} {tip : Block} {state : ChainState}
    (h : ValidChain blocks tip state) : validateBlockStructure tip = true := by
  cases h with
  | genesis hstructure _ => exact hstructure
  | extend _ hlinked _ _ => exact hlinked.structure_

theorem ValidChain.timestamp_le {blocks : List Block} {tip : Block} {state : ChainState}
    (h : ValidChain blocks tip state) {other : Block} (hother : other ∈ blocks) :
    other.timestamp ≤ tip.timestamp := by
  induction h with
  | genesis _ _ =>
      rw [List.mem_singleton.mp hother]
  | extend _ hlinked _ _ ih =>
      rcases List.mem_append.mp hother with hold | hnew
      · exact Int.le_trans (ih hold) hlinked.timestamp
      · rw [List.mem_singleton.mp hnew]

/-- The header bytes of a chain and of one more block. -/
def HeaderOf (blocks : List Block) (block : Block) (data : Bytes) : Prop :=
  exists other, (other ∈ blocks ∨ other = block) ∧ data = other.header.toBytes

theorem headers_free {blocks : List Block} {block : Block} {listed : List Block}
    (hlisted : blocks ++ [block] = listed)
    (hall : forall x, x ∈ listed -> forall y, y ∈ listed ->
      Crypto.sha256 x.header.toBytes = Crypto.sha256 y.header.toBytes -> x = y) :
    CollisionFreeOn (HeaderOf blocks block) := by
  have hmem : forall other, (other ∈ blocks ∨ other = block) -> other ∈ listed := by
    intro other hother
    rw [← hlisted, List.mem_append, List.mem_singleton]
    exact hother
  intro x y hx hy heq
  rcases hx with ⟨a, ha, hxa⟩
  rcases hy with ⟨b, hb, hyb⟩
  rw [hxa, hyb] at heq
  rw [hxa, hyb, hall a (hmem a ha) b (hmem b hb) heq]

theorem ValidChain.hash_new {blocks : List Block} {tip block : Block} {state : ChainState}
    (h : ValidChain blocks tip state) (hlinked : Linked block tip)
    (hfree : CollisionFreeOn (HeaderOf blocks block)) {other : Block}
    (hother : other ∈ blocks) : other.hash ≠ block.hash := by
  intro heq
  have hheader := header_of_hash hfree ⟨other, Or.inl hother, rfl⟩ ⟨block, Or.inr rfl, rfl⟩ heq
  have hprevious : other.previousBlockHash = block.previousBlockHash :=
    congrArg BlockHeader.previousBlockHash hheader
  have hne : other.hash ≠ GENESIS_HASH := by
    rw [heq]
    exact hlinked.hash_ne_genesis
  apply (h.predecessor hother hne).right
  rw [hprevious, hlinked.previousHash]

namespace Blockchain

theorem reachable_genesis {chain : Blockchain} (h : Reachable chain) :
    exists genesis, createGenesisBlock = .ok genesis ∧ genesis ∈ chain.blocks := by
  rcases h with ⟨clock, maxTransactions, maxBytes, start, calls, hcreate, hrun⟩
  have hinitial : initial clock maxTransactions maxBytes = .ok start := by
    unfold create at hcreate
    cases hcase : initial clock maxTransactions maxBytes with
    | error e =>
        rw [hcase] at hcreate
        cases hcreate
    | ok chain =>
        rw [hcase] at hcreate
        exact hcreate
  unfold initial at hinitial
  simp only [bind_eq_ok_iff] at hinitial
  rcases hinitial with ⟨_, _, genesis, hgenesis, _, _, hchain⟩
  refine ⟨genesis, hgenesis, ?_⟩
  rw [← hrun]
  have hstep : forall call chain, genesis ∈ Blockchain.blocks chain ->
      genesis ∈ (ram.step call chain).2.blocks := by
    intro call chain hmem
    rcases ram_step_cases call chain with ⟨_, _, heq⟩ | ⟨next, block, hprepares, heq⟩
    · rw [heq]
      exact hmem
    · rw [heq]
      change genesis ∈ next.blocks
      rw [hprepares.grows]
      exact List.mem_append_left _ hmem
  refine ram.run_invariant hstep calls start ?_
  rw [← Except.ok.inj hchain]
  exact List.mem_cons_self

/-!
## From template to accepted block
-/

/-- The cached fees of the entries that a template takes. -/
def selectedFees (chain : Blockchain) (maxTransactions maxBytes : Int) : Int :=
  ((chain.mempool.selectedEntries maxTransactions maxBytes).map
    (fun item => item.2.fee)).sum

/-- The coinbase that claims the subsidy and some fees. -/
def rewardTransaction (minerAddress : Str) (timestamp fees : Int) : Transaction :=
  { inputs := []
    outputs := [{ amount := BLOCK_SUBSIDY + fees, recipientAddress := minerAddress }]
    timestamp := timestamp
    version := SUPPORTED_TRANSACTION_VERSION }

theorem rewardTransaction_valid {minerAddress : Str} {timestamp fees : Int}
    (hminer : validateAddress minerAddress = true) (htime : 0 ≤ timestamp)
    (hfees : 0 ≤ fees) :
    createCoinbaseTransaction minerAddress timestamp fees =
        .ok (rewardTransaction minerAddress timestamp fees) ∧
      validateCoinbaseStructure (rewardTransaction minerAddress timestamp fees) timestamp =
        true ∧
      validateCoinbaseTransaction (rewardTransaction minerAddress timestamp fees) timestamp
        fees = true := by
  have hstructure : validateCoinbaseStructure
      (rewardTransaction minerAddress timestamp fees) timestamp = true := by
    rw [validateCoinbaseStructure_iff]
    refine ⟨htime, rfl, rfl, rfl, _, rfl, ?_⟩
    have hamount : 0 < BLOCK_SUBSIDY + fees := by
      unfold BLOCK_SUBSIDY
      omega
    simp [isValidOutput, hamount, hminer]
  refine ⟨?_, hstructure, ?_⟩
  · unfold createCoinbaseTransaction
    simp only [bind_eq_ok_iff, require_eq_ok_iff]
    exact ⟨(), hminer, (), htime, (), hfees, rfl⟩
  · rw [validateCoinbaseTransaction_iff]
    exact ⟨hfees, hstructure, _, rfl, Int.le_refl _⟩

/-- An unmined block of some transactions on a tip. -/
structure Template (tip : Block) (minerAddress : Str) (timestamp : Int)
    (transactions : List Transaction) (fees : Int) (template : Block) : Prop where
  transactions : template.transactions =
    rewardTransaction minerAddress timestamp fees :: transactions
  previousBlockHash : template.previousBlockHash = tip.hash
  timestamp : template.timestamp = timestamp
  version : template.version = SUPPORTED_BLOCK_VERSION
  difficulty : template.difficulty = MINING_DIFFICULTY
  merkleRoot : calculateMerkleRoot template.transactions = .ok template.merkleRoot

theorem Template.create {tip : Block} {minerAddress : Str} {timestamp : Int}
    {transactions : List Transaction} {fees : List Int} {utxoSet working : UTXOSet}
    {seenTxids : Finset Str} (wallClock : Nat) (hstructure : StructureValid tip)
    (hminer : validateAddress minerAddress = true) (hearly : tip.timestamp ≤ timestamp)
    (hprocesses : Processes utxoSet seenTxids transactions fees working)
    (hunused : (rewardTransaction minerAddress timestamp fees.sum).txid ∉
      seenAfter seenTxids transactions) :
    exists template,
      PyChain.createBlockTemplate tip minerAddress (some transactions) (some timestamp)
          wallClock (some utxoSet) (some seenTxids) = .ok template ∧
        Template tip minerAddress timestamp transactions fees.sum template := by
  have htime : 0 ≤ timestamp := Int.le_trans hstructure.timestamp hearly
  have hreward := (rewardTransaction_valid hminer htime hprocesses.fees_nonneg).left
  rcases calculateMerkleRoot_total
    (rewardTransaction minerAddress timestamp fees.sum :: transactions) with ⟨data, hroot⟩
  have hinputs : transactions.all (fun transaction => !transaction.inputs.isEmpty) = true := by
    rw [List.all_eq_true]
    intro transaction htransaction
    rcases List.append_of_mem htransaction with ⟨before, after, hsplit⟩
    rcases hprocesses.accepted_at before transaction after hsplit with
      ⟨_, _, _, _, haccepted, _⟩
    simpa using haccepted.inputs_ne_nil
  have hbatch : templateBatch transactions (some utxoSet) (some seenTxids) =
      .ok (some ⟨working, seenAfter seenTxids transactions, fees.sum⟩) := by
    have happly := (applyTransactions_eq_ok_iff transactions utxoSet seenTxids
      ⟨working, seenAfter seenTxids transactions, fees.sum⟩).mpr ⟨fees, hprocesses, rfl, rfl⟩
    unfold templateBatch
    simp only [happly]
    rfl
  refine ⟨{
    transactions := rewardTransaction minerAddress timestamp fees.sum :: transactions
    previousBlockHash := tip.hash
    timestamp := timestamp
    version := SUPPORTED_BLOCK_VERSION
    difficulty := MINING_DIFFICULTY
    nonce := 0
    merkleRoot := sha256Hex data }, ?_, ⟨rfl, rfl, rfl, rfl, rfl, hroot⟩⟩
  unfold PyChain.createBlockTemplate
  simp only [bind_eq_ok_iff, require_eq_ok_iff, Option.getD_some, hbatch]
  refine ⟨(), hstructure.timestamp, timestamp, ?_, (), hearly, (), hinputs, (), rfl, (),
    Or.inr rfl, _, rfl, _, hreward, (), ?_, MINING_DIFFICULTY,
    expectedDifficulty_of_valid hstructure.difficulty, ?_⟩
  · exact bind_eq_ok_iff.mpr ⟨(), require_eq_ok_iff.mpr htime, rfl⟩
  · intro batch hsome
    cases hsome
    exact hunused
  · exact (Block.create_eq_ok_iff _ _ _ _ _ _ _).mpr ⟨hroot, rfl, rfl, rfl, rfl, rfl, rfl⟩

/-- A template with the nonce that was found. -/
def mined (template : Block) (nonce : Int) : Block :=
  { template with nonce := nonce }

section Mined

variable {tip template : Block} {minerAddress : Str} {timestamp nonce : Int}
  {transactions : List Transaction} {fees : List Int} {state : ChainState}
  {working : UTXOSet}

/-- The template passes, with any nonce, the checks that depend neither on the clock
nor on the work. -/
theorem Template.linkedUpToWork
    (h : Template tip minerAddress timestamp transactions fees.sum template)
    (hstructure : validateBlockStructure tip = true)
    (hminer : validateAddress minerAddress = true) (hearly : tip.timestamp ≤ timestamp)
    (hprocesses : Processes state.utxoSet state.seenTxids transactions fees working)
    (hunused : (rewardTransaction minerAddress timestamp fees.sum).txid ∉
      seenAfter state.seenTxids transactions)
    (hnonce : isValidNonce nonce = true) : LinkedUpToWork (mined template nonce) tip := by
  have htip := (validateBlockStructure_iff tip).mp hstructure
  have htime : 0 ≤ timestamp := Int.le_trans htip.timestamp hearly
  have htransactions : (mined template nonce).transactions =
      rewardTransaction minerAddress timestamp fees.sum :: transactions := h.transactions
  have hstamp : (mined template nonce).timestamp = timestamp := h.timestamp
  have hreward := (rewardTransaction_valid hminer htime hprocesses.fees_nonneg).right.left
  constructor
  · exact hstructure
  · rw [validateBlockStructure_iff]
    constructor
    · exact h.version
    · rw [hstamp]
      exact htime
    · change isValidDifficulty template.difficulty = true
      rw [h.difficulty]
      decide
    · exact hnonce
    · change isHash template.previousBlockHash = true
      rw [h.previousBlockHash]
      exact Block.hash_isHash tip
    · rw [htransactions, List.map_cons, List.nodup_cons]
      refine ⟨?_, hprocesses.txids_new.left⟩
      intro hmem
      exact hunused (Finset.mem_union_right _ (List.mem_toFinset.mpr hmem))
    · exact h.merkleRoot
  · exact h.previousBlockHash
  · rw [hstamp]
    exact hearly
  · exact h.difficulty
  · unfold validateNonGenesisBlockBody
    rw [htransactions]
    simp only [hstamp, hreward, Bool.true_eq_false, if_false, List.all_eq_true]
    intro transaction htransaction
    rcases List.append_of_mem htransaction with ⟨before, after, hsplit⟩
    rcases hprocesses.accepted_at before transaction after hsplit with
      ⟨_, _, _, _, haccepted, _⟩
    simpa using haccepted.inputs_ne_nil

/-- The state after the mined template. -/
def stateAfter (reward : Transaction) (transactions : List Transaction) (state : ChainState)
    (working : UTXOSet) : ChainState :=
  { utxoSet := post working (UTXOSet.posting reward)
    seenTxids := insert reward.txid (seenAfter state.seenTxids transactions) }

theorem reward_applies (hrecorded : RecordedOutputs state.utxoSet state.seenTxids)
    (hprocesses : Processes state.utxoSet state.seenTxids transactions fees working)
    {reward : Transaction} (hinputs : reward.inputs = [])
    (hunused : reward.txid ∉ seenAfter state.seenTxids transactions) :
    Applies working (UTXOSet.posting reward) ∧
      ExtendsBy reward.txid working (post working (UTXOSet.posting reward)) := by
  have hspends : (UTXOSet.posting reward).spends = [] := by
    simp [UTXOSet.posting, Transaction.spentOutpoints, hinputs]
  have hunknown : forall outpoint, outpoint ∈ working.keys -> outpoint.1 ≠ reward.txid := by
    intro outpoint hmem heq
    apply hunused
    rw [← heq]
    exact hprocesses.recorded hrecorded outpoint hmem
  have happlies : Applies working (UTXOSet.posting reward) := by
    refine ⟨?_, ?_, ?_⟩
    · rw [hspends]
      exact List.nodup_nil
    · rw [hspends]
      intro outpoint hmem
      cases hmem
    · intro entry hentry hmem
      exact hunknown entry.1 hmem (Posting.created_ident hentry)
  refine ⟨happlies, hunknown, ?_⟩
  intro outpoint hne
  apply Option.ext
  intro output
  rw [OutputLedger.post_get? happlies, hspends]
  constructor
  · intro hpost
    rcases hpost with hcreated | ⟨hold, _⟩
    · exact absurd (Posting.created_ident hcreated) hne
    · exact hold
  · intro hold
    exact Or.inr ⟨hold, by simp⟩

theorem Template.applies
    (h : Template tip minerAddress timestamp transactions fees.sum template)
    (hminer : validateAddress minerAddress = true) (htime : 0 ≤ timestamp)
    (hrecorded : RecordedOutputs state.utxoSet state.seenTxids)
    (hprocesses : Processes state.utxoSet state.seenTxids transactions fees working)
    (hunused : (rewardTransaction minerAddress timestamp fees.sum).txid ∉
      seenAfter state.seenTxids transactions) :
    applyBlockTransactions (mined template nonce) state =
      some (stateAfter (rewardTransaction minerAddress timestamp fees.sum) transactions
        state working) := by
  rw [applyBlockTransactions_eq_some_iff]
  refine ⟨_, transactions, fees, working, h.transactions, hprocesses, hunused, ?_,
    (reward_applies hrecorded hprocesses rfl hunused).left, rfl⟩
  change validateCoinbaseTransaction _ template.timestamp fees.sum = true
  rw [h.timestamp]
  exact (rewardTransaction_valid hminer htime hprocesses.fees_nonneg).right.right

end Mined

theorem ram_addBlock {chain : Blockchain} {tip block : Block} {next : ChainState} {now : Int}
    (husable : ensureUsable chain = .ok ()) (htip : chain.blocks.getLast? = some tip)
    (hnow : 0 ≤ now) (hlinked : Linked block tip)
    (htimely : block.timestamp ≤ now + MAX_FUTURE_BLOCK_TIME)
    (happly : applyBlockTransactions block chain.state = some next)
    (hnew : forall other, other ∈ chain.blocks -> other.hash ≠ block.hash) :
    ram.step (.addBlock block (Clock.at_ now)) chain =
      (.ok true,
        { chain with
          blocks := chain.blocks ++ [block]
          state := next
          mempool := chain.mempool.revalidated next.utxoSet next.seenTxids }) := by
  have htip' : (live chain).blocks.getLast? = some tip := htip
  have hvalidate : validateAndApplyBlock block tip (live chain).state (Clock.at_ now) =
      .ok (some next) :=
    (validateAndApplyBlock_eq_ok_some_iff block tip chain.state next
      (resolveCurrentTime_at_ hnow)).mpr ⟨hlinked, htimely, happly⟩
  have hany : ¬ (live chain).blocks.any (fun existing => existing.hash = block.hash) =
      true := by
    intro hany
    rcases List.any_eq_true.mp hany with ⟨other, hother, heq⟩
    exact hnew other hother (by simpa using heq)
  rw [ram_step_eq _ chain husable]
  simp only [prepare, htip', hvalidate, if_neg hany]
  rfl

theorem reachable_clock {chain : Blockchain} (h : Reachable chain) {tip : Block}
    (htip : chain.blocks.getLast? = some tip) {timestamp now : Int}
    (hearly : tip.timestamp ≤ timestamp)
    (hlate : timestamp ≤ now + MAX_FUTURE_BLOCK_TIME) : 0 ≤ now := by
  rcases reachable_genesis h with ⟨genesis, hgenesis, hmem⟩
  have hvalid : ValidChain chain.blocks tip chain.state :=
    (reachable_sound h).left.valid_tip htip
  have hfirst := hvalid.timestamp_le hmem
  have hstamp : genesis.timestamp = GENESIS_TIMESTAMP := by
    rw [((createGenesisBlock_eq_ok_iff genesis).mp hgenesis).left]
  rw [hstamp] at hfirst
  unfold GENESIS_TIMESTAMP at hfirst
  unfold MAX_FUTURE_BLOCK_TIME at hlate
  omega

theorem mempoolTemplate {chain : Blockchain} (h : Reachable chain) {tip : Block}
    (htip : chain.blocks.getLast? = some tip) {minerAddress : Str}
    (hminer : validateAddress minerAddress = true) {maxTransactions maxBytes : Int}
    (hcount : 0 ≤ maxTransactions) (hbytes : 0 ≤ maxBytes) {timestamp : Int}
    (hearly : tip.timestamp ≤ timestamp) (wallClock : Nat)
    (hunused : (rewardTransaction minerAddress timestamp
          (selectedFees chain maxTransactions maxBytes)).txid ∉ chain.state.seenTxids ∧
      (rewardTransaction minerAddress timestamp
          (selectedFees chain maxTransactions maxBytes)).txid ∉
        chain.mempool.entries.keys) :
    exists template working final,
      createMempoolBlockTemplate chain minerAddress (some timestamp) wallClock
          maxTransactions maxBytes = .ok template ∧
        Template tip minerAddress timestamp
          ((chain.mempool.selectedEntries maxTransactions maxBytes).map
            (fun item => item.2.transaction))
          (selectedFees chain maxTransactions maxBytes) template ∧
        Processes chain.state.utxoSet chain.state.seenTxids
          ((chain.mempool.selectedEntries maxTransactions maxBytes).map
            (fun item => item.2.transaction))
          ((chain.mempool.selectedEntries maxTransactions maxBytes).map
            (fun item => item.2.fee)) working ∧
        Processes working
          (seenAfter chain.state.seenTxids
            ((chain.mempool.selectedEntries maxTransactions maxBytes).map
              (fun item => item.2.transaction)))
          ((chain.mempool.unselected
            (chain.mempool.selectedEntries maxTransactions maxBytes)).map
              (fun item => item.2.transaction))
          ((chain.mempool.unselected
            (chain.mempool.selectedEntries maxTransactions maxBytes)).map
              (fun item => item.2.fee)) final ∧
        (rewardTransaction minerAddress timestamp
            (selectedFees chain maxTransactions maxBytes)).txid ∉
          seenAfter chain.state.seenTxids
            ((chain.mempool.selectedEntries maxTransactions maxBytes).map
              (fun item => item.2.transaction)) := by
  rcases reachable_sound h with ⟨hsound, husable⟩
  have hvalid : ValidChain chain.blocks tip chain.state := hsound.valid_tip htip
  have hutxos : chain.mempool.confirmedUtxos = chain.state.utxoSet := hsound.utxoSet
  have hseen : chain.mempool.seenTxids = chain.state.seenTxids := hsound.seenTxids
  have hcoherent : chain.mempool.Coherent := hsound.coherent
  have htipValid := (validateBlockStructure_iff tip).mp hvalid.tip_structure
  have hselects := Mempool.selectedEntries_selects chain.mempool maxTransactions maxBytes
  rcases hselects.processes hcoherent hsound.pool_recorded with
    ⟨working, final, hprocesses, hrest⟩
  rw [hutxos, hseen] at hprocesses
  rw [hseen] at hrest
  have hfresh : (rewardTransaction minerAddress timestamp
      (selectedFees chain maxTransactions maxBytes)).txid ∉
      seenAfter chain.state.seenTxids
        ((chain.mempool.selectedEntries maxTransactions maxBytes).map
          (fun item => item.2.transaction)) := by
    unfold seenAfter
    rw [Finset.mem_union, List.mem_toFinset, not_or]
    refine ⟨hunused.left, ?_⟩
    intro hmem
    apply hunused.right
    rw [List.map_map] at hmem
    rcases List.mem_map.mp hmem with ⟨item, hitem, htxid⟩
    rw [← htxid]
    exact hcoherent.txid_mem_keys (hselects.subset item hitem)
  rcases Template.create wallClock htipValid hminer hearly hprocesses hfresh with
    ⟨template, hcreate, htemplate⟩
  refine ⟨template, working, final, ?_, htemplate, hprocesses, hrest, hfresh⟩
  unfold createMempoolBlockTemplate createBlockTemplate
  rw [husable, Mempool.selectTransactions_ok _ hcount hbytes, htip]
  exact hcreate

theorem template_step {chain : Blockchain} (h : Reachable chain) {tip template : Block}
    (htip : chain.blocks.getLast? = some tip) {minerAddress : Str}
    (hminer : validateAddress minerAddress = true) {timestamp now : Int}
    (hearly : tip.timestamp ≤ timestamp)
    (hlate : timestamp ≤ now + MAX_FUTURE_BLOCK_TIME) {transactions : List Transaction}
    {fees : List Int} {working : UTXOSet}
    (htemplate : Template tip minerAddress timestamp transactions fees.sum template)
    (hprocesses : Processes chain.state.utxoSet chain.state.seenTxids transactions fees
      working)
    (hfresh : (rewardTransaction minerAddress timestamp fees.sum).txid ∉
      seenAfter chain.state.seenTxids transactions) {nonce : Int}
    (hnonce : isValidNonce nonce = true)
    (hpow : validateProofOfWork (mined template nonce) = true)
    (hfree : CollisionFreeOn (HeaderOf chain.blocks (mined template nonce))) :
    ram.step (.addBlock (mined template nonce) (Clock.at_ now)) chain =
      (.ok true,
        { chain with
          blocks := chain.blocks ++ [mined template nonce]
          state := stateAfter (rewardTransaction minerAddress timestamp fees.sum)
            transactions chain.state working
          mempool := chain.mempool.revalidated
            (stateAfter (rewardTransaction minerAddress timestamp fees.sum) transactions
              chain.state working).utxoSet
            (stateAfter (rewardTransaction minerAddress timestamp fees.sum) transactions
              chain.state working).seenTxids }) := by
  rcases reachable_sound h with ⟨hsound, husable⟩
  have hvalid : ValidChain chain.blocks tip chain.state := hsound.valid_tip htip
  have htipValid := (validateBlockStructure_iff tip).mp hvalid.tip_structure
  have htime : 0 ≤ timestamp := Int.le_trans htipValid.timestamp hearly
  have hlinked := (htemplate.linkedUpToWork hvalid.tip_structure hminer hearly hprocesses
    hfresh hnonce).linked hpow
  have happly : applyBlockTransactions (mined template nonce) chain.state = _ :=
    htemplate.applies hminer htime hvalid.ledger.recorded hprocesses hfresh
  have htimely : (mined template nonce).timestamp ≤ now + MAX_FUTURE_BLOCK_TIME := by
    change template.timestamp ≤ _
    rw [htemplate.timestamp]
    exact hlate
  exact ram_addBlock husable htip (reachable_clock h htip hearly hlate) hlinked htimely happly
    (fun other hother => hvalid.hash_new hlinked hfree hother)

/-- A template is always made, its coinbase claims the subsidy and the cached fees,
and once mined it is accepted and takes exactly the selected entries from the
pool. -/
theorem template_accepted {chain : Blockchain} (h : Reachable chain) {tip : Block}
    (htip : chain.blocks.getLast? = some tip) {minerAddress : Str}
    (hminer : validateAddress minerAddress = true) {maxTransactions maxBytes : Int}
    (hcount : 0 ≤ maxTransactions) (hbytes : 0 ≤ maxBytes) {timestamp now : Int}
    (hearly : tip.timestamp ≤ timestamp)
    (hlate : timestamp ≤ now + MAX_FUTURE_BLOCK_TIME) (wallClock : Nat)
    (hunused : forall coinbase,
      createCoinbaseTransaction minerAddress timestamp
          (selectedFees chain maxTransactions maxBytes) = .ok coinbase ->
        coinbase.txid ∉ chain.state.seenTxids ∧
          coinbase.txid ∉ chain.mempool.entries.keys) :
    exists template coinbase,
      createMempoolBlockTemplate chain minerAddress (some timestamp) wallClock
          maxTransactions maxBytes = .ok template ∧
        template.transactions = coinbase ::
          (chain.mempool.selectedEntries maxTransactions maxBytes).map
            (fun item => item.2.transaction) ∧
        coinbase.outputs =
          [⟨BLOCK_SUBSIDY + selectedFees chain maxTransactions maxBytes, minerAddress⟩] ∧
        forall nonce, isValidNonce nonce = true ->
          validateProofOfWork (mined template nonce) = true ->
          CollisionFreeOn (HeaderOf chain.blocks (mined template nonce)) ->
          exists after,
            ram.step (.addBlock (mined template nonce) (Clock.at_ now)) chain =
                (.ok true, after) ∧
              after.mempool.entries.items = chain.mempool.unselected
                (chain.mempool.selectedEntries maxTransactions maxBytes) := by
  rcases reachable_sound h with ⟨hsound, _⟩
  have hvalid : ValidChain chain.blocks tip chain.state := hsound.valid_tip htip
  have hseen : chain.mempool.seenTxids = chain.state.seenTxids := hsound.seenTxids
  have hcoherent : chain.mempool.Coherent := hsound.coherent
  have htipValid := (validateBlockStructure_iff tip).mp hvalid.tip_structure
  have htime : 0 ≤ timestamp := Int.le_trans htipValid.timestamp hearly
  have hselects := Mempool.selectedEntries_selects chain.mempool maxTransactions maxBytes
  have hfees : 0 ≤ selectedFees chain maxTransactions maxBytes := by
    rcases hselects.processes hcoherent hsound.pool_recorded with ⟨_, _, hprocesses, _⟩
    exact hprocesses.fees_nonneg
  have hunused' := hunused _ (rewardTransaction_valid hminer htime hfees).left
  rcases mempoolTemplate h htip hminer hcount hbytes hearly wallClock hunused' with
    ⟨template, working, final, hcreate, htemplate, hprocesses, hrest, hfresh⟩
  refine ⟨template, _, hcreate, htemplate.transactions, rfl, ?_⟩
  intro nonce hnonce hpow hfree
  refine ⟨_, template_step h htip hminer hearly hlate htemplate hprocesses hfresh hnonce hpow
    hfree, ?_⟩
  have hextends := (reward_applies hvalid.ledger.recorded hprocesses rfl hfresh).right
  have hothers : forall transaction, transaction ∈ (chain.mempool.unselected
      (chain.mempool.selectedEntries maxTransactions maxBytes)).map
        (fun item => item.2.transaction) ->
      transaction.txid ≠ (rewardTransaction minerAddress timestamp
        (selectedFees chain maxTransactions maxBytes)).txid := by
    intro transaction htransaction htxid
    rcases List.mem_map.mp htransaction with ⟨item, hitem, hitemEq⟩
    apply hunused'.right
    rw [← htxid, ← hitemEq]
    exact hcoherent.txid_mem_keys (List.mem_filter.mp hitem).left
  rcases hrest.extend hextends hothers with ⟨last, hlast⟩
  rw [← hseen] at hlast
  have hpool := hselects.revalidated hcoherent hunused'.right hlast
  rw [hseen] at hpool
  exact hpool

end Blockchain

end Templates

/-!
## The sample network

The second block of the sample network is the mined template of the instance that
waits for it.
-/

namespace Sample

theorem waiting_contents :
    waiting.blocks = [genesis, first] ∧
      @validateAddress crypto address = true ∧ @validateProofOfWork crypto second = true ∧
      forall x, x ∈ [genesis, first, second] -> forall y, y ∈ [genesis, first, second] ->
        crypto.sha256 x.header.toBytes = crypto.sha256 y.header.toBytes -> x = y := by
  decide +kernel

theorem waiting_template :
    (@Blockchain.createMempoolBlockTemplate crypto waiting address (some 1788652920) 0 100
        100000 = .ok (Blockchain.mined second 0) ∧
      waiting.mempool.selectedEntries 100 100000 = waiting.mempool.entries.items ∧
      waiting.selectedFees 100 100000 = 20) ∧
      @createCoinbaseTransaction crypto address 1788652920 20 = .ok secondCoinbase ∧
      @Transaction.txid crypto secondCoinbase ∉ waiting.state.seenTxids ∧
      @Transaction.txid crypto secondCoinbase ∉ waiting.mempool.entries.keys := by
  decide +kernel

theorem headers_collisionFree :
    @CollisionFreeOn crypto (HeaderOf waiting.blocks second) := by
  rcases waiting_contents with ⟨hblocks, _, _, hheaders⟩
  apply @headers_free crypto waiting.blocks second [genesis, first, second]
  · rw [hblocks]
    rfl
  · exact hheaders

end Sample

/-- The template of the waiting instance is the second block, and mining it empties
the pool. -/
theorem Blockchain.template_accepted_sample :
    exists after,
      @Blockchain.createMempoolBlockTemplate Sample.crypto Sample.waiting Sample.address
          (some 1788652920) 0 100 100000 = .ok (Blockchain.mined Sample.second 0) ∧
        (@Blockchain.ram Sample.crypto).step
            (.addBlock (Blockchain.mined (Blockchain.mined Sample.second 0) 15)
              (Clock.at_ 1788652920)) Sample.waiting = (.ok true, after) ∧
        after.mempool.entries.items = [] := by
  rcases Sample.waiting_contents with ⟨hblocks, haddress, hwork, _⟩
  rcases Sample.waiting_template with ⟨⟨htemplate, hselected, hfees⟩, hreward, hunused⟩
  have hmined : Blockchain.mined (Blockchain.mined Sample.second 0) 15 = Sample.second := rfl
  rcases @Blockchain.template_accepted Sample.crypto Sample.waiting Sample.waiting_reachable
    Sample.first (by rw [hblocks]; rfl) Sample.address haddress 100 100000 (by decide)
    (by decide) 1788652920 1788652920 (by decide) (by decide) 0 (by
      intro coinbase hcoinbase
      rw [hfees, hreward] at hcoinbase
      cases hcoinbase
      exact hunused) with
    ⟨template, coinbase, hcreate, _, _, haccepted⟩
  rw [htemplate] at hcreate
  cases hcreate
  rcases haccepted 15 (by decide) (by rw [hmined]; exact hwork)
    (by rw [hmined]; exact Sample.headers_collisionFree) with ⟨after, hstep, hpool⟩
  refine ⟨after, htemplate, hstep, ?_⟩
  rw [hpool, hselected]
  apply List.filter_eq_nil_iff.mpr
  intro item hitem
  simpa using ⟨item.2, hitem⟩

end PyChain
