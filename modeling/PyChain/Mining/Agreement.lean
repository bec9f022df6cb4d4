import PyChain.Mining.BlockTemplate

/-!
# Templates and the validator

The builder of templates and the validator of blocks check different things in
different orders.  This module compares the two.  For an explicit timestamp they
agree on everything but the proof of work.  Without one, the builder looks at the
tip and the clock, and the validator at the clock alone.
-/

namespace PyChain

open Foundation
open Blockchain (rewardTransaction mined)

section Agreement

variable [Crypto]

/-- `validate_and_apply_block` without the proof of work. -/
def validateAndApplyUpToWork (block previousBlock : Block) (state : ChainState)
    (clock : Clock) : Except PyError (Option ChainState) := do
  let valid <- validateHeaderUpToWork block previousBlock clock
  if valid = false then .ok none else .ok (applyBlockTransactions block state)

theorem validateAndApplyUpToWork_eq_ok_some_iff (block previousBlock : Block)
    (state next : ChainState) {clock : Clock} {now : Int}
    (hnow : resolveCurrentTime clock = .ok now) :
    validateAndApplyUpToWork block previousBlock state clock = .ok (some next) <->
      LinkedUpToWork block previousBlock ∧
        block.timestamp ≤ now + MAX_FUTURE_BLOCK_TIME ∧
        applyBlockTransactions block state = some next := by
  rcases validateHeaderUpToWork_eq block previousBlock hnow with ⟨answer, hanswer, hiff⟩
  unfold validateAndApplyUpToWork
  rw [hanswer]
  change (if answer = false then Except.ok none else _) = _ <-> _
  rw [← and_assoc, ← hiff]
  cases answer with
  | false =>
      simp
  | true =>
      simp

/-- Nothing but the proof of work separates the two validators. -/
theorem validateAndApplyBlock_eq_upToWork (block previousBlock : Block)
    (state next : ChainState) (clock : Clock) :
    validateAndApplyBlock block previousBlock state clock = .ok (some next) <->
      validateAndApplyUpToWork block previousBlock state clock = .ok (some next) ∧
        validateProofOfWork block = true := by
  unfold validateAndApplyBlock validateAndApplyUpToWork
  rw [validateBlockHeader_eq_upToWork]
  cases validateHeaderUpToWork block previousBlock clock with
  | error e =>
      simp [bind, Except.bind, Except.map]
  | ok valid =>
      cases valid with
      | false => simp [bind, Except.bind, Except.map]
      | true =>
          cases validateProofOfWork block with
          | false => simp [bind, Except.bind, Except.map]
          | true => simp [bind, Except.bind, Except.map]

/-!
## Explicit timestamps
-/

/-- A block on the tip with the coinbase that pays the miner the subsidy and the fees
of the given transactions, which the validator accepts up to the proof of work. -/
structure ValidBody (tip : Block) (state : ChainState) (clock : Clock) (minerAddress : Str)
    (transactions : List Transaction) (timestamp : Int) (block : Block) : Prop where
  body : exists batch,
    applyTransactions transactions state.utxoSet state.seenTxids = .ok batch ∧
      block.transactions =
        rewardTransaction minerAddress timestamp batch.totalFees :: transactions
  valid : exists next, validateAndApplyUpToWork block tip state clock = .ok (some next)

omit [Crypto] in
theorem mined_self {template : Block} (h : template.nonce = 0) :
    mined template 0 = template := by
  unfold mined
  rw [← h]

section Tips

variable {tip : Block} {state : ChainState} {minerAddress : Str} {timestamp now : Int}
  {transactions : List Transaction} {wallClock : Nat}

theorem createBlockTemplate_inv {template : Block} (htip : StructureValid tip)
    (h : createBlockTemplate tip minerAddress (some transactions) (some timestamp)
      wallClock (some state.utxoSet) (some state.seenTxids) = .ok template) :
    exists fees working,
      Processes state.utxoSet state.seenTxids transactions fees working ∧
        (rewardTransaction minerAddress timestamp fees.sum).txid ∉
          seenAfter state.seenTxids transactions ∧
        Blockchain.Template tip minerAddress timestamp transactions fees.sum template ∧
        template.nonce = 0 := by
  unfold createBlockTemplate at h
  simp only [bind_eq_ok_iff, require_eq_ok_iff, Option.getD_some] at h
  rcases h with ⟨_, _, resolved, hresolved, _, _, _, _, _, _, _, _, result, hresult,
    coinbase, hcoinbase, _, hunused, difficulty, hdifficulty, hblock⟩
  rcases bind_eq_ok_iff.mp hresolved with ⟨_, _, heq⟩
  cases heq
  rw [expectedDifficulty_of_valid htip.difficulty] at hdifficulty
  cases hdifficulty
  unfold templateBatch at hresult
  rcases map_eq_ok_iff.mp hresult with ⟨batch, hbatch, hsome⟩
  subst hsome
  rcases (applyTransactions_eq_ok_iff _ _ _ _).mp hbatch with ⟨fees, hprocesses, hseen, htotal⟩
  unfold createCoinbaseTransaction at hcoinbase
  simp only [bind_eq_ok_iff, require_eq_ok_iff] at hcoinbase
  rcases hcoinbase with ⟨_, _, _, _, _, _, hreward⟩
  have hreward' : rewardTransaction minerAddress timestamp fees.sum = coinbase := by
    rw [← Except.ok.inj hreward, ← htotal]
    rfl
  subst hreward'
  rcases (Block.create_eq_ok_iff _ _ _ _ _ _ _).mp hblock with
    ⟨hroot, htransactions, hprevious, hstamp, hversion, hdifficulty, hnonce⟩
  refine ⟨fees, batch.utxoSet, hprocesses, ?_, ?_, hnonce⟩
  · have hfresh := hunused batch rfl
    rw [hseen] at hfresh
    exact hfresh
  · refine ⟨htransactions, hprevious, hstamp, hversion, hdifficulty, ?_⟩
    rw [htransactions]
    exact hroot

theorem Blockchain.Template.validBody {template : Block} {fees : List Int} {working : UTXOSet}
    (h : Blockchain.Template tip minerAddress timestamp transactions fees.sum template)
    (hnonce : template.nonce = 0) (htip : validateBlockStructure tip = true)
    (hminer : validateAddress minerAddress = true) (hnow : 0 ≤ now)
    (hearly : tip.timestamp ≤ timestamp)
    (hlate : timestamp ≤ now + MAX_FUTURE_BLOCK_TIME)
    (hrecorded : RecordedOutputs state.utxoSet state.seenTxids)
    (hprocesses : Processes state.utxoSet state.seenTxids transactions fees working)
    (hunused : (rewardTransaction minerAddress timestamp fees.sum).txid ∉
      seenAfter state.seenTxids transactions) :
    ValidBody tip state (Clock.at_ now) minerAddress transactions timestamp template := by
  have htime : 0 ≤ timestamp :=
    Int.le_trans ((validateBlockStructure_iff tip).mp htip).timestamp hearly
  have hlinked := h.linkedUpToWork htip hminer hearly hprocesses hunused
    (show isValidNonce 0 = true by decide)
  have happlies : applyBlockTransactions (mined template 0) state = _ :=
    h.applies hminer htime hrecorded hprocesses hunused
  rw [mined_self hnonce] at hlinked happlies
  refine ⟨⟨_, (applyTransactions_eq_ok_iff transactions state.utxoSet state.seenTxids
    ⟨working, seenAfter state.seenTxids transactions, fees.sum⟩).mpr
      ⟨fees, hprocesses, rfl, rfl⟩, h.transactions⟩, _,
    (validateAndApplyUpToWork_eq_ok_some_iff template tip state _
      (resolveCurrentTime_at_ hnow)).mpr ⟨hlinked, ?_, happlies⟩⟩
  rw [h.timestamp]
  exact hlate

theorem ValidBody.processes {block : Block} (hnow : 0 ≤ now)
    (h : ValidBody tip state (Clock.at_ now) minerAddress transactions timestamp block) :
    exists fees working,
      Processes state.utxoSet state.seenTxids transactions fees working ∧
        (rewardTransaction minerAddress timestamp fees.sum).txid ∉
          seenAfter state.seenTxids transactions ∧
        block.transactions =
          rewardTransaction minerAddress timestamp fees.sum :: transactions ∧
        LinkedUpToWork block tip := by
  rcases h.body with ⟨batch, hbatch, hbody⟩
  rcases h.valid with ⟨next, hvalid⟩
  rcases (validateAndApplyUpToWork_eq_ok_some_iff block tip state next
    (resolveCurrentTime_at_ hnow)).mp hvalid with ⟨hlinked, _, happly⟩
  rcases (applyBlockTransactions_eq_some_iff _ _ _).mp happly with
    ⟨coinbase, regular, fees, working, happlied⟩
  have hparts := happlied.transactions
  rw [hbody] at hparts
  rcases List.cons.inj hparts with ⟨hcoinbase, hregular⟩
  subst hregular
  have hfees : batch.totalFees = fees.sum := by
    have hagain := (applyTransactions_eq_ok_iff transactions state.utxoSet state.seenTxids
      ⟨working, seenAfter state.seenTxids transactions, fees.sum⟩).mpr
        ⟨fees, happlied.processes, rfl, rfl⟩
    rw [hbatch] at hagain
    rw [Except.ok.inj hagain]
  rw [hfees] at hcoinbase hbody
  refine ⟨fees, working, happlied.processes, ?_, hbody, hlinked⟩
  have hnew := happlied.coinbase_new
  rw [← hcoinbase] at hnew
  exact hnew

theorem ValidBody.eq_mined {template block : Block} {fees : List Int} {working : UTXOSet}
    (hnow : 0 ≤ now)
    (h : Blockchain.Template tip minerAddress timestamp transactions fees.sum template)
    (hprocesses : Processes state.utxoSet state.seenTxids transactions fees working)
    (hblock : ValidBody tip state (Clock.at_ now) minerAddress transactions timestamp
      block) : block = mined template block.nonce := by
  rcases hblock.processes hnow with ⟨fees', working', hprocesses', _, hbody, hlinked⟩
  have hfees : fees' = fees := by
    rw [hprocesses.fees_eq, hprocesses'.fees_eq]
  subst hfees
  have hstructure := (validateBlockStructure_iff block).mp hlinked.structure_
  have hsame : block.transactions = template.transactions := by
    rw [hbody, h.transactions]
  have hroot : block.merkleRoot = template.merkleRoot := by
    have hroots := hstructure.merkleRoot
    rw [hsame, h.merkleRoot] at hroots
    exact (Except.ok.inj hroots).symm
  have hstamp : block.timestamp = template.timestamp := by
    have hbodyValid := hlinked.body
    unfold validateNonGenesisBlockBody at hbodyValid
    rw [hbody] at hbodyValid
    simp only at hbodyValid
    split at hbodyValid
    · cases hbodyValid
    · rename_i hcoinbase
      rcases (validateCoinbaseStructure_iff _ _).mp (by simpa using hcoinbase) with
        ⟨_, _, _, htime, _⟩
      rw [h.timestamp]
      exact htime.symm
  cases block with
  | mk transactions' previousBlockHash timestamp' version difficulty nonce merkleRoot =>
      unfold mined
      cases template
      simp only [Block.mk.injEq]
      exact ⟨hsame, hlinked.previousHash.trans h.previousBlockHash.symm, hstamp,
        hstructure.version.trans h.version.symm,
        hlinked.difficulty.trans h.difficulty.symm, trivial, hroot⟩

end Tips

namespace Blockchain

theorem createBlockTemplate_eq {chain : Blockchain} (h : Reachable chain) {tip : Block}
    (htip : chain.blocks.getLast? = some tip) (minerAddress : Str)
    (transactions : Option (List Transaction)) (timestamp : Option Int) (wallClock : Nat) :
    createBlockTemplate chain minerAddress transactions timestamp wallClock =
      PyChain.createBlockTemplate tip minerAddress transactions timestamp wallClock
        (some chain.state.utxoSet) (some chain.state.seenTxids) := by
  unfold createBlockTemplate
  rw [(reachable_sound h).right, htip]
  rfl

/-- With an explicit timestamp a template is made exactly when a block with its body
passes the validator up to the proof of work, and it is that block. -/
theorem template_iff_valid {chain : Blockchain} (h : Reachable chain) {tip : Block}
    (htip : chain.blocks.getLast? = some tip) {minerAddress : Str}
    (hminer : validateAddress minerAddress = true) (transactions : List Transaction)
    {timestamp now : Int} (hearly : tip.timestamp ≤ timestamp)
    (hlate : timestamp ≤ now + MAX_FUTURE_BLOCK_TIME) (wallClock : Nat) :
    ((exists template,
        createBlockTemplate chain minerAddress (some transactions) (some timestamp)
          wallClock = .ok template) <->
      exists block, ValidBody tip chain.state (Clock.at_ now) minerAddress transactions
        timestamp block) ∧
      forall template,
        createBlockTemplate chain minerAddress (some transactions) (some timestamp)
          wallClock = .ok template ->
        ValidBody tip chain.state (Clock.at_ now) minerAddress transactions timestamp
            template ∧
          forall block, ValidBody tip chain.state (Clock.at_ now) minerAddress
            transactions timestamp block -> block = mined template block.nonce := by
  have hsound := (reachable_sound h).left
  have hvalid : ValidChain chain.blocks tip chain.state := hsound.valid_tip htip
  have htipValid := (validateBlockStructure_iff tip).mp hvalid.tip_structure
  have hnow := reachable_clock h htip hearly hlate
  have hmade : forall template,
      createBlockTemplate chain minerAddress (some transactions) (some timestamp)
        wallClock = .ok template ->
      ValidBody tip chain.state (Clock.at_ now) minerAddress transactions timestamp
          template ∧
        forall block, ValidBody tip chain.state (Clock.at_ now) minerAddress
          transactions timestamp block -> block = mined template block.nonce := by
    intro template hcreate
    rw [createBlockTemplate_eq h htip] at hcreate
    rcases createBlockTemplate_inv htipValid hcreate with
      ⟨fees, working, hprocesses, hunused, htemplate, hnonce⟩
    refine ⟨htemplate.validBody hnonce hvalid.tip_structure hminer hnow hearly hlate
      hvalid.ledger.recorded hprocesses hunused, ?_⟩
    intro block hblock
    exact hblock.eq_mined hnow htemplate hprocesses
  refine ⟨⟨?_, ?_⟩, hmade⟩
  · intro hcreate
    rcases hcreate with ⟨template, hcreate⟩
    exact ⟨template, (hmade template hcreate).left⟩
  · intro hblock
    rcases hblock with ⟨block, hblock⟩
    rcases hblock.processes hnow with ⟨fees, working, hprocesses, hunused, _, _⟩
    rcases Template.create wallClock htipValid hminer hearly hprocesses hunused with
      ⟨template, hcreate, _⟩
    refine ⟨template, ?_⟩
    rw [createBlockTemplate_eq h htip]
    exact hcreate

end Blockchain

/-!
## Timestamps from the clock
-/

theorem ValidChain.coinbase_time {blocks : List Block} {tip : Block} {state : ChainState}
    (h : ValidChain blocks tip state) {block : Block} (hblock : block ∈ blocks)
    {transaction : Transaction} (htransaction : transaction ∈ block.transactions)
    (hinputs : transaction.inputs = []) : transaction.timestamp ≤ tip.timestamp := by
  induction h with
  | genesis _ hgenesis =>
      rw [List.mem_singleton.mp hblock, ((isGenesisBlock_iff _).mp hgenesis).left]
        at htransaction
      cases htransaction
  | @extend blocks tip newTip state next _ hlinked _ _ ih =>
      rcases List.mem_append.mp hblock with hold | hnew
      · exact Int.le_trans (ih hold) hlinked.timestamp
      · rw [List.mem_singleton.mp hnew] at htransaction
        have hbody := hlinked.body
        unfold validateNonGenesisBlockBody at hbody
        cases htransactions : newTip.transactions with
        | nil =>
            rw [htransactions] at htransaction
            cases htransaction
        | cons coinbase regular =>
            rw [htransactions] at htransaction hbody
            simp only at hbody
            split at hbody
            · cases hbody
            · rename_i hcoinbase
              rcases List.mem_cons.mp htransaction with heq | hregular
              · rcases (validateCoinbaseStructure_iff _ _).mp (by simpa using hcoinbase) with
                  ⟨_, _, _, htime, _⟩
                rw [heq, htime]
              · have hnonempty := List.all_eq_true.mp hbody transaction hregular
                rw [hinputs] at hnonempty
                cases hnonempty

/-- Among identifiers that do not collide, that of a coinbase younger than the tip is
not a confirmed one. -/
theorem ValidChain.young_coinbase_new {blocks : List Block} {tip : Block}
    {state : ChainState} (h : ValidChain blocks tip state) {coinbase : Transaction}
    (hinputs : coinbase.inputs = []) (hyoung : tip.timestamp < coinbase.timestamp)
    {named : Bytes -> Prop} (hself : named coinbase.encoding)
    (hconfirmed : forall block, block ∈ blocks -> forall transaction,
      transaction ∈ block.transactions -> named transaction.encoding)
    (hfree : CollisionFreeOn named) : coinbase.txid ∉ state.seenTxids := by
  intro hseen
  rcases (h.ledger.mem_seen_iff _).mp hseen with
    ⟨block, transaction, hblock, htransaction, htxid⟩
  have hencoding := hfree.hex_injective (hconfirmed block hblock transaction htransaction)
    hself htxid
  rw [Transaction.encoding_injective hencoding] at htransaction
  have htime := h.coinbase_time hblock htransaction hinputs
  omega

namespace Blockchain

/-- The timestamp that the builder picks when none is given. -/
def pickedTimestamp (tip : Block) (wallClock : Nat) : Int :=
  max (wallClock : Int) (tip.timestamp + 1)

theorem createBlockTemplate_none {chain : Blockchain} (h : Reachable chain)
    {tip : Block} (htip : chain.blocks.getLast? = some tip) (minerAddress : Str)
    (transactions : Option (List Transaction)) (wallClock : Nat) :
    createBlockTemplate chain minerAddress transactions none wallClock =
      createBlockTemplate chain minerAddress transactions
        (some (pickedTimestamp tip wallClock)) wallClock := by
  have hvalid : ValidChain chain.blocks tip chain.state :=
    (reachable_sound h).left.valid_tip htip
  have htime := ((validateBlockStructure_iff tip).mp hvalid.tip_structure).timestamp
  have hpicked : 0 ≤ pickedTimestamp tip wallClock := by
    unfold pickedTimestamp
    omega
  rw [createBlockTemplate_eq h htip, createBlockTemplate_eq h htip]
  unfold PyChain.createBlockTemplate
  have hnone : resolveTimestamp none wallClock = .ok (wallClock : Int) := rfl
  have hsome : resolveTimestamp (some (pickedTimestamp tip wallClock)) wallClock =
      .ok (pickedTimestamp tip wallClock) :=
    bind_eq_ok_iff.mpr ⟨(), require_eq_ok_iff.mpr hpicked, rfl⟩
  rw [hnone, hsome]
  rfl

theorem createMempoolBlockTemplate_none {chain : Blockchain} (h : Reachable chain)
    {tip : Block} (htip : chain.blocks.getLast? = some tip) (minerAddress : Str)
    (wallClock : Nat) (maxTransactions maxBytes : Int) :
    createMempoolBlockTemplate chain minerAddress none wallClock maxTransactions maxBytes =
      createMempoolBlockTemplate chain minerAddress (some (pickedTimestamp tip wallClock))
        wallClock maxTransactions maxBytes := by
  unfold createMempoolBlockTemplate
  simp only [createBlockTemplate_none h htip]

theorem young_coinbase_unused {chain : Blockchain} (h : Reachable chain) {tip : Block}
    (htip : chain.blocks.getLast? = some tip) {coinbase : Transaction}
    (hinputs : coinbase.inputs = []) (hyoung : tip.timestamp < coinbase.timestamp)
    (hfree : CollisionFreeOn (IdentifiedBy chain coinbase)) :
    coinbase.txid ∉ chain.state.seenTxids ∧
      coinbase.txid ∉ chain.mempool.entries.keys := by
  have hsound := (reachable_sound h).left
  have hvalid : ValidChain chain.blocks tip chain.state := hsound.valid_tip htip
  have hcoherent : chain.mempool.Coherent := hsound.coherent
  have hself : IdentifiedBy chain coinbase coinbase.encoding :=
    ⟨coinbase, Or.inr (Or.inr rfl), rfl⟩
  constructor
  · refine hvalid.young_coinbase_new hinputs hyoung hself ?_ hfree
    intro block hblock transaction htransaction
    exact ⟨transaction, Or.inl ⟨block, hblock, htransaction⟩, rfl⟩
  · intro hpending
    rw [hcoherent.keys_eq] at hpending
    rcases List.mem_map.mp hpending with ⟨transaction, htransaction, htxid⟩
    have hencoding := hfree.hex_injective
      ⟨transaction, Or.inr (Or.inl htransaction), rfl⟩ hself htxid
    rcases List.append_of_mem htransaction with ⟨before, after, hsplit⟩
    rcases hcoherent.processes.accepted_at before transaction after hsplit with
      ⟨_, _, _, _, haccepted, _⟩
    apply haccepted.inputs_ne_nil
    rw [Transaction.encoding_injective hencoding]
    exact hinputs

/-- The bytes behind the identifiers of a chain, of the transactions of a template and
of its coinbase. -/
def NamedBy (chain : Blockchain) (transactions : List Transaction) (coinbase : Transaction)
    (data : Bytes) : Prop :=
  exists transaction,
    ((exists block, block ∈ chain.blocks ∧ transaction ∈ block.transactions) ∨
        transaction ∈ transactions ∨ transaction = coinbase) ∧
      data = transaction.encoding

/-- Whatever the clock reads, a template without a timestamp is made from every list of
transactions that applies: its coinbase is younger than every block before it, so its
identifier is new. -/
theorem timeless_template_made {chain : Blockchain} (h : Reachable chain) {tip : Block}
    (htip : chain.blocks.getLast? = some tip) {minerAddress : Str}
    (hminer : validateAddress minerAddress = true) {transactions : List Transaction}
    {batch : TransactionBatch}
    (happlies : applyTransactions transactions chain.state.utxoSet chain.state.seenTxids =
      .ok batch) (wallClock : Nat)
    (hfree : CollisionFreeOn (NamedBy chain transactions (rewardTransaction minerAddress
      (pickedTimestamp tip wallClock) batch.totalFees))) :
    exists template coinbase,
      createBlockTemplate chain minerAddress (some transactions) none wallClock =
          .ok template ∧
        template.transactions = coinbase :: transactions ∧
        createCoinbaseTransaction minerAddress (max (wallClock : Int) (tip.timestamp + 1))
          batch.totalFees = .ok coinbase ∧
        coinbase.txid ∉ batch.seenTxids := by
  have hvalid : ValidChain chain.blocks tip chain.state :=
    (reachable_sound h).left.valid_tip htip
  have htipValid := (validateBlockStructure_iff tip).mp hvalid.tip_structure
  have hyoung : tip.timestamp < pickedTimestamp tip wallClock := by
    unfold pickedTimestamp
    omega
  have htime : 0 ≤ pickedTimestamp tip wallClock :=
    Int.le_trans htipValid.timestamp (Int.le_of_lt hyoung)
  rcases (applyTransactions_eq_ok_iff _ _ _ _).mp happlies with
    ⟨fees, hprocesses, hseen, htotal⟩
  rw [htotal] at hfree ⊢
  have hself : NamedBy chain transactions
      (rewardTransaction minerAddress (pickedTimestamp tip wallClock) fees.sum)
      (rewardTransaction minerAddress (pickedTimestamp tip wallClock) fees.sum).encoding :=
    ⟨_, Or.inr (Or.inr rfl), rfl⟩
  have hunused : (rewardTransaction minerAddress (pickedTimestamp tip wallClock)
      fees.sum).txid ∉ seenAfter chain.state.seenTxids transactions := by
    unfold seenAfter
    rw [Finset.mem_union, List.mem_toFinset, not_or]
    constructor
    · refine hvalid.young_coinbase_new rfl hyoung hself ?_ hfree
      intro block hblock transaction htransaction
      exact ⟨transaction, Or.inl ⟨block, hblock, htransaction⟩, rfl⟩
    · intro hmem
      rcases List.mem_map.mp hmem with ⟨transaction, htransaction, htxid⟩
      have hencoding := hfree.hex_injective
        ⟨transaction, Or.inr (Or.inl htransaction), rfl⟩ hself htxid
      rcases List.append_of_mem htransaction with ⟨before, after, hsplit⟩
      rcases hprocesses.accepted_at before transaction after hsplit with
        ⟨_, _, _, _, haccepted, _⟩
      apply haccepted.inputs_ne_nil
      rw [Transaction.encoding_injective hencoding]
      rfl
  rcases Template.create wallClock htipValid hminer (Int.le_of_lt hyoung) hprocesses
    hunused with ⟨template, hcreate, htemplate⟩
  refine ⟨template, _, ?_, htemplate.transactions,
    (rewardTransaction_valid hminer htime hprocesses.fees_nonneg).left, ?_⟩
  · rw [createBlockTemplate_none h htip, createBlockTemplate_eq h htip]
    exact hcreate
  · rw [hseen]
    exact hunused

theorem late_rejected {chain : Blockchain} {block : Block} {now : Int} (hnow : 0 ≤ now)
    (hlate : now + MAX_FUTURE_BLOCK_TIME < block.timestamp) (after : Blockchain) :
    ram.step (.addBlock block (Clock.at_ now)) chain ≠ (.ok true, after) := by
  intro hstep
  rcases ram_step_cases (.addBlock block (Clock.at_ now)) chain with
    ⟨answer, hanswer, heq⟩ | ⟨next, appended, hprepares, heq⟩
  · rw [heq] at hstep
    cases hstep
    exact hanswer rfl
  · cases hprepares with
    | addBlock _ hresolved _ htimely _ _ =>
        rw [resolveCurrentTime_at_ hnow] at hresolved
        cases hresolved
        omega

/-- A nonce that meets the target of a template, with a header that collides with no
header of the chain. -/
structure Mines (chain : Blockchain) (template : Block) (nonce : Int) : Prop where
  valid : isValidNonce nonce = true
  work : validateProofOfWork (mined template nonce) = true
  headers : CollisionFreeOn (HeaderOf chain.blocks (mined template nonce))

/-- A template that takes its timestamp from the clock is always made.  If it can be
mined at all, every mined one is accepted at that clock exactly when the tip is not
already as far ahead of the clock as a block may be. -/
theorem timeless_template_accepted_iff {chain : Blockchain} (h : Reachable chain)
    {tip : Block} (htip : chain.blocks.getLast? = some tip) {minerAddress : Str}
    (hminer : validateAddress minerAddress = true) {maxTransactions maxBytes : Int}
    (hcount : 0 ≤ maxTransactions) (hbytes : 0 ≤ maxBytes) (now : Nat)
    (hfree : CollisionFreeOn (IdentifiedBy chain (rewardTransaction minerAddress
      (pickedTimestamp tip now) (selectedFees chain maxTransactions maxBytes)))) :
    exists template,
      createMempoolBlockTemplate chain minerAddress none now maxTransactions maxBytes =
          .ok template ∧
        ((exists nonce, Mines chain template nonce) ->
          ((forall nonce, Mines chain template nonce -> exists after,
              ram.step (.addBlock (mined template nonce) (Clock.at_ now)) chain =
                (.ok true, after)) <->
            tip.timestamp < now + MAX_FUTURE_BLOCK_TIME)) := by
  have hyoung : tip.timestamp < pickedTimestamp tip now := by
    unfold pickedTimestamp
    omega
  have hunused := young_coinbase_unused h htip rfl hyoung hfree
  rcases mempoolTemplate h htip hminer hcount hbytes (Int.le_of_lt hyoung) now hunused with
    ⟨template, working, final, hcreate, htemplate, hprocesses, _, hfresh⟩
  rw [← createMempoolBlockTemplate_none h htip] at hcreate
  refine ⟨template, hcreate, ?_⟩
  intro hminable
  constructor
  · intro hall
    rcases hminable with ⟨nonce, hmines⟩
    rcases hall nonce hmines with ⟨after, hstep⟩
    by_contra hlate
    refine late_rejected (Int.natCast_nonneg now) ?_ after hstep
    change _ < template.timestamp
    rw [htemplate.timestamp]
    unfold pickedTimestamp
    omega
  · intro hearly nonce hmines
    have hlate : pickedTimestamp tip now ≤ now + MAX_FUTURE_BLOCK_TIME := by
      unfold pickedTimestamp
      unfold MAX_FUTURE_BLOCK_TIME at hearly ⊢
      omega
    exact ⟨_, template_step h htip hminer (Int.le_of_lt hyoung) hlate htemplate hprocesses
      hfresh hmines.valid hmines.work hmines.headers⟩

end Blockchain

end Agreement

/-!
## A tip at the limit

The first block of the sample network is accepted as early as it can be.  A template
for the clock of that moment is one second too late for it, and the same template is
fine an hour later.
-/

namespace Sample

def lateCoinbase : Transaction :=
  { inputs := []
    outputs := [{ amount := 50, recipientAddress := address }]
    timestamp := 1788652861
    version := 1 }

def lateCoinbaseTxid : Str :=
  hexString 64 0xc6893ba0f254aed9f7b8249b6fa4922a072bb365ae5177bedf48de7331cf101e

def late : Block :=
  { transactions := [lateCoinbase]
    previousBlockHash := firstHash
    timestamp := 1788652861
    version := 1
    difficulty := 16
    nonce := 30
    merkleRoot := lateCoinbaseTxid }

def lateHash : Str :=
  hexString 64 0x01072eb0e8c90bcc7692cb6a102d96a0319d65d3bd027f5bf0f827496cafc03f

def lateDigests : List (Bytes × Str) :=
  digests ++ [(lateCoinbase.encoding, lateCoinbaseTxid), (late.header.toBytes, lateHash)]

@[reducible]
def lateCrypto : Crypto where
  sha256 := tableSha256 lateDigests
  sha256_length := tableSha256_length lateDigests
  verifyingKeyFromString data := if data = publicKeyBytes then some ⟨data⟩ else none
  verify _ _ _ := false

/-- The instance that accepts the first block two hours before its timestamp. -/
def early : Blockchain :=
  (@Blockchain.ram lateCrypto).run [.addBlock first (Clock.at_ 1788645660)] start

theorem start_created_late :
    (@Blockchain.create lateCrypto Unit none clock none none ()).1 = .ok start := by
  have hgenesis : @createGenesisBlock lateCrypto = .ok genesis := by
    decide +kernel
  have hinitial : @Blockchain.initial lateCrypto clock none none = .ok start := by
    unfold Blockchain.initial
    rw [hgenesis]
    rfl
  unfold Blockchain.create
  rw [hinitial]

theorem early_reachable : @Blockchain.Reachable lateCrypto early :=
  ⟨clock, none, none, start, _, start_created_late, rfl⟩

theorem early_contents :
    early.blocks = [genesis, first] ∧ early.mempool.getTransactions = [] ∧
      early.selectedFees 100 100000 = 0 ∧
      @validateAddress lateCrypto address = true ∧
      @validateProofOfWork lateCrypto late = true ∧
      (forall x, x ∈ [coinbase, lateCoinbase] -> forall y, y ∈ [coinbase, lateCoinbase] ->
        lateCrypto.sha256 x.encoding = lateCrypto.sha256 y.encoding -> x = y) ∧
      forall x, x ∈ [genesis, first, late] -> forall y, y ∈ [genesis, first, late] ->
        lateCrypto.sha256 x.header.toBytes = lateCrypto.sha256 y.header.toBytes -> x = y := by
  decide +kernel

theorem early_identified :
    @CollisionFreeOn lateCrypto (Blockchain.IdentifiedBy early lateCoinbase) := by
  rcases early_contents with ⟨hblocks, hpool, _, _, _, hcoinbases, _⟩
  apply @Blockchain.identified_free lateCrypto early lateCoinbase [coinbase, lateCoinbase]
  · rw [hblocks, hpool]
    rfl
  · exact hcoinbases

theorem early_headers :
    @CollisionFreeOn lateCrypto (HeaderOf early.blocks late) := by
  rcases early_contents with ⟨hblocks, _, _, _, _, _, hheaders⟩
  apply @headers_free lateCrypto early.blocks late [genesis, first, late]
  · rw [hblocks]
    rfl
  · exact hheaders

theorem early_template :
    @Blockchain.createMempoolBlockTemplate lateCrypto early address none 1788652861 100
      100000 = .ok (Blockchain.mined late 0) := by
  decide +kernel

/-- The chain that the third block extends. -/
def grown : Blockchain :=
  (@Blockchain.ram familyCrypto).run
    [.addBlock first familyClock, .submitTransaction transfer, .addBlock second familyClock]
    start

theorem grown_reachable : @Blockchain.Reachable familyCrypto grown :=
  ⟨familyClock, none, none, start, _, start_created_family, rfl⟩

theorem grown_templates :
    grown.blocks = [genesis, first, second] ∧
      @validateAddress familyCrypto address = true ∧
      @Blockchain.createBlockTemplate familyCrypto grown address (some [spare, clash])
        (some 1788652980) 0 = .ok (Blockchain.mined third 0) ∧
      (@Blockchain.createBlockTemplate familyCrypto grown address (some [spare, child])
        (some 1788652980) 0).toOption = none := by
  decide +kernel

end Sample

/-- The template with two payments is the third block before it is mined, and no block
at all can hold the child of a missing parent. -/
theorem Blockchain.template_iff_valid_family :
    exists chain template, chain = Sample.grown ∧ template = Blockchain.mined Sample.third 0 ∧
      @Blockchain.createBlockTemplate Sample.familyCrypto chain Sample.address
          (some [Sample.spare, Sample.clash]) (some 1788652980) 0 = .ok template ∧
        @ValidBody Sample.familyCrypto Sample.second chain.state (Clock.at_ 1788652980)
          Sample.address [Sample.spare, Sample.clash] 1788652980 template ∧
        ¬ exists block,
          @ValidBody Sample.familyCrypto Sample.second chain.state (Clock.at_ 1788652980)
            Sample.address [Sample.spare, Sample.child] 1788652980 block := by
  have hsample : exists chain, chain = Sample.grown ∧
      @Blockchain.Reachable Sample.familyCrypto chain ∧
      chain.blocks = [Sample.genesis, Sample.first, Sample.second] ∧
      @validateAddress Sample.familyCrypto Sample.address = true ∧
      @Blockchain.createBlockTemplate Sample.familyCrypto chain Sample.address
        (some [Sample.spare, Sample.clash]) (some 1788652980) 0 =
          .ok (Blockchain.mined Sample.third 0) ∧
      (@Blockchain.createBlockTemplate Sample.familyCrypto chain Sample.address
        (some [Sample.spare, Sample.child]) (some 1788652980) 0).toOption = none :=
    ⟨Sample.grown, rfl, Sample.grown_reachable, Sample.grown_templates⟩
  rcases hsample with ⟨chain, heq, hreachable, hblocks, haddress, hmade, hfails⟩
  have hspec := fun transactions => @Blockchain.template_iff_valid Sample.familyCrypto chain
    hreachable Sample.second (by rw [hblocks]; rfl) Sample.address haddress transactions
    1788652980 1788652980 (by decide) (by decide) 0
  refine ⟨chain, _, heq, rfl, hmade, ((hspec _).right _ hmade).left, ?_⟩
  intro hblock
  rcases (hspec _).left.mpr hblock with ⟨template, htemplate⟩
  rw [htemplate] at hfails
  cases hfails

/-- A clock that went back to its start still gives a coinbase of its own. -/
theorem Blockchain.timeless_template_made_sample :
    exists chain template coinbase, chain = Sample.early ∧
      @Blockchain.createBlockTemplate Sample.lateCrypto chain Sample.address (some []) none 0 =
          .ok template ∧
        template.transactions = [coinbase] ∧ coinbase.timestamp = 1788652861 := by
  rcases Sample.early_contents with ⟨hearly, _, _, haddress, _⟩
  have hsample : exists chain, chain = Sample.early ∧
      @Blockchain.Reachable Sample.lateCrypto chain ∧
      chain.blocks = [Sample.genesis, Sample.first] ∧
      @CollisionFreeOn Sample.lateCrypto
        (Blockchain.IdentifiedBy chain Sample.lateCoinbase) :=
    ⟨Sample.early, rfl, Sample.early_reachable, hearly, Sample.early_identified⟩
  rcases hsample with ⟨chain, heq, hreachable, hblocks, hidentified⟩
  have happlies : @applyTransactions Sample.lateCrypto [] chain.state.utxoSet
      chain.state.seenTxids = .ok ⟨chain.state.utxoSet, chain.state.seenTxids, 0⟩ := rfl
  have hnamed : @CollisionFreeOn Sample.lateCrypto
      (Blockchain.NamedBy chain [] Sample.lateCoinbase) := by
    have hsub : forall data, Blockchain.NamedBy chain [] Sample.lateCoinbase data ->
        Blockchain.IdentifiedBy chain Sample.lateCoinbase data := by
      rintro data ⟨transaction, hblock | hlist | hself, hdata⟩
      · exact ⟨transaction, Or.inl hblock, hdata⟩
      · cases hlist
      · exact ⟨transaction, Or.inr (Or.inr hself), hdata⟩
    exact fun x y hx hy => hidentified x y (hsub x hx) (hsub y hy)
  rcases @Blockchain.timeless_template_made Sample.lateCrypto chain hreachable Sample.first
    (by rw [hblocks]; rfl) Sample.address haddress [] _ happlies 0 hnamed with ⟨template, coinbase, hmade, htransactions, hcoinbase, _⟩
  refine ⟨chain, template, coinbase, heq, hmade, htransactions, ?_⟩
  unfold createCoinbaseTransaction at hcoinbase
  simp only [bind_eq_ok_iff, require_eq_ok_iff] at hcoinbase
  rcases hcoinbase with ⟨_, _, _, _, _, _, hreward⟩
  rw [← Except.ok.inj hreward]
  rfl

/-- The first block is accepted at a clock, and at that same clock the template on it
is made and mined but not accepted. -/
theorem Blockchain.timeless_template_rejected :
    ((@Blockchain.ram Sample.lateCrypto).step
        (.addBlock Sample.first (Clock.at_ 1788645660)) Sample.start).1 = .ok true ∧
      @Blockchain.createMempoolBlockTemplate Sample.lateCrypto Sample.early Sample.address none
          1788645660 100 100000 = .ok (Blockchain.mined Sample.late 0) ∧
      @validateProofOfWork Sample.lateCrypto
          (Blockchain.mined (Blockchain.mined Sample.late 0) 30) = true ∧
      ((@Blockchain.ram Sample.lateCrypto).step
        (.addBlock (Blockchain.mined (Blockchain.mined Sample.late 0) 30)
          (Clock.at_ 1788645660)) Sample.early).1 = .ok false := by
  decide +kernel

theorem Blockchain.timeless_template_accepted_sample :
    exists chain template after, chain = Sample.early ∧
      @Blockchain.createMempoolBlockTemplate Sample.lateCrypto chain Sample.address none
          1788652861 100 100000 = .ok template ∧
        (@Blockchain.ram Sample.lateCrypto).step
            (.addBlock (Blockchain.mined template 30) (Clock.at_ 1788652861)) chain =
          (.ok true, after) := by
  rcases Sample.early_contents with ⟨hearly, _, hnofees, haddress, hwork, _⟩
  have htemplate := Sample.early_template
  have hsample : exists chain, chain = Sample.early ∧
      @Blockchain.Reachable Sample.lateCrypto chain ∧
      chain.blocks = [Sample.genesis, Sample.first] ∧ chain.selectedFees 100 100000 = 0 ∧
      @CollisionFreeOn Sample.lateCrypto
        (Blockchain.IdentifiedBy chain Sample.lateCoinbase) ∧
      @CollisionFreeOn Sample.lateCrypto (HeaderOf chain.blocks Sample.late) ∧
      @Blockchain.createMempoolBlockTemplate Sample.lateCrypto chain Sample.address none
        1788652861 100 100000 = .ok (Blockchain.mined Sample.late 0) :=
    ⟨Sample.early, rfl, Sample.early_reachable, hearly, hnofees, Sample.early_identified,
      Sample.early_headers, htemplate⟩
  rcases hsample with ⟨chain, heq, hreachable, hblocks, hfees, hidentified, hheaders, hmade⟩
  have hreward : Blockchain.rewardTransaction Sample.address
      (Blockchain.pickedTimestamp Sample.first 1788652861)
      (chain.selectedFees 100 100000) = Sample.lateCoinbase := by
    rw [hfees]
    rfl
  rcases @Blockchain.timeless_template_accepted_iff Sample.lateCrypto chain hreachable
    Sample.first (by rw [hblocks]; rfl) Sample.address haddress 100 100000 (by decide)
    (by decide) 1788652861 (by rw [hreward]; exact hidentified) with
    ⟨template, hcreate, haccepted⟩
  rw [hmade] at hcreate
  cases hcreate
  have hmines : @Blockchain.Mines Sample.lateCrypto chain
      (Blockchain.mined Sample.late 0) 30 :=
    @Blockchain.Mines.mk Sample.lateCrypto chain _ 30 (by decide) hwork hheaders
  rcases (haccepted ⟨30, hmines⟩).mpr (by decide) 30 hmines with ⟨after, hstep⟩
  exact ⟨chain, _, after, heq, hmade, hstep⟩

end PyChain
