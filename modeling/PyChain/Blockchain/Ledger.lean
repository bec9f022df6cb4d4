import PyChain.Blockchain.Soundness

/-!
# The confirmed ledger

A valid chain is one history of the general ledger: block after block, the
regular transactions of a block before its coinbase.  Conservation of value, the
exact contents of the ledger and the authorisation of spending follow from the
closed form of that history.
-/

namespace PyChain

open Foundation
open OutputLedger (Replay Applies post)

section Ledger

variable [Crypto]

/-!
## Chains as histories
-/

/-- All transactions of a chain in ledger order. -/
def chainHistory (blocks : List Block) : List Transaction :=
  blocks.flatMap Block.ledgerOrder

omit [Crypto] in
theorem chainHistory_append (xs ys : List Block) :
    chainHistory (xs ++ ys) = chainHistory xs ++ chainHistory ys :=
  List.flatMap_append

omit [Crypto] in
theorem mem_ledgerOrder (block : Block) (transaction : Transaction) :
    transaction ∈ block.ledgerOrder <-> transaction ∈ block.transactions := by
  unfold Block.ledgerOrder
  cases block.transactions with
  | nil =>
      rfl
  | cons coinbase regular =>
      rw [List.mem_append, List.mem_singleton, List.mem_cons]
      exact or_comm

omit [Crypto] in
theorem mem_chainHistory (blocks : List Block) (transaction : Transaction) :
    transaction ∈ chainHistory blocks <->
      exists block, block ∈ blocks ∧ transaction ∈ block.transactions := by
  unfold chainHistory
  simp only [List.mem_flatMap, mem_ledgerOrder]

omit [Crypto] in
theorem ledgerOrder_perm (block : Block) :
    block.transactions.Perm block.ledgerOrder := by
  unfold Block.ledgerOrder
  cases block.transactions with
  | nil => exact List.Perm.refl _
  | cons coinbase regular =>
      exact (List.perm_append_singleton coinbase regular).symm

omit [Crypto] in
theorem chainTransactions_perm (blocks : List Block) :
    (blocks.flatMap Block.transactions).Perm (chainHistory blocks) :=
  List.Perm.flatMap_left blocks (fun block _ => ledgerOrder_perm block)

omit [Crypto] in
theorem numbered_transactions (blocks : List Block) :
    blocks.zipIdx.flatMap (fun item => item.1.transactions) =
      blocks.flatMap Block.transactions := by
  have hblocks : blocks.zipIdx.map Prod.fst = blocks := List.zipIdx_map_fst 0 blocks
  conv_rhs => rw [← hblocks]
  rw [List.flatMap_map]

/-- What a valid chain says about its history. -/
structure ChainLedger (blocks : List Block) (state : ChainState) : Prop where
  replay : Replay Dict.empty (postings (chainHistory blocks)) state.utxoSet
  seen : state.seenTxids = seenAfter ∅ (chainHistory blocks)
  txids_nodup : ((chainHistory blocks).map Transaction.txid).Nodup

theorem ValidChain.ledger {blocks : List Block} {tip : Block} {state : ChainState}
    (h : ValidChain blocks tip state) : ChainLedger blocks state := by
  induction h with
  | @genesis block _ hgenesis =>
      have hempty : chainHistory [block] = [] := by
        have htransactions := ((isGenesisBlock_iff block).mp hgenesis).left
        simp [chainHistory, Block.ledgerOrder, htransactions]
      constructor
      · rw [hempty]
        exact Replay.nil _
      · rw [hempty, seenAfter_nil]
        rfl
      · rw [hempty]
        exact List.nodup_nil
  | @extend blocks tip block state next _ _ happly _ ih =>
      rcases (applyBlockTransactions_eq_some_iff _ _ _).mp happly with
        ⟨coinbase, regular, fees, working, happlied⟩
      rcases happlied.txids_new with ⟨hnodup, hnew⟩
      have hhistory : chainHistory (blocks ++ [block]) =
          chainHistory blocks ++ block.ledgerOrder := by
        simp [chainHistory]
      constructor
      · rw [hhistory]
        unfold postings
        rw [List.map_append]
        exact OutputLedger.replay_append ih.replay happlied.replay
      · rw [hhistory, seenAfter_append, ← ih.seen]
        exact happlied.seen_eq
      · rw [hhistory, List.map_append, List.nodup_append]
        refine ⟨ih.txids_nodup, hnodup, ?_⟩
        intro txid htxid other hother heq
        rcases List.mem_map.mp hother with ⟨transaction, htransaction, hother'⟩
        apply hnew transaction htransaction
        rw [ih.seen, hother', ← heq]
        exact Finset.mem_union_right _ (List.mem_toFinset.mpr htxid)

namespace ChainLedger

variable {blocks : List Block} {state : ChainState}

theorem freshIdents (h : ChainLedger blocks state) :
    OutputLedger.FreshIdents (Dict.empty : UTXOSet) (postings (chainHistory blocks)) where
  nodup := by
    have hnodup := h.txids_nodup
    unfold postings
    rw [List.map_map]
    exact hnodup
  fresh := by
    intro p _ k hk
    cases hk

theorem exact (h : ChainLedger blocks state) :
    OutputLedger.Exact Dict.empty (postings (chainHistory blocks)) state.utxoSet :=
  OutputLedger.replay_exact h.freshIdents h.replay

theorem mem_seen_iff (h : ChainLedger blocks state) (txid : Str) :
    txid ∈ state.seenTxids <->
      exists block transaction, block ∈ blocks ∧ transaction ∈ block.transactions ∧
        transaction.txid = txid := by
  rw [h.seen]
  simp only [seenAfter, Finset.mem_union, Finset.notMem_empty, false_or,
    List.mem_toFinset, List.mem_map, mem_chainHistory]
  constructor
  · intro hmem
    rcases hmem with ⟨transaction, ⟨block, hblock, htransaction⟩, htxid⟩
    exact ⟨block, transaction, hblock, htransaction, htxid⟩
  · intro hmem
    rcases hmem with ⟨block, transaction, hblock, htransaction, htxid⟩
    exact ⟨transaction, ⟨block, hblock, htransaction⟩, htxid⟩

theorem recorded (h : ChainLedger blocks state) :
    RecordedOutputs state.utxoSet state.seenTxids := by
  intro outpoint hmem
  rcases Dict.exists_get?_of_mem_keys hmem with ⟨output, hget⟩
  rcases ((h.exact.get?_iff outpoint output).mp hget).left with hbase | hcreated
  · cases hbase
  · rcases (mem_createdBy_iff _ _ _).mp hcreated with ⟨transaction, htransaction, hitem⟩
    rw [h.seen, outputItems_txid hitem]
    exact Finset.mem_union_right _
      (List.mem_toFinset.mpr (List.mem_map_of_mem htransaction))

end ChainLedger

/-- The bytes behind the identifiers of a chain, of its pool and of one more transaction. -/
def Blockchain.IdentifiedBy (chain : Blockchain) (added : Transaction) (data : Bytes) : Prop :=
  exists transaction,
    ((exists block, block ∈ chain.blocks ∧ transaction ∈ block.transactions) ∨
        transaction ∈ chain.mempool.getTransactions ∨ transaction = added) ∧
      data = transaction.encoding

theorem Blockchain.identified_free {chain : Blockchain} {added : Transaction}
    {transactions : List Transaction}
    (hlisted : chain.blocks.flatMap Block.transactions ++ chain.mempool.getTransactions ++
      [added] = transactions)
    (hall : forall x, x ∈ transactions -> forall y, y ∈ transactions ->
      Crypto.sha256 x.encoding = Crypto.sha256 y.encoding -> x = y) :
    CollisionFreeOn (Blockchain.IdentifiedBy chain added) := by
  have hmem : forall transaction,
      ((exists block, block ∈ chain.blocks ∧ transaction ∈ block.transactions) ∨
        transaction ∈ chain.mempool.getTransactions ∨ transaction = added) ->
      transaction ∈ transactions := by
    intro transaction htransaction
    rw [← hlisted, List.mem_append, List.mem_append, List.mem_flatMap, List.mem_singleton,
      or_assoc]
    exact htransaction
  intro x y hx hy heq
  rcases hx with ⟨a, ha, hxa⟩
  rcases hy with ⟨b, hb, hyb⟩
  rw [hxa, hyb] at heq
  rw [hxa, hyb, hall a (hmem a ha) b (hmem b hb) heq]

theorem Blockchain.Live.Sound.recorded {refs : Blockchain.Live} (h : refs.Sound) :
    RecordedOutputs refs.state.utxoSet refs.state.seenTxids := by
  rcases h.valid with ⟨tip, hvalid⟩
  exact hvalid.ledger.recorded

theorem Blockchain.Live.Sound.pool_recorded {refs : Blockchain.Live} (h : refs.Sound) :
    RecordedOutputs refs.mempool.confirmedUtxos refs.mempool.seenTxids := by
  rw [h.utxoSet, h.seenTxids]
  exact h.recorded

theorem ValidChain.block_inv {blocks before after : List Block} {block tip : Block}
    {state : ChainState} (h : ValidChain blocks tip state)
    (hblocks : blocks = before ++ block :: after) (hbody : block.transactions ≠ []) :
    exists previous parent next coinbase regular fees working,
      ValidChain before previous parent ∧
        BlockApplied block parent coinbase regular fees working next := by
  rcases h.take (before ++ [block]) after (by rw [hblocks]; simp) (by simp) with
    ⟨tip', next, hprefix⟩
  have hne : before ≠ [] := by
    intro hnil
    rw [hnil] at hprefix
    rcases hprefix.genesis_inv with ⟨_, _, _, hgenesis⟩
    exact hbody ((isGenesisBlock_iff block).mp hgenesis).left
  rcases hprefix.snoc_inv hne with ⟨previous, parent, hparent, _, _, happly, _⟩
  rcases (applyBlockTransactions_eq_some_iff _ _ _).mp happly with
    ⟨coinbase, regular, fees, working, happlied⟩
  exact ⟨previous, parent, next, coinbase, regular, fees, working, hparent, happlied⟩

/-!
## Conservation of value
-/

/-- The fee of one regular transaction, computed as the code computes it, and
the working set after it. -/
def recordFee (collected : List Int × UTXOSet) (transaction : Transaction) :
    Except PyError (List Int × UTXOSet) := do
  let fee <- calculateTransactionFee transaction collected.2
  let working <- collected.2.applyValidTransaction transaction
  return (collected.1 ++ [fee], working)

/-- The fees of one block, and the ledger after its coinbase. -/
def recordBlockFees (collected : List Int × UTXOSet) (block : Block) :
    Except PyError (List Int × UTXOSet) :=
  match block.transactions with
  | [] => .ok collected
  | coinbase :: regular => do
      let after <- regular.foldlM recordFee collected
      let utxoSet <- after.2.addTransactionOutputs coinbase
      return (after.1, utxoSet)

/-- The fees `calculate_transaction_fee` computes for the regular transactions
of a chain, each against the working set at its turn. -/
def chainFees (blocks : List Block) : Except PyError (List Int × UTXOSet) :=
  blocks.foldlM recordBlockFees ([], Dict.empty)

omit [Crypto] in
/-- The amounts paid by the coinbases of the blocks after the genesis block. -/
def coinbaseAmounts (blocks : List Block) : List Int :=
  blocks.tail.flatMap (fun block =>
    (block.transactions.take 1).flatMap (fun coinbase =>
      coinbase.outputs.map TxOutput.amount))

theorem Processes.recordFee_fold {utxos final : UTXOSet} {seen : Finset Str}
    {transactions : List Transaction} {fees : List Int}
    (h : Processes utxos seen transactions fees final) :
    forall collected, transactions.foldlM recordFee (collected, utxos) =
      .ok (collected ++ fees, final) := by
  induction h with
  | nil utxos seen =>
      intro collected
      rw [List.append_nil]
      rfl
  | @cons utxos final seen transaction rest fee fees hprocessed _ ih =>
      intro collected
      rw [foldlM_cons_eq_ok_iff]
      refine ⟨(collected ++ [fee], post utxos (UTXOSet.posting transaction)), ?_, ?_⟩
      · apply bind_eq_ok_iff.mpr
        refine ⟨fee, (calculateTransactionFee_eq_ok_iff _ _ _).mpr hprocessed.accepted, ?_⟩
        apply bind_eq_ok_iff.mpr
        exact ⟨_, (UTXOSet.applyValidTransaction_eq_ok_iff _ _ _).mpr
          ⟨hprocessed.applies, rfl⟩, rfl⟩
      · rw [ih, List.append_assoc]
        rfl

theorem BlockApplied.recordBlockFees_eq {block : Block} {state next : ChainState}
    {coinbase : Transaction} {regular : List Transaction} {fees : List Int}
    {working : UTXOSet}
    (h : BlockApplied block state coinbase regular fees working next)
    (collected : List Int) :
    recordBlockFees (collected, state.utxoSet) block =
      .ok (collected ++ fees, next.utxoSet) := by
  unfold recordBlockFees
  rw [h.transactions]
  apply bind_eq_ok_iff.mpr
  refine ⟨_, h.processes.recordFee_fold collected, ?_⟩
  apply bind_eq_ok_iff.mpr
  refine ⟨next.utxoSet, ?_, rfl⟩
  apply (UTXOSet.addTransactionOutputs_eq_ok_iff _ _ _ h.coinbase_inputs).mpr
  refine ⟨h.coinbase_applies, ?_⟩
  rw [h.next_eq]

theorem BlockApplied.total_eq {block : Block} {state next : ChainState}
    {coinbase : Transaction} {regular : List Transaction} {fees : List Int}
    {working : UTXOSet}
    (h : BlockApplied block state coinbase regular fees working next) :
    next.utxoSet.total TxOutput.amount =
      state.utxoSet.total TxOutput.amount +
        (coinbase.outputs.map TxOutput.amount).sum - fees.sum := by
  have hregular := OutputLedger.replay_total TxOutput.amount h.processes.replay
  rw [← h.processes.fees_eq] at hregular
  have hcoinbase := OutputLedger.post_total TxOutput.amount h.coinbase_applies
  have hspends : (UTXOSet.posting coinbase).spends = [] := by
    simp [UTXOSet.posting, Transaction.spentOutpoints, h.coinbase_inputs]
  rw [hspends, List.map_nil, List.sum_nil, Int.add_zero] at hcoinbase
  rw [h.next_eq]
  simp only
  rw [hcoinbase, hregular]
  change _ + (coinbase.outputs.map TxOutput.amount).sum = _
  omega

omit [Crypto] in
theorem coinbaseAmounts_append {blocks : List Block} {block : Block}
    {coinbase : Transaction} {regular : List Transaction} (hne : blocks ≠ [])
    (h : block.transactions = coinbase :: regular) :
    (coinbaseAmounts (blocks ++ [block])).sum =
      (coinbaseAmounts blocks).sum + (coinbase.outputs.map TxOutput.amount).sum := by
  unfold coinbaseAmounts
  rw [List.tail_append_of_ne_nil hne]
  simp [h]

theorem ValidChain.supply {blocks : List Block} {tip : Block} {state : ChainState}
    (h : ValidChain blocks tip state) :
    exists fees, chainFees blocks = .ok (fees, state.utxoSet) ∧
      state.utxoSet.total TxOutput.amount = (coinbaseAmounts blocks).sum - fees.sum ∧
      state.utxoSet.total TxOutput.amount ≤ BLOCK_SUBSIDY * ((blocks.length : Int) - 1) := by
  induction h with
  | @genesis block _ hgenesis =>
      have htransactions := ((isGenesisBlock_iff block).mp hgenesis).left
      refine ⟨[], ?_, rfl, by simp [ChainState.empty, Dict.total, Dict.empty]⟩
      unfold chainFees
      rw [foldlM_cons_eq_ok_iff]
      refine ⟨([], Dict.empty), ?_, rfl⟩
      unfold recordBlockFees
      rw [htransactions]
  | @extend blocks tip block state next hchain _ happly _ ih =>
      rcases (applyBlockTransactions_eq_some_iff _ _ _).mp happly with
        ⟨coinbase, regular, fees, working, happlied⟩
      rcases ih with ⟨collected, hcollected, htotal, hbound⟩
      have hnext := happlied.total_eq
      have hamounts := coinbaseAmounts_append hchain.ne_nil happlied.transactions
      refine ⟨collected ++ fees, ?_, ?_, ?_⟩
      · unfold chainFees
        rw [foldlM_append_eq_ok_iff]
        refine ⟨_, hcollected, ?_⟩
        rw [foldlM_cons_eq_ok_iff]
        exact ⟨_, happlied.recordBlockFees_eq collected, rfl⟩
      · rw [List.sum_append]
        omega
      · rcases happlied.coinbase_amount with ⟨output, houtputs, _, hcap⟩
        rw [houtputs] at hnext
        simp only [List.map_cons, List.map_nil, List.sum_cons, List.sum_nil,
          Int.add_zero] at hnext
        simp only [List.length_append, List.length_cons, List.length_nil]
        unfold BLOCK_SUBSIDY at *
        omega

theorem Processes.outputs_valid {utxos final : UTXOSet} {seen : Finset Str}
    {transactions : List Transaction} {fees : List Int}
    (h : Processes utxos seen transactions fees final) {transaction : Transaction}
    (hmem : transaction ∈ transactions) {output : TxOutput}
    (houtput : output ∈ transaction.outputs) : isValidOutput output = true := by
  rcases List.append_of_mem hmem with ⟨before, after, hsplit⟩
  rcases h.accepted_at before transaction after hsplit with
    ⟨working, fee, _, _, haccepted, _⟩
  exact haccepted.outputs output houtput

theorem ValidChain.outputs_valid {blocks : List Block} {tip : Block} {state : ChainState}
    (h : ValidChain blocks tip state) :
    forall outpoint output, state.utxoSet.get? outpoint = some output ->
      isValidOutput output = true := by
  induction h with
  | genesis _ _ =>
      intro outpoint output hget
      cases hget
  | extend _ _ happly _ ih =>
      rcases (applyBlockTransactions_eq_some_iff _ _ _).mp happly with
        ⟨coinbase, regular, fees, working, happlied⟩
      apply OutputLedger.replay_values happlied.replay ih
      intro p hp output houtput
      rw [happlied.ledgerOrder_eq] at hp
      rcases List.mem_map.mp hp with ⟨transaction, htransaction, hposting⟩
      subst hposting
      rcases List.mem_append.mp htransaction with hregular | hlast
      · exact happlied.processes.outputs_valid hregular houtput
      · rcases happlied.coinbase_amount with ⟨reward, houtputs, hvalid, _⟩
        have heq : transaction = coinbase := by
          simpa using hlast
        change output ∈ transaction.outputs at houtput
        rw [heq, houtputs] at houtput
        rw [List.mem_singleton.mp houtput]
        exact hvalid

/-- The confirmed supply is what the coinbases paid minus the collected fees. -/
theorem reachable_supply {chain : Blockchain} (h : chain.Reachable) :
    exists fees height, chainFees chain.blocks = .ok (fees, chain.state.utxoSet) ∧
      chain.height = .ok height ∧
      chain.state.utxoSet.total TxOutput.amount =
        (coinbaseAmounts chain.blocks).sum - fees.sum ∧
      (forall output, output ∈ chain.state.utxoSet.values -> 0 < output.amount) ∧
      chain.state.utxoSet.total TxOutput.amount ≤ BLOCK_SUBSIDY * height := by
  rcases Blockchain.reachable_sound h with ⟨hsound, husable⟩
  rcases hsound.valid with ⟨tip, hvalid⟩
  rcases hvalid.supply with ⟨fees, hfees, htotal, hbound⟩
  refine ⟨fees, (chain.blocks.length : Int) - 1, hfees, ?_, htotal, ?_, hbound⟩
  · unfold Blockchain.height
    rw [husable]
    rfl
  · intro output houtput
    rcases List.mem_map.mp houtput with ⟨item, hitem, heq⟩
    have hget : chain.state.utxoSet.get? item.1 = some output := by
      rw [Dict.get?_eq_some_iff, ← heq]
      exact hitem
    have hpositive := hvalid.outputs_valid item.1 output hget
    unfold isValidOutput at hpositive
    simp only [Bool.and_eq_true, decide_eq_true_eq] at hpositive
    exact hpositive.left

end Ledger

/-- Two blocks paid fifty and seventy, and one transaction left a fee of twenty. -/
theorem reachable_supply_sample :
    Sample.chain.blocks.length = 3 ∧
      exists fees height,
        @chainFees Sample.crypto Sample.chain.blocks =
          .ok (fees, Sample.chain.state.utxoSet) ∧
        Sample.chain.height = .ok height ∧
        Sample.chain.state.utxoSet.total TxOutput.amount = 120 - fees.sum ∧
        Sample.chain.state.utxoSet.total TxOutput.amount ≤ BLOCK_SUBSIDY * height := by
  rcases @reachable_supply Sample.crypto _ Sample.chain_reachable with
    ⟨fees, height, hfees, hheight, htotal, _, hbound⟩
  have hamounts : (coinbaseAmounts Sample.chain.blocks).sum = 120 := by
    rw [Sample.second_accepted.right]
    rfl
  rw [hamounts] at htotal
  refine ⟨?_, fees, height, hfees, hheight, htotal, hbound⟩
  rw [Sample.second_accepted.right]
  rfl

section DoubleSpend

variable [Crypto]

/-!
## No double spend
-/

theorem ValidChain.spent_eq {blocks : List Block} {tip : Block} {state : ChainState}
    (h : ValidChain blocks tip state) :
    blocks.flatMap (fun block => block.transactions.flatMap Transaction.spentOutpoints) =
      (chainHistory blocks).flatMap Transaction.spentOutpoints := by
  induction h with
  | @genesis block _ hgenesis =>
      have htransactions := ((isGenesisBlock_iff block).mp hgenesis).left
      simp [chainHistory, Block.ledgerOrder, htransactions]
  | @extend blocks tip block state next _ _ happly _ ih =>
      rcases (applyBlockTransactions_eq_some_iff _ _ _).mp happly with
        ⟨coinbase, regular, fees, working, happlied⟩
      have hcoinbase : coinbase.spentOutpoints = [] := by
        simp [Transaction.spentOutpoints, happlied.coinbase_inputs]
      rw [chainHistory_append, List.flatMap_append, List.flatMap_append, ih]
      simp [chainHistory, happlied.ledgerOrder_eq, happlied.transactions, hcoinbase]

theorem txids_perm (blocks : List Block) :
    (blocks.flatMap (fun block => block.transactions.map Transaction.txid)).Perm
      ((chainHistory blocks).map Transaction.txid) := by
  rw [← List.map_flatMap]
  exact (chainTransactions_perm blocks).map Transaction.txid

/-- Where an input of a regular transaction comes from: an earlier block, or an
earlier regular transaction of its block, and never its own coinbase. -/
theorem ValidChain.provenance {blocks : List Block} {tip : Block} {state : ChainState}
    (h : ValidChain blocks tip state) {before after : List Block} {block : Block}
    (hblocks : blocks = before ++ block :: after) {coinbase transaction : Transaction}
    {earlier later : List Transaction}
    (htransactions : block.transactions = coinbase :: (earlier ++ transaction :: later))
    {outpoint : OutPoint} (hspent : outpoint ∈ transaction.spentOutpoints) :
    ((exists source creator output, source ∈ before ∧ creator ∈ source.transactions ∧
        (outpoint, output) ∈ UTXOSet.outputItems creator) ∨
      (exists creator output, creator ∈ earlier ∧
        (outpoint, output) ∈ UTXOSet.outputItems creator)) ∧
      outpoint.1 ≠ coinbase.txid := by
  have hledger := h.ledger
  have horder : block.ledgerOrder = earlier ++ transaction :: (later ++ [coinbase]) := by
    unfold Block.ledgerOrder
    rw [htransactions]
    simp
  have hhistory : chainHistory blocks =
      (chainHistory before ++ earlier) ++
        transaction :: (later ++ coinbase :: chainHistory after) := by
    rw [hblocks, chainHistory_append]
    unfold chainHistory
    rw [List.flatMap_cons, horder]
    simp
  have hpostings : postings (chainHistory blocks) =
      postings (chainHistory before ++ earlier) ++ UTXOSet.posting transaction ::
        postings (later ++ coinbase :: chainHistory after) := by
    rw [hhistory]
    unfold postings
    rw [List.map_append, List.map_cons]
  rcases hledger.exact.provenance _ _ _ hpostings outpoint hspent with
    hbase | ⟨output, hcreated⟩
  · cases hbase
  · rcases (mem_createdBy_iff _ _ _).mp hcreated with
      ⟨creator, hcreator, hitem⟩
    constructor
    · rcases List.mem_append.mp hcreator with hbefore | hearlier
      · rcases (mem_chainHistory _ _).mp hbefore with ⟨source, hsource, hmem⟩
        exact Or.inl ⟨source, creator, output, hsource, hmem, hitem⟩
      · exact Or.inr ⟨creator, output, hearlier, hitem⟩
    · intro heq
      have hnodup := hledger.txids_nodup
      rw [hhistory, List.map_append, List.nodup_append] at hnodup
      apply hnodup.right.right creator.txid (List.mem_map_of_mem hcreator) coinbase.txid
      · exact List.mem_map_of_mem (by simp)
      · rw [← heq, outputItems_txid hitem]

/-- No outpoint is spent twice, inputs come from the past, and the ledger and
the recorded identifiers are exactly what the chain says. -/
theorem reachable_exact_ledger {chain : Blockchain} (h : chain.Reachable) :
    (chain.blocks.flatMap
        (fun block => block.transactions.flatMap Transaction.spentOutpoints)).Nodup ∧
      (forall before block after coinbase earlier transaction later outpoint,
        chain.blocks = before ++ block :: after ->
        block.transactions = coinbase :: (earlier ++ transaction :: later) ->
        outpoint ∈ transaction.spentOutpoints ->
        ((exists source creator output, source ∈ before ∧
            creator ∈ source.transactions ∧
            (outpoint, output) ∈ UTXOSet.outputItems creator) ∨
          (exists creator output, creator ∈ earlier ∧
            (outpoint, output) ∈ UTXOSet.outputItems creator)) ∧
          outpoint.1 ≠ coinbase.txid) ∧
      (forall outpoint output, chain.state.utxoSet.get? outpoint = some output <->
        (exists block transaction, block ∈ chain.blocks ∧
          transaction ∈ block.transactions ∧
          (outpoint, output) ∈ UTXOSet.outputItems transaction) ∧
          forall block transaction, block ∈ chain.blocks ->
            transaction ∈ block.transactions ->
            outpoint ∉ transaction.spentOutpoints) ∧
      (forall txid, txid ∈ chain.state.seenTxids <->
        exists block transaction, block ∈ chain.blocks ∧
          transaction ∈ block.transactions ∧ transaction.txid = txid) ∧
      (chain.blocks.flatMap
        (fun block => block.transactions.map Transaction.txid)).Nodup ∧
      (forall txid, txid ∈ chain.mempool.entries.keys ->
        txid ∉ chain.state.seenTxids) := by
  rcases Blockchain.reachable_sound h with ⟨hsound, _⟩
  rcases hsound.valid with ⟨tip, hvalid⟩
  change ValidChain chain.blocks tip chain.state at hvalid
  have hledger := hvalid.ledger
  refine ⟨?_, ?_, ?_, hledger.mem_seen_iff, ?_, ?_⟩
  · rw [hvalid.spent_eq, ← spentBy_postings]
    exact hledger.exact.spends_nodup
  · intro before block after coinbase earlier transaction later outpoint hblocks
      htransactions hspent
    exact hvalid.provenance hblocks htransactions hspent
  · intro outpoint output
    rw [hledger.exact.get?_iff, mem_createdBy_iff,
      spentBy_postings]
    have hempty : (Dict.empty : UTXOSet).get? outpoint ≠ some output := by
      intro hget
      cases hget
    constructor
    · intro hcase
      rcases hcase with ⟨horigin, hunspent⟩
      constructor
      · rcases horigin with hbase | ⟨transaction, hmem, hitem⟩
        · exact absurd hbase hempty
        · rcases (mem_chainHistory _ _).mp hmem with ⟨block, hblock, htransaction⟩
          exact ⟨block, transaction, hblock, htransaction, hitem⟩
      · intro block transaction hblock htransaction hspent
        apply hunspent
        exact List.mem_flatMap.mpr
          ⟨transaction, (mem_chainHistory _ _).mpr ⟨block, hblock, htransaction⟩, hspent⟩
    · intro hcase
      rcases hcase with ⟨⟨block, transaction, hblock, htransaction, hitem⟩, hunspent⟩
      constructor
      · exact Or.inr ⟨transaction,
          (mem_chainHistory _ _).mpr ⟨block, hblock, htransaction⟩, hitem⟩
      · intro hspent
        rcases List.mem_flatMap.mp hspent with ⟨spender, hspender, hmem⟩
        rcases (mem_chainHistory _ _).mp hspender with ⟨other, hother, hin⟩
        exact hunspent other spender hother hin hmem
  · exact (txids_perm chain.blocks).nodup_iff.mpr hledger.txids_nodup
  · intro txid htxid
    have hcoherent := hsound.coherent
    change Mempool.Coherent chain.mempool at hcoherent
    have hseen : chain.mempool.seenTxids = chain.state.seenTxids := hsound.seenTxids
    rw [hcoherent.keys_eq] at htxid
    rcases List.mem_map.mp htxid with ⟨transaction, htransaction, heq⟩
    rw [← heq, ← hseen]
    exact hcoherent.processes.txids_new.right transaction htransaction

end DoubleSpend

theorem reachable_exact_ledger_sample :
    Sample.chain.blocks.length = 3 ∧
      (Sample.chain.blocks.flatMap
        (fun block => block.transactions.flatMap Transaction.spentOutpoints)).Nodup ∧
      (Sample.chain.blocks.flatMap
        (fun block => block.transactions.map (@Transaction.txid Sample.crypto))).Nodup := by
  have hledger := @reachable_exact_ledger Sample.crypto _ Sample.chain_reachable
  refine ⟨?_, hledger.left, hledger.right.right.right.right.left⟩
  rw [Sample.second_accepted.right]
  rfl

end PyChain
