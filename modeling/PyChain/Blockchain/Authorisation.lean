import Mathlib.Algebra.Order.BigOperators.Group.List
import PyChain.Blockchain.Ledger

/-!
# Spending is authorised

Every outpoint that an accepted block consumes is named by one input of one of
its transactions, and that input carries the key and the signature of the
address the output was paid to.  Balances can only fall through such inputs.
-/

namespace PyChain

open Foundation
open OutputLedger (Replay Applies post)

theorem flatMap_position_unique {alpha beta : Type} {xs : List alpha}
    {f : alpha -> List beta} (hnodup : (xs.flatMap f).Nodup) {i j i' j' : Nat}
    {x x' : alpha} {a : beta} (hx : xs[i]? = some x) (ha : (f x)[j]? = some a)
    (hx' : xs[i']? = some x') (ha' : (f x')[j']? = some a) : i = i' ∧ j = j' := by
  rw [List.nodup_flatMap] at hnodup
  rcases hnodup with ⟨hinner, houter⟩
  rcases List.getElem?_eq_some_iff.mp hx with ⟨hi, hxi⟩
  rcases List.getElem?_eq_some_iff.mp hx' with ⟨hi', hxi'⟩
  have hindex : i = i' := by
    rcases Nat.lt_trichotomy i i' with hlt | heq | hgt
    · have hdisjoint := List.pairwise_iff_getElem.mp houter i i' hi hi' hlt
      rw [hxi, hxi'] at hdisjoint
      exact absurd (List.mem_of_getElem? ha')
        (hdisjoint (List.mem_of_getElem? ha))
    · exact heq
    · have hdisjoint := List.pairwise_iff_getElem.mp houter i' i hi' hi hgt
      rw [hxi, hxi'] at hdisjoint
      exact absurd (List.mem_of_getElem? ha)
        (hdisjoint (List.mem_of_getElem? ha'))
  subst hindex
  have hsame : x = x' := by
    rw [hx] at hx'
    exact Option.some.inj hx'
  subst hsame
  refine ⟨rfl, ?_⟩
  have hj := (List.getElem?_eq_some_iff.mp ha).choose
  exact (List.getElem?_inj hj (hinner x (List.mem_of_getElem? hx))).mp
    (ha.trans ha'.symm)

section Authorisation

variable [Crypto]

/-- The input at a position of a block names an outpoint. -/
structure NamedAt (block : Block) (outpoint : OutPoint) (txIndex inputIndex : Nat)
    (transaction : Transaction) (input : TxInput) : Prop where
  transaction_at : block.transactions[txIndex]? = some transaction
  input_at : transaction.inputs[inputIndex]? = some input
  outpoint_eq : input.outpoint = outpoint

omit [Crypto] in
theorem exists_namedAt {block : Block} {outpoint : OutPoint}
    (h : outpoint ∈ block.transactions.flatMap Transaction.spentOutpoints) :
    exists txIndex inputIndex transaction input,
      NamedAt block outpoint txIndex inputIndex transaction input := by
  rcases List.mem_flatMap.mp h with ⟨transaction, htransaction, hspent⟩
  rcases List.mem_map.mp hspent with ⟨input, hinput, heq⟩
  rcases List.getElem?_of_mem htransaction with ⟨txIndex, htxIndex⟩
  rcases List.getElem?_of_mem hinput with ⟨inputIndex, hinputIndex⟩
  exact ⟨txIndex, inputIndex, transaction, input, htxIndex, hinputIndex, heq⟩

/-- What a block receives for an address. -/
def received (address : Str) (block : Block) : Int :=
  ((block.transactions.flatMap Transaction.outputs).map (amountTo address)).sum

/-- The output an outpoint stands for while a block is applied: confirmed
before, or created by the block. -/
def outputOf (state : ChainState) (block : Block) (outpoint : OutPoint) :
    Option TxOutput :=
  (state.utxoSet.get? outpoint).or
    (Dict.lookupKey (block.ledgerOrder.flatMap UTXOSet.outputItems) outpoint)

/-- What the inputs of a block take from an address. -/
def spentFrom (address : Str) (state : ChainState) (block : Block) : Int :=
  ((block.transactions.flatMap Transaction.spentOutpoints).map (fun outpoint =>
    ((outputOf state block outpoint).map (amountTo address)).getD 0)).sum

theorem outputOf_eq_source (state : ChainState) (block : Block) (outpoint : OutPoint) :
    outputOf state block outpoint =
      OutputLedger.source state.utxoSet (postings block.ledgerOrder) outpoint := by
  unfold outputOf OutputLedger.source OutputLedger.createdBy postings
  rw [List.flatMap_map]
  rfl

/-!
## One applied block
-/

namespace BlockApplied

variable {block : Block} {state next : ChainState} {coinbase : Transaction}
  {regular : List Transaction} {fees : List Int} {working : UTXOSet}

theorem freshIdents (h : BlockApplied block state coinbase regular fees working next)
    (hrecorded : RecordedOutputs state.utxoSet state.seenTxids) :
    OutputLedger.FreshIdents state.utxoSet (postings block.ledgerOrder) where
  nodup := by
    have hnodup := h.txids_new.left
    unfold postings
    rw [List.map_map]
    exact hnodup
  fresh := by
    intro p hp k hk heq
    rcases List.mem_map.mp hp with ⟨transaction, hmem, hposting⟩
    subst hposting
    apply h.txids_new.right transaction hmem
    rw [show transaction.txid = k.1 from heq.symm]
    exact hrecorded k hk

theorem spent_eq (h : BlockApplied block state coinbase regular fees working next) :
    block.transactions.flatMap Transaction.spentOutpoints =
      OutputLedger.spentBy (postings block.ledgerOrder) := by
  have hcoinbase : coinbase.spentOutpoints = [] := by
    simp [Transaction.spentOutpoints, h.coinbase_inputs]
  rw [spentBy_postings, h.ledgerOrder_eq, h.transactions]
  simp [hcoinbase]

theorem spent_nodup (h : BlockApplied block state coinbase regular fees working next)
    (hrecorded : RecordedOutputs state.utxoSet state.seenTxids) :
    (block.transactions.flatMap Transaction.spentOutpoints).Nodup := by
  rw [h.spent_eq]
  exact (OutputLedger.replay_exact (h.freshIdents hrecorded) h.replay).spends_nodup

theorem named_unique (h : BlockApplied block state coinbase regular fees working next)
    (hrecorded : RecordedOutputs state.utxoSet state.seenTxids) {outpoint : OutPoint}
    {i j i' j' : Nat} {transaction transaction' : Transaction} {input input' : TxInput}
    (hnamed : NamedAt block outpoint i j transaction input)
    (hnamed' : NamedAt block outpoint i' j' transaction' input') : i = i' ∧ j = j' := by
  have hposition : forall {t : Transaction} {k : Nat} {named : TxInput},
      t.inputs[k]? = some named -> named.outpoint = outpoint ->
        t.spentOutpoints[k]? = some outpoint := by
    intro t k named hget heq
    unfold Transaction.spentOutpoints
    rw [List.getElem?_map, hget, ← heq]
    rfl
  exact flatMap_position_unique (h.spent_nodup hrecorded) hnamed.transaction_at
    (hposition hnamed.input_at hnamed.outpoint_eq) hnamed'.transaction_at
    (hposition hnamed'.input_at hnamed'.outpoint_eq)

theorem named_authorised
    (h : BlockApplied block state coinbase regular fees working next)
    (hrecorded : RecordedOutputs state.utxoSet state.seenTxids) {outpoint : OutPoint}
    {i j : Nat} {transaction : Transaction} {input : TxInput}
    (hnamed : NamedAt block outpoint i j transaction input) :
    exists output, outputOf state block outpoint = some output ∧
      Authorised transaction j input output.recipientAddress := by
  have hmem : transaction ∈ regular := by
    have hin := List.mem_of_getElem? hnamed.transaction_at
    rw [h.transactions] at hin
    rcases List.mem_cons.mp hin with heq | hregular
    · have hinput := hnamed.input_at
      rw [heq, h.coinbase_inputs] at hinput
      cases hinput
    · exact hregular
  rcases List.append_of_mem hmem with ⟨before, after, hsplit⟩
  rcases h.processes.accepted_at before transaction after hsplit with
    ⟨view, fee, _, hreplay, haccepted, _⟩
  rcases haccepted.authorised j input hnamed.input_at with ⟨output, hget, _, hauthorised⟩
  refine ⟨output, ?_, hauthorised⟩
  have hfresh := h.freshIdents hrecorded
  have hhistory : postings block.ledgerOrder =
      postings before ++ postings (transaction :: after ++ [coinbase]) := by
    rw [h.ledgerOrder_eq, hsplit]
    unfold postings
    rw [← List.map_append]
    simp
  rw [hhistory] at hfresh
  have hsource := OutputLedger.source_of_get? hfresh.of_append_left
    (OutputLedger.replay_exact hfresh.of_append_left hreplay) hget
  rw [outputOf_eq_source, hhistory, ← hnamed.outpoint_eq]
  exact OutputLedger.source_append hsource

theorem balance_eq (h : BlockApplied block state coinbase regular fees working next)
    (hrecorded : RecordedOutputs state.utxoSet state.seenTxids) (address : Str) :
    next.utxoSet.getBalance address + spentFrom address state block =
      state.utxoSet.getBalance address + received address block := by
  have hsources := OutputLedger.replay_sources (amountTo address)
    (h.freshIdents hrecorded) h.replay
  rw [← h.spent_eq] at hsources
  have hspent : spentFrom address state block =
      ((block.transactions.flatMap Transaction.spentOutpoints).map
        (OutputLedger.sourceWeight (amountTo address) state.utxoSet
          (postings block.ledgerOrder))).sum := by
    unfold spentFrom OutputLedger.sourceWeight
    simp only [outputOf_eq_source]
  have hcreated : received address block =
      ((OutputLedger.createdBy (postings block.ledgerOrder)).map
        (fun entry => amountTo address entry.2)).sum := by
    have hentries : forall transactions : List Transaction,
        (OutputLedger.createdBy (postings transactions)).map
            (fun entry => amountTo address entry.2) =
          (transactions.flatMap Transaction.outputs).map (amountTo address) := by
      intro transactions
      induction transactions with
      | nil =>
          rfl
      | cons transaction rest ih =>
          unfold OutputLedger.createdBy postings at *
          rw [List.map_cons, List.flatMap_cons, List.map_append, ih,
            Posting.created_weights, List.flatMap_cons, List.map_append]
          rfl
    rw [hentries, h.ledgerOrder_eq]
    unfold received
    rw [h.transactions]
    simp only [List.flatMap_cons, List.flatMap_append, List.flatMap_nil, List.map_append,
      List.sum_append, List.append_nil]
    exact Int.add_comm _ _
  rw [getBalance_eq_total, getBalance_eq_total, hspent, hcreated]
  exact hsources

theorem received_nonneg (h : BlockApplied block state coinbase regular fees working next)
    (address : Str) : 0 ≤ received address block := by
  unfold received
  apply List.sum_nonneg
  intro amount hamount
  rcases List.mem_map.mp hamount with ⟨output, houtput, heq⟩
  rcases List.mem_flatMap.mp houtput with ⟨transaction, htransaction, hmem⟩
  have hvalid : isValidOutput output = true := by
    rw [h.transactions] at htransaction
    rcases List.mem_cons.mp htransaction with hcoinbase | hregular
    · rcases h.coinbase_amount with ⟨reward, houtputs, hreward, _⟩
      rw [hcoinbase, houtputs] at hmem
      rw [List.mem_singleton.mp hmem]
      exact hreward
    · exact h.processes.outputs_valid hregular hmem
  rw [← heq]
  unfold amountTo
  unfold isValidOutput at hvalid
  simp only [Bool.and_eq_true, decide_eq_true_eq] at hvalid
  split
  · omega
  · exact Int.le_refl 0

theorem balance_decrease
    (h : BlockApplied block state coinbase regular fees working next)
    (hrecorded : RecordedOutputs state.utxoSet state.seenTxids) {address : Str}
    (hless : next.utxoSet.getBalance address < state.utxoSet.getBalance address) :
    exists outpoint output txIndex inputIndex transaction input,
      NamedAt block outpoint txIndex inputIndex transaction input ∧
        outputOf state block outpoint = some output ∧
        output.recipientAddress = address ∧
        Authorised transaction inputIndex input address := by
  have hbalance := h.balance_eq hrecorded address
  have hreceived := h.received_nonneg address
  have hspent : 0 < spentFrom address state block := by
    omega
  have hterm : exists outpoint,
      outpoint ∈ block.transactions.flatMap Transaction.spentOutpoints ∧
        0 < ((outputOf state block outpoint).map (amountTo address)).getD 0 := by
    by_contra hnone
    have hsum : spentFrom address state block ≤
        ((block.transactions.flatMap Transaction.spentOutpoints).map
          (fun _ => (0 : Int))).sum := by
      unfold spentFrom
      apply List.sum_le_sum
      intro outpoint houtpoint
      by_contra hpositive
      exact hnone ⟨outpoint, houtpoint, by omega⟩
    simp only [List.map_const', List.sum_replicate, nsmul_zero] at hsum
    omega
  rcases hterm with ⟨outpoint, hmem, hpositive⟩
  rcases exists_namedAt hmem with ⟨txIndex, inputIndex, transaction, input, hnamed⟩
  rcases h.named_authorised hrecorded hnamed with ⟨output, houtput, hauthorised⟩
  have haddress : output.recipientAddress = address := by
    by_contra hother
    rw [houtput] at hpositive
    simp [amountTo, hother] at hpositive
  rw [haddress] at hauthorised
  exact ⟨outpoint, output, txIndex, inputIndex, transaction, input, hnamed, houtput,
    haddress, hauthorised⟩

end BlockApplied

/-!
## Accepted blocks
-/

theorem addBlock_applied {chain : Blockchain} (h : chain.Reachable) {block : Block}
    {clock : Clock}
    (haccepted : (Blockchain.ram.step (.addBlock block clock) chain).1 = .ok true) :
    RecordedOutputs chain.state.utxoSet chain.state.seenTxids ∧
      exists coinbase regular fees working,
        BlockApplied block chain.state coinbase regular fees working
          (Blockchain.ram.step (.addBlock block clock) chain).2.state := by
  rcases Blockchain.reachable_sound h with ⟨hsound, _⟩
  rcases hsound.valid with ⟨tip, hvalid⟩
  refine ⟨hvalid.ledger.recorded, ?_⟩
  rcases Blockchain.ram_step_cases (.addBlock block clock) chain with
    ⟨answer, hanswer, heq⟩ | ⟨next, appended, hprepares, heq⟩
  · rw [heq] at haccepted
    exact absurd haccepted hanswer
  · rw [heq]
    cases hprepares with
    | addBlock _ _ _ _ happly _ =>
        exact (applyBlockTransactions_eq_some_iff _ _ _).mp happly

/-- Spending is authorised, input by input, and balances account for it. -/
theorem addBlock_authorised {chain : Blockchain} (h : chain.Reachable) {block : Block}
    {clock : Clock}
    (haccepted : (Blockchain.ram.step (.addBlock block clock) chain).1 = .ok true) :
    (forall outpoint output,
      (chain.state.utxoSet.get? outpoint = some output ∨
        exists creator, creator ∈ block.transactions ∧
          (outpoint, output) ∈ UTXOSet.outputItems creator) ->
      (exists transaction, transaction ∈ block.transactions ∧
        outpoint ∈ transaction.spentOutpoints) ->
      exists txIndex inputIndex transaction input,
        NamedAt block outpoint txIndex inputIndex transaction input ∧
          (forall txIndex' inputIndex' transaction' input',
            NamedAt block outpoint txIndex' inputIndex' transaction' input' ->
            txIndex' = txIndex ∧ inputIndex' = inputIndex) ∧
          Authorised transaction inputIndex input output.recipientAddress) ∧
      (forall address,
        (Blockchain.ram.step (.addBlock block clock) chain).2.state.utxoSet.getBalance
            address + spentFrom address chain.state block =
          chain.state.utxoSet.getBalance address + received address block) ∧
      (forall address,
        (Blockchain.ram.step (.addBlock block clock) chain).2.state.utxoSet.getBalance
            address < chain.state.utxoSet.getBalance address ->
        exists outpoint output txIndex inputIndex transaction input,
          NamedAt block outpoint txIndex inputIndex transaction input ∧
            outputOf chain.state block outpoint = some output ∧
            output.recipientAddress = address ∧
            Authorised transaction inputIndex input address) := by
  rcases addBlock_applied h haccepted with
    ⟨hrecorded, coinbase, regular, fees, working, happlied⟩
  refine ⟨?_, happlied.balance_eq hrecorded, fun _ => happlied.balance_decrease hrecorded⟩
  intro outpoint output horigin hconsumed
  rcases exists_namedAt (List.mem_flatMap.mpr hconsumed) with
    ⟨txIndex, inputIndex, transaction, input, hnamed⟩
  rcases happlied.named_authorised hrecorded hnamed with ⟨source, hsource, hauthorised⟩
  have houtput : outputOf chain.state block outpoint = some output := by
    rw [outputOf_eq_source]
    rcases horigin with hconfirmed | ⟨creator, hcreator, hitem⟩
    · exact OutputLedger.source_of_base hconfirmed
    · apply OutputLedger.source_of_created (happlied.freshIdents hrecorded)
      exact (mem_createdBy_iff _ _ _).mpr
        ⟨creator, (mem_ledgerOrder block creator).mpr hcreator, hitem⟩
  have hsame : source = output := by
    rw [hsource] at houtput
    exact Option.some.inj houtput
  subst hsame
  refine ⟨txIndex, inputIndex, transaction, input, hnamed, ?_, hauthorised⟩
  intro txIndex' inputIndex' transaction' input' hnamed'
  exact happlied.named_unique hrecorded hnamed' hnamed

end Authorisation

/-- The transfer of the second block spends the first coinbase, and its only
input is authorised by the owner. -/
theorem addBlock_authorised_sample :
    exists txIndex inputIndex transaction input,
      NamedAt Sample.second (Sample.coinbaseTxid, 0) txIndex inputIndex transaction input ∧
        @Authorised Sample.crypto transaction inputIndex input Sample.address := by
  have hauthorised := (@addBlock_authorised Sample.crypto _ Sample.waiting_reachable
    Sample.second Sample.clock Sample.second_accepted.left).left
      (Sample.coinbaseTxid, 0) ⟨50, Sample.address⟩
      (Or.inl Sample.waiting_funded)
      ⟨Sample.transfer, by simp [Sample.second],
        by simp [Sample.transfer, Transaction.spentOutpoints, TxInput.outpoint]⟩
  rcases hauthorised with ⟨txIndex, inputIndex, transaction, input, hnamed, _, hsigned⟩
  exact ⟨txIndex, inputIndex, transaction, input, hnamed, hsigned⟩

end PyChain
