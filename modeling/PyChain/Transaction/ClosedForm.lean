import PyChain.Transaction.Mempool

/-!
# The closed form of a batch

The result of a batch does not depend on the working sets in between.  It has
every output of the list and none of the outpoints that its inputs name, and the
fees are what left the ledger.  The last part runs the loop of the source on
mutable objects and shows that it only writes to its own copies.
-/

namespace PyChain

open Foundation

/-- Every output that a list of transactions creates, under its outpoint. -/
def createdOutputs [Crypto] (transactions : List Transaction) :
    List (OutPoint × TxOutput) :=
  transactions.flatMap UTXOSet.outputItems

/-- Every outpoint that the inputs of a list of transactions name. -/
def namedOutpoints (transactions : List Transaction) : List OutPoint :=
  transactions.flatMap Transaction.spentOutpoints

section Batches

variable [Crypto]

/-- The result of a batch, without the steps in between. -/
structure ClosedForm (transactions : List Transaction) (utxoSet : UTXOSet)
    (seenTxids : Finset Str) (batch : TransactionBatch) : Prop where
  outputs : forall outpoint output, batch.utxoSet.get? outpoint = some output <->
    (utxoSet.get? outpoint = some output ∨
        (outpoint, output) ∈ createdOutputs transactions) ∧
      outpoint ∉ namedOutpoints transactions
  seen : batch.seenTxids = seenTxids ∪ (transactions.map Transaction.txid).toFinset
  fees : batch.totalFees =
    utxoSet.total TxOutput.amount - batch.utxoSet.total TxOutput.amount

/-- Batches with the same outputs, whatever the order they were added in. -/
structure TransactionBatch.Same (batch other : TransactionBatch) : Prop where
  utxoSet : batch.utxoSet.sameMap other.utxoSet = true
  seenTxids : batch.seenTxids = other.seenTxids
  totalFees : batch.totalFees = other.totalFees

theorem closedForm_of_ok {transactions : List Transaction} {utxoSet : UTXOSet}
    {seenTxids : Finset Str} {batch : TransactionBatch}
    (hrecorded : RecordedOutputs utxoSet seenTxids)
    (h : applyTransactions transactions utxoSet seenTxids = .ok batch) :
    ClosedForm transactions utxoSet seenTxids batch := by
  rcases (applyTransactions_eq_ok_iff _ _ _ _).mp h with ⟨fees, hprocesses, hseen, htotal⟩
  have hexact := OutputLedger.replay_exact (hprocesses.freshIdents hrecorded)
    hprocesses.replay
  constructor
  · intro outpoint output
    unfold createdOutputs namedOutpoints
    rw [← createdBy_postings, ← spentBy_postings]
    exact hexact.get?_iff outpoint output
  · exact hseen
  · have hledger := OutputLedger.replay_total TxOutput.amount hprocesses.replay
    rw [← hprocesses.fees_eq, ← htotal] at hledger
    omega

theorem ClosedForm.same {transactions order : List Transaction} {utxoSet : UTXOSet}
    {seenTxids : Finset Str} {batch other : TransactionBatch}
    (hbatch : ClosedForm transactions utxoSet seenTxids batch)
    (hother : ClosedForm order utxoSet seenTxids other) (hperm : order.Perm transactions) :
    batch.Same other := by
  have hcreated : forall item, item ∈ createdOutputs order <->
      item ∈ createdOutputs transactions :=
    fun item => (hperm.flatMap_right UTXOSet.outputItems).mem_iff
  have hnamed : forall outpoint, outpoint ∈ namedOutpoints order <->
      outpoint ∈ namedOutpoints transactions :=
    fun outpoint => (hperm.flatMap_right Transaction.spentOutpoints).mem_iff
  have hget : forall outpoint, batch.utxoSet.get? outpoint = other.utxoSet.get? outpoint := by
    intro outpoint
    apply Option.ext
    intro output
    rw [hbatch.outputs, hother.outputs, hcreated, hnamed]
  constructor
  · exact (Dict.sameMap_iff _ _).mpr hget
  · rw [hbatch.seen, hother.seen, List.toFinset_eq_of_perm _ _ (hperm.map _)]
  · have htotal : batch.utxoSet.total TxOutput.amount =
        other.utxoSet.total TxOutput.amount :=
      ((Dict.perm_of_get?_eq hget).map
        (fun item : OutPoint × TxOutput => item.2.amount)).sum_eq
    rw [hbatch.fees, hother.fees, htotal]

end Batches

/-!
## The loop on mutable objects
-/

/-- The UTXO sets and the sets of identifiers of a process.  A reference is a
position, and a new object goes to the end. -/
structure Objects where
  utxoSets : List UTXOSet
  txidSets : List (Finset Str)

namespace Objects

def utxoSet (objects : Objects) (reference : Nat) : UTXOSet :=
  objects.utxoSets.getD reference Dict.empty

def txidSet (objects : Objects) (reference : Nat) : Finset Str :=
  objects.txidSets.getD reference ∅

/-- `utxo_set.copy()` and `set(seen_txids)`. -/
def copied (objects : Objects) (utxoSet seenTxids : Nat) : Objects where
  utxoSets := objects.utxoSets ++ [objects.utxoSet utxoSet]
  txidSets := objects.txidSets ++ [objects.txidSet seenTxids]

/-- Assign the contents of two objects in place. -/
def assign (objects : Objects) (working recorded : Nat) (utxos : UTXOSet)
    (txids : Finset Str) : Objects where
  utxoSets := objects.utxoSets.set working utxos
  txidSets := objects.txidSets.set recorded txids

/-- The objects that existed before are still there, with their contents. -/
structure Keeps (before after : Objects) : Prop where
  utxoSets : before.utxoSets <+: after.utxoSets
  txidSets : before.txidSets <+: after.txidSets

theorem Keeps.utxoSet {before after : Objects} (h : Keeps before after) {reference : Nat}
    (hvalid : reference < before.utxoSets.length) :
    after.utxoSet reference = before.utxoSet reference := by
  rcases h.utxoSets with ⟨more, hmore⟩
  unfold Objects.utxoSet
  rw [← hmore, List.getD_eq_getElem?_getD, List.getD_eq_getElem?_getD,
    List.getElem?_append_left hvalid]

theorem Keeps.txidSet {before after : Objects} (h : Keeps before after) {reference : Nat}
    (hvalid : reference < before.txidSets.length) :
    after.txidSet reference = before.txidSet reference := by
  rcases h.txidSets with ⟨more, hmore⟩
  unfold Objects.txidSet
  rw [← hmore, List.getD_eq_getElem?_getD, List.getD_eq_getElem?_getD,
    List.getElem?_append_left hvalid]

variable [Crypto]

/-- The processing loop, which mutates the two copies. -/
def applyEach (working recorded : Nat) :
    List Transaction -> Objects -> Int -> Except PyError Int × Objects
  | [], objects, totalFees => (.ok totalFees, objects)
  | transaction :: rest, objects, totalFees =>
      match calculateTransactionFee transaction (objects.utxoSet working) with
      | .error e => (.error e, objects)
      | .ok fee =>
          if transaction.txid ∈ objects.txidSet recorded then
            (.error (.valueError "Transaction ID has already been confirmed"), objects)
          else
            match (objects.utxoSet working).applyValidTransaction transaction with
            | .error _ => (.error (.valueError "Transaction cannot be applied"), objects)
            | .ok updated =>
                applyEach working recorded rest
                  (objects.assign working recorded updated
                    (insert transaction.txid (objects.txidSet recorded)))
                  (totalFees + fee)

/-- The source's `apply_transactions` on objects: the references of the working
set and of the recorded identifiers, with the fees. -/
def applyTransactions (objects : Objects) (transactions : List Transaction)
    (utxoSet seenTxids : Nat) : Except PyError (Nat × Nat × Int) × Objects :=
  let working := objects.utxoSets.length
  let recorded := objects.txidSets.length
  let (fees, after) :=
    applyEach working recorded transactions (objects.copied utxoSet seenTxids) 0
  (fees.map (fun totalFees => (working, recorded, totalFees)), after)

/-- The batch that references of a result name. -/
def batchAt (objects : Objects) (result : Nat × Nat × Int) : TransactionBatch where
  utxoSet := objects.utxoSet result.1
  seenTxids := objects.txidSet result.2.1
  totalFees := result.2.2

theorem applyEach_spec (before : Objects) (transactions : List Transaction) :
    forall (utxos : UTXOSet) (txids : Finset Str) (totalFees : Int),
      exists utxos' txids' fees,
        applyEach before.utxoSets.length before.txidSets.length transactions
            ⟨before.utxoSets ++ [utxos], before.txidSets ++ [txids]⟩ totalFees =
          (fees, ⟨before.utxoSets ++ [utxos'], before.txidSets ++ [txids']⟩) ∧
        transactions.foldlM applyTransaction ⟨utxos, txids, totalFees⟩ =
          fees.map (fun total => ⟨utxos', txids', total⟩) := by
  induction transactions with
  | nil =>
      intro utxos txids totalFees
      exact ⟨utxos, txids, .ok totalFees, rfl, rfl⟩
  | cons transaction rest ih =>
      intro utxos txids totalFees
      have hutxos : (Objects.mk (before.utxoSets ++ [utxos])
          (before.txidSets ++ [txids])).utxoSet before.utxoSets.length = utxos := by
        simp [Objects.utxoSet]
      have htxids : (Objects.mk (before.utxoSets ++ [utxos])
          (before.txidSets ++ [txids])).txidSet before.txidSets.length = txids := by
        simp [Objects.txidSet]
      unfold applyEach
      rw [hutxos, htxids, List.foldlM_cons]
      unfold applyTransaction
      cases hfee : calculateTransactionFee transaction utxos with
      | error e => exact ⟨utxos, txids, .error e, rfl, rfl⟩
      | ok fee =>
          by_cases hknown : transaction.txid ∈ txids
          · simp only [bind, Except.bind, if_pos hknown]
            exact ⟨utxos, txids, .error _, rfl, rfl⟩
          · simp only [bind, Except.bind, if_neg hknown]
            cases happly : utxos.applyValidTransaction transaction with
            | error e => exact ⟨utxos, txids, .error _, rfl, rfl⟩
            | ok updated =>
                rcases ih updated (insert transaction.txid txids) (totalFees + fee) with
                  ⟨utxos', txids', fees, hrun, hbatch⟩
                refine ⟨utxos', txids', fees, ?_, ?_⟩
                · rw [← hrun]
                  simp [assign]
                · exact hbatch

theorem applyTransactions_spec (objects : Objects) (transactions : List Transaction)
    (utxoSet seenTxids : Nat) :
    Keeps objects (objects.applyTransactions transactions utxoSet seenTxids).2 ∧
      PyChain.applyTransactions transactions (objects.utxoSet utxoSet)
          (objects.txidSet seenTxids) =
        (objects.applyTransactions transactions utxoSet seenTxids).1.map
          (objects.applyTransactions transactions utxoSet seenTxids).2.batchAt := by
  rcases applyEach_spec objects transactions (objects.utxoSet utxoSet)
    (objects.txidSet seenTxids) 0 with ⟨utxos', txids', fees, hrun, hbatch⟩
  have heq : objects.applyTransactions transactions utxoSet seenTxids =
      (fees.map (fun total => (objects.utxoSets.length, objects.txidSets.length, total)),
        ⟨objects.utxoSets ++ [utxos'], objects.txidSets ++ [txids']⟩) := by
    unfold applyTransactions copied
    simp only [hrun]
  rw [heq]
  refine ⟨⟨List.prefix_append _ _, List.prefix_append _ _⟩, ?_⟩
  unfold PyChain.applyTransactions
  rw [hbatch]
  cases fees with
  | error e => rfl
  | ok total => simp [Except.map, batchAt, Objects.utxoSet, Objects.txidSet]

end Objects

/-!
## Order-free batches
-/

/-- The supplied sets keep their contents, also when the batch fails.  A successful
batch has its closed form, and every other order of the same list that succeeds
gives the same batch. -/
theorem applyTransactions_orderFree [Crypto] (objects : Objects) (utxoSet seenTxids : Nat)
    (hutxos : utxoSet < objects.utxoSets.length)
    (htxids : seenTxids < objects.txidSets.length)
    (hrecorded : RecordedOutputs (objects.utxoSet utxoSet) (objects.txidSet seenTxids)) :
    (forall transactions result after,
      objects.applyTransactions transactions utxoSet seenTxids = (result, after) ->
      after.utxoSet utxoSet = objects.utxoSet utxoSet ∧
        after.txidSet seenTxids = objects.txidSet seenTxids) ∧
      (forall transactions result after,
        objects.applyTransactions transactions utxoSet seenTxids = (.ok result, after) ->
        ClosedForm transactions (objects.utxoSet utxoSet) (objects.txidSet seenTxids)
          (after.batchAt result)) ∧
      (forall transactions order result other after later, order.Perm transactions ->
        objects.applyTransactions transactions utxoSet seenTxids = (.ok result, after) ->
        objects.applyTransactions order utxoSet seenTxids = (.ok other, later) ->
        (after.batchAt result).Same (later.batchAt other)) := by
  have hclosed : forall transactions result after,
      objects.applyTransactions transactions utxoSet seenTxids = (.ok result, after) ->
      ClosedForm transactions (objects.utxoSet utxoSet) (objects.txidSet seenTxids)
        (after.batchAt result) := by
    intro transactions result after hrun
    have hspec :=
      (Objects.applyTransactions_spec objects transactions utxoSet seenTxids).right
    rw [hrun] at hspec
    exact closedForm_of_ok hrecorded hspec
  refine ⟨?_, hclosed, ?_⟩
  · intro transactions result after hrun
    have hkeeps :=
      (Objects.applyTransactions_spec objects transactions utxoSet seenTxids).left
    rw [hrun] at hkeeps
    exact ⟨hkeeps.utxoSet hutxos, hkeeps.txidSet htxids⟩
  · intro transactions order result other after later hperm hrun horder
    exact (hclosed transactions result after hrun).same (hclosed order other later horder)
      hperm

namespace Sample

/-- The state after the second block as two objects. -/
def objects : Objects :=
  ⟨[settled], [settledTxids]⟩

theorem family_applies :
    ((@Objects.applyTransactions familyCrypto objects [parent, child, spare] 0 0).1.toOption
      ).isSome = true ∧
      ((@Objects.applyTransactions familyCrypto objects [spare, parent, child] 0
        0).1.toOption).isSome = true ∧
      ((@Objects.applyTransactions familyCrypto objects [child, parent, spare] 0
        0).1.toOption).isSome = false := by
  decide +kernel

end Sample

theorem applyTransactions_orderFree_family :
    exists result after other later,
      @Objects.applyTransactions Sample.familyCrypto Sample.objects
          [Sample.parent, Sample.child, Sample.spare] 0 0 = (.ok result, after) ∧
        @Objects.applyTransactions Sample.familyCrypto Sample.objects
          [Sample.spare, Sample.parent, Sample.child] 0 0 = (.ok other, later) ∧
        after.utxoSet 0 = Sample.settled ∧ after.txidSet 0 = Sample.settledTxids ∧
        @ClosedForm Sample.familyCrypto [Sample.parent, Sample.child, Sample.spare]
          Sample.settled Sample.settledTxids (after.batchAt result) ∧
        (after.batchAt result).Same (later.batchAt other) := by
  rcases @applyTransactions_orderFree Sample.familyCrypto Sample.objects 0 0 (by decide)
    (by decide) Sample.settled_recorded with ⟨hunchanged, hclosed, hsame⟩
  rcases Sample.family_applies with ⟨happlies, happlies', _⟩
  have hperm : [Sample.spare, Sample.parent, Sample.child].Perm
      [Sample.parent, Sample.child, Sample.spare] :=
    @List.perm_append_comm _ [Sample.spare] [Sample.parent, Sample.child]
  cases hrun : @Objects.applyTransactions Sample.familyCrypto Sample.objects
      [Sample.parent, Sample.child, Sample.spare] 0 0 with
  | mk outcome after =>
      cases hrun' : @Objects.applyTransactions Sample.familyCrypto Sample.objects
          [Sample.spare, Sample.parent, Sample.child] 0 0 with
      | mk outcome' later =>
          rw [hrun] at happlies
          rw [hrun'] at happlies'
          cases outcome with
          | error e => cases happlies
          | ok result =>
              cases outcome' with
              | error e => cases happlies'
              | ok other =>
                  rcases hunchanged _ _ _ hrun with ⟨hutxos, htxids⟩
                  exact ⟨result, after, other, later, rfl, rfl, hutxos, htxids,
                    hclosed _ _ _ hrun, hsame _ _ _ _ _ _ hperm hrun hrun'⟩

end PyChain
