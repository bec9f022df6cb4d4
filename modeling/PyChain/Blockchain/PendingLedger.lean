import PyChain.Blockchain.Queries

/-!
# The pool continues the ledger

Pending transactions follow the confirmed ones in one history of the general ledger,
and the working set of the pool is what that history leaves.  The wallet history
looks outputs up in what was made before; at the turn of a transaction that already
holds whatever it spends, so it may as well look in the whole history.
-/

namespace PyChain

open Foundation
open OutputLedger (Replay)

namespace Blockchain

section Pending

variable [Crypto]

/-- The confirmed transactions, and then the pending ones. -/
def fullHistory (chain : Blockchain) : List Transaction :=
  chainHistory chain.blocks ++ chain.mempool.getTransactions

/-- What the pool adds to the ledger of a chain. -/
structure PendingLedger (chain : Blockchain) : Prop where
  confirmed : ChainLedger chain.blocks chain.state
  processes : Processes chain.state.utxoSet chain.state.seenTxids
    chain.mempool.getTransactions (chain.mempool.entries.values.map MempoolEntry.fee)
    chain.mempool.workingUtxos

theorem pendingLedger {chain : Blockchain} (h : (live chain).Sound) : PendingLedger chain where
  confirmed := by
    rcases h.valid with ⟨tip, hvalid⟩
    exact hvalid.ledger
  processes := by
    have hutxos : chain.mempool.confirmedUtxos = chain.state.utxoSet := h.utxoSet
    have hseen : chain.mempool.seenTxids = chain.state.seenTxids := h.seenTxids
    rw [← hutxos, ← hseen]
    exact h.coherent.processes

namespace PendingLedger

variable {chain : Blockchain}

theorem replay (h : PendingLedger chain) :
    Replay Dict.empty (postings (fullHistory chain)) chain.mempool.workingUtxos := by
  unfold fullHistory postings
  rw [List.map_append]
  exact OutputLedger.replay_append h.confirmed.replay h.processes.replay

theorem txids_nodup (h : PendingLedger chain) :
    ((fullHistory chain).map Transaction.txid).Nodup := by
  rcases h.processes.txids_new with ⟨hnodup, hnew⟩
  unfold fullHistory
  rw [List.map_append, List.nodup_append]
  refine ⟨h.confirmed.txids_nodup, hnodup, ?_⟩
  intro txid htxid other hother heq
  rcases List.mem_map.mp hother with ⟨transaction, htransaction, hother'⟩
  apply hnew transaction htransaction
  rw [h.confirmed.seen, hother', ← heq]
  exact Finset.mem_union_right _ (List.mem_toFinset.mpr htxid)

theorem freshIdents (h : PendingLedger chain) :
    OutputLedger.FreshIdents (Dict.empty : UTXOSet) (postings (fullHistory chain)) where
  nodup := by
    have hnodup := h.txids_nodup
    unfold postings
    rw [List.map_map]
    exact hnodup
  fresh := by
    intro p _ k hk
    cases hk

theorem spends_made (h : PendingLedger chain) {front back : List Transaction}
    {transaction : Transaction}
    (hsplit : chain.mempool.getTransactions = front ++ transaction :: back)
    {outpoint : OutPoint} (hspent : outpoint ∈ transaction.spentOutpoints) :
    exists output, (outpoint, output) ∈
      OutputLedger.createdBy (postings (chainHistory chain.blocks ++ front)) := by
  have hexact := OutputLedger.replay_exact h.freshIdents h.replay
  have hhistory : postings (fullHistory chain) =
      postings (chainHistory chain.blocks ++ front) ++
        UTXOSet.posting transaction :: postings back := by
    unfold fullHistory
    rw [hsplit]
    unfold postings
    rw [← List.append_assoc, List.map_append, List.map_cons]
  rcases hexact.provenance _ _ _ hhistory outpoint hspent with hbase | hmade
  · cases hbase
  · exact hmade

end PendingLedger

/-!
## The wallet history over the whole history
-/

/-- The outputs that the wallet history has seen after some transactions. -/
def sourcesOf (transactions : List Transaction) : UTXOSet :=
  Dict.empty.update (transactions.flatMap UTXOSet.outputItems)

theorem sourcesOf_append (xs ys : List Transaction) :
    sourcesOf (xs ++ ys) = (sourcesOf xs).update (ys.flatMap UTXOSet.outputItems) := by
  unfold sourcesOf Dict.update
  rw [List.flatMap_append, List.foldl_append]

theorem sourcesOf_get?_iff {transactions : List Transaction}
    (hnodup : (transactions.map Transaction.txid).Nodup) (outpoint : OutPoint)
    (output : TxOutput) :
    (sourcesOf transactions).get? outpoint = some output <->
      (outpoint, output) ∈ transactions.flatMap UTXOSet.outputItems := by
  have hfresh : OutputLedger.FreshIdents (Dict.empty : UTXOSet) (postings transactions) := by
    constructor
    · unfold postings
      rw [List.map_map]
      exact hnodup
    · intro p _ k hk
      cases hk
  have hkeys := OutputLedger.createdBy_keys_nodup hfresh
  rw [createdBy_postings] at hkeys
  unfold sourcesOf
  rw [Dict.get?_eq_some_iff,
    Dict.items_update_of_fresh _ _ hkeys (fun _ _ hmem => by cases hmem)]
  rfl

/-- The record that `inspect` appends, if any. -/
def recordOf (address : Str) (height : Option Nat) (sources : UTXOSet)
    (transaction : Transaction) : List WalletRecord :=
  let previous := transaction.inputs.map (fun input => sources.get? input.outpoint)
  let sent := previous.any (paysAddress address)
  let received := amountPaidTo address transaction.outputs
  if sent = true ∨ received ≠ 0 then
    [{ txid := transaction.txid
       status := if height = none then .pending else .confirmed
       direction := if sent then .sent else .received
       amount := if sent then amountPaidPast address transaction.outputs else received
       timestamp := transaction.timestamp
       blockHeight := height }]
  else []

theorem inspect_eq (address : Str) (height : Option Nat) (sources : UTXOSet)
    (records : List WalletRecord) (transaction : Transaction) :
    inspect address height (sources, records) transaction =
      (sources.update (UTXOSet.outputItems transaction),
        records ++ recordOf address height sources transaction) := by
  unfold inspect recordOf
  simp only
  split
  · rfl
  · rw [List.append_nil]

theorem recordOf_status {address : Str} {height : Option Nat} {sources : UTXOSet}
    {transaction : Transaction} {record : WalletRecord}
    (h : record ∈ recordOf address height sources transaction) :
    record.status = if height = none then .pending else .confirmed := by
  unfold recordOf at h
  simp only at h
  split at h
  · rw [List.mem_singleton.mp h]
  · cases h

theorem recordOf_congr (address : Str) (height : Option Nat) {sources other : UTXOSet}
    {transaction : Transaction}
    (hsame : forall outpoint, outpoint ∈ transaction.spentOutpoints ->
      sources.get? outpoint = other.get? outpoint) :
    recordOf address height sources transaction = recordOf address height other transaction := by
  have hprevious : transaction.inputs.map (fun input => sources.get? input.outpoint) =
      transaction.inputs.map (fun input => other.get? input.outpoint) := by
    apply List.map_congr_left
    intro input hinput
    exact hsame input.outpoint (List.mem_map_of_mem hinput)
  unfold recordOf
  rw [hprevious]

theorem inspects_confirmed (address : Str) (height : Nat) (transactions : List Transaction) :
    forall (sources : UTXOSet) (records : List WalletRecord),
      (forall record, record ∈ records -> record.status = .confirmed) ->
      exists more, transactions.foldl (inspect address (some height)) (sources, records) =
          (sources.update (transactions.flatMap UTXOSet.outputItems), more) ∧
        forall record, record ∈ more -> record.status = .confirmed := by
  induction transactions with
  | nil =>
      intro sources records hrecords
      exact ⟨records, rfl, hrecords⟩
  | cons transaction rest ih =>
      intro sources records hrecords
      rw [List.foldl_cons, inspect_eq]
      rcases ih (sources.update (UTXOSet.outputItems transaction))
        (records ++ recordOf address (some height) sources transaction) (by
          intro record hrecord
          rcases List.mem_append.mp hrecord with hold | hnew
          · exact hrecords record hold
          · exact recordOf_status hnew) with ⟨more, heq, hmore⟩
      refine ⟨more, ?_, hmore⟩
      rw [heq, List.flatMap_cons]
      unfold Dict.update
      rw [List.foldl_append]

theorem inspectBlocks_confirmed (address : Str) (items : List (Block × Nat)) :
    forall (sources : UTXOSet) (records : List WalletRecord),
      (forall record, record ∈ records -> record.status = .confirmed) ->
      exists more, items.foldl (inspectBlock address) (sources, records) =
          (sources.update ((items.flatMap (fun item => item.1.transactions)).flatMap
            UTXOSet.outputItems), more) ∧
        forall record, record ∈ more -> record.status = .confirmed := by
  induction items with
  | nil =>
      intro sources records hrecords
      exact ⟨records, rfl, hrecords⟩
  | cons item rest ih =>
      intro sources records hrecords
      rcases inspects_confirmed address item.2 item.1.transactions sources records hrecords with
        ⟨records', hblock, hrecords'⟩
      rcases ih _ records' hrecords' with ⟨more, heq, hmore⟩
      have hinspect : inspectBlock address (sources, records) item = _ := hblock
      refine ⟨more, ?_, hmore⟩
      rw [List.foldl_cons, hinspect, heq, List.flatMap_cons, List.flatMap_append]
      unfold Dict.update
      rw [List.foldl_append]

theorem PendingLedger.sources_get?_iff {chain : Blockchain} (h : PendingLedger chain)
    {front back : List Transaction} (hsplit : chain.mempool.getTransactions = front ++ back)
    (outpoint : OutPoint) (output : TxOutput) :
    (sourcesOf (chain.blocks.flatMap Block.transactions ++ front)).get? outpoint =
        some output <->
      (outpoint, output) ∈
        OutputLedger.createdBy (postings (chainHistory chain.blocks ++ front)) := by
  have hperm := (chainTransactions_perm chain.blocks).append_right front
  have hnodup := h.txids_nodup
  unfold fullHistory at hnodup
  rw [hsplit, ← List.append_assoc, List.map_append] at hnodup
  have hfront := List.Nodup.of_append_left hnodup
  rw [sourcesOf_get?_iff ((hperm.map Transaction.txid).nodup_iff.mpr hfront),
    createdBy_postings]
  exact (hperm.flatMap_right UTXOSet.outputItems).mem_iff

theorem PendingLedger.sources_eq {chain : Blockchain} (h : PendingLedger chain)
    {front back : List Transaction} {transaction : Transaction}
    (hsplit : chain.mempool.getTransactions = front ++ transaction :: back)
    {outpoint : OutPoint} (hspent : outpoint ∈ transaction.spentOutpoints) :
    (sourcesOf (chain.blocks.flatMap Block.transactions ++ front)).get? outpoint =
      (sourcesOf (chain.blocks.flatMap Block.transactions ++
        chain.mempool.getTransactions)).get? outpoint := by
  rcases h.spends_made hsplit hspent with ⟨output, hmade⟩
  have hwhole : (outpoint, output) ∈
      OutputLedger.createdBy (postings (chainHistory chain.blocks ++
        chain.mempool.getTransactions)) := by
    rw [createdBy_postings] at hmade ⊢
    rw [hsplit, ← List.append_assoc, List.flatMap_append]
    exact List.mem_append_left _ hmade
  rw [(h.sources_get?_iff hsplit outpoint output).mpr hmade,
    (h.sources_get?_iff (List.append_nil _).symm outpoint output).mpr hwhole]

theorem PendingLedger.inspects_pending {chain : Blockchain} (h : PendingLedger chain)
    (address : Str) (back : List Transaction) :
    forall (front : List Transaction) (records : List WalletRecord),
      chain.mempool.getTransactions = front ++ back ->
      (back.foldl (inspect address none)
          (sourcesOf (chain.blocks.flatMap Block.transactions ++ front), records)).2 =
        records ++ back.flatMap (recordOf address none
          (sourcesOf (chain.blocks.flatMap Block.transactions ++
            chain.mempool.getTransactions))) := by
  induction back with
  | nil =>
      intro front records _
      exact (List.append_nil _).symm
  | cons transaction rest ih =>
      intro front records hsplit
      have hsources : (sourcesOf (chain.blocks.flatMap Block.transactions ++ front)).update
            (UTXOSet.outputItems transaction) =
          sourcesOf (chain.blocks.flatMap Block.transactions ++ (front ++ [transaction])) := by
        rw [← List.append_assoc, sourcesOf_append _ [transaction], List.flatMap_singleton]
      rw [List.foldl_cons, inspect_eq, hsources,
        ih (front ++ [transaction]) _ (by rw [hsplit, List.append_assoc]; rfl),
        List.flatMap_cons, List.append_assoc,
        recordOf_congr address none (fun outpoint hspent => h.sources_eq hsplit hspent)]

theorem PendingLedger.walletRecords_pending {chain : Blockchain} (h : PendingLedger chain)
    (address : Str) :
    (walletRecords chain address).filter (fun record => record.status = .pending) =
      chain.mempool.getTransactions.flatMap (recordOf address none
        (sourcesOf (chain.blocks.flatMap Block.transactions ++
          chain.mempool.getTransactions))) := by
  rcases inspectBlocks_confirmed address chain.blocks.zipIdx Dict.empty []
    (fun _ hrecord => by cases hrecord) with ⟨records, hfold, hconfirmed⟩
  have hsources : (Dict.empty : UTXOSet).update
        ((chain.blocks.flatMap Block.transactions).flatMap UTXOSet.outputItems) =
      sourcesOf (chain.blocks.flatMap Block.transactions ++ []) := by
    rw [List.append_nil]
    rfl
  have hnone : records.filter (fun record => record.status = .pending) = [] := by
    rw [List.filter_eq_nil_iff]
    intro record hrecord hpending
    have hstatus := hconfirmed record hrecord
    rw [of_decide_eq_true hpending] at hstatus
    cases hstatus
  unfold walletRecords
  simp only
  rw [hfold, numbered_transactions, hsources, h.inspects_pending address
    chain.mempool.getTransactions [] records (List.nil_append _).symm,
    List.filter_append, hnone, List.nil_append, List.filter_eq_self]
  intro record hrecord
  rcases List.mem_flatMap.mp hrecord with ⟨transaction, _, hmem⟩
  rw [recordOf_status hmem]
  rfl

end Pending

end Blockchain

end PyChain
