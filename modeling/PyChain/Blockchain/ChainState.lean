import PyChain.Consensus.ProofOfWork

/-!
# Ledger state of a validated prefix

Regular transactions of a block are processed first, in order, on a copy of the
parent's state.  The coinbase outputs are added last, so they cannot fund the
block that creates them.
-/

namespace PyChain

open Foundation
open OutputLedger (Replay Applies post)

structure ChainState where
  utxoSet : UTXOSet
  seenTxids : Finset Str
deriving DecidableEq

namespace ChainState

def empty : ChainState :=
  { utxoSet := Dict.empty, seenTxids := ∅ }

end ChainState

variable [Crypto]

/-- Every exception of the body is caught and means rejection. -/
def applyBlockTransactions (block : Block) (state : ChainState) : Option ChainState :=
  match block.transactions with
  | [] => none
  | coinbase :: regular =>
      let coinbaseTxid := coinbase.txid
      if coinbaseTxid ∈ state.seenTxids then none
      else
        match applyTransactions regular state.utxoSet state.seenTxids with
        | .error _ => none
        | .ok result =>
            if coinbaseTxid ∈ result.seenTxids then none
            else if validateCoinbaseTransaction coinbase block.timestamp
                result.totalFees = false then none
            else
              match result.utxoSet.addTransactionOutputs coinbase with
              | .error _ => none
              | .ok utxoSet =>
                  some
                    { utxoSet := utxoSet
                      seenTxids := insert coinbaseTxid result.seenTxids }

/-- The transactions of a block in the order in which they touch the ledger. -/
def Block.ledgerOrder (block : Block) : List Transaction :=
  match block.transactions with
  | [] => []
  | coinbase :: regular => regular ++ [coinbase]

/-- What a block accepted on a state did to it. -/
structure BlockApplied (block : Block) (state : ChainState) (coinbase : Transaction)
    (regular : List Transaction) (fees : List Int) (working : UTXOSet)
    (next : ChainState) : Prop where
  transactions : block.transactions = coinbase :: regular
  processes : Processes state.utxoSet state.seenTxids regular fees working
  coinbase_new : coinbase.txid ∉ seenAfter state.seenTxids regular
  coinbase_valid :
    validateCoinbaseTransaction coinbase block.timestamp fees.sum = true
  coinbase_applies : Applies working (UTXOSet.posting coinbase)
  next_eq : next =
    { utxoSet := post working (UTXOSet.posting coinbase)
      seenTxids := insert coinbase.txid (seenAfter state.seenTxids regular) }

theorem validateCoinbaseTransaction_inputs {transaction : Transaction}
    {blockTimestamp totalFees : Int}
    (h : validateCoinbaseTransaction transaction blockTimestamp totalFees = true) :
    transaction.inputs = [] := by
  rcases (validateCoinbaseTransaction_iff _ _ _).mp h with ⟨_, hstructure, _⟩
  exact ((validateCoinbaseStructure_iff _ _).mp hstructure).right.left

theorem applyBlockTransactions_eq_some_iff (block : Block) (state next : ChainState) :
    applyBlockTransactions block state = some next <->
      exists coinbase regular fees working,
        BlockApplied block state coinbase regular fees working next := by
  constructor
  · intro h
    unfold applyBlockTransactions at h
    cases htransactions : block.transactions with
    | nil =>
        rw [htransactions] at h
        cases h
    | cons coinbase regular =>
        rw [htransactions] at h
        by_cases hseen : coinbase.txid ∈ state.seenTxids
        · simp only [if_pos hseen] at h
          cases h
        simp only [if_neg hseen] at h
        cases hbatch : applyTransactions regular state.utxoSet state.seenTxids with
        | error e =>
            rw [hbatch] at h
            cases h
        | ok result =>
            rw [hbatch] at h
            rcases (applyTransactions_eq_ok_iff _ _ _ _).mp hbatch with
              ⟨fees, hprocesses, hresultSeen, htotal⟩
            by_cases hresult : coinbase.txid ∈ result.seenTxids
            · simp only [if_pos hresult] at h
              cases h
            simp only [if_neg hresult] at h
            split at h
            · cases h
            rename_i hvalid
            have hvalid' : validateCoinbaseTransaction coinbase block.timestamp
                result.totalFees = true := by
              simpa using hvalid
            cases hadd : result.utxoSet.addTransactionOutputs coinbase with
            | error e =>
                rw [hadd] at h
                cases h
            | ok utxoSet =>
                rw [hadd] at h
                rcases (UTXOSet.addTransactionOutputs_eq_ok_iff _ _ _
                  (validateCoinbaseTransaction_inputs hvalid')).mp hadd with
                  ⟨happlies, hutxos⟩
                refine ⟨coinbase, regular, fees, result.utxoSet, ?_⟩
                rw [hresultSeen] at hresult
                rw [htotal] at hvalid'
                constructor
                · exact htransactions
                · exact hprocesses
                · exact hresult
                · exact hvalid'
                · exact happlies
                · rw [← hutxos, ← hresultSeen]
                  exact (Option.some.inj h).symm
  · intro h
    rcases h with ⟨coinbase, regular, fees, working, h⟩
    have hseen : coinbase.txid ∉ state.seenTxids := by
      intro hmem
      apply h.coinbase_new
      exact Finset.mem_union_left _ hmem
    have hbatch := (applyTransactions_eq_ok_iff regular state.utxoSet state.seenTxids
      ⟨working, seenAfter state.seenTxids regular, fees.sum⟩).mpr
        ⟨fees, h.processes, rfl, rfl⟩
    have hadd := (UTXOSet.addTransactionOutputs_eq_ok_iff working _ coinbase
      (validateCoinbaseTransaction_inputs h.coinbase_valid)).mpr
        ⟨h.coinbase_applies, rfl⟩
    unfold applyBlockTransactions
    rw [h.transactions]
    simp only [if_neg hseen, hbatch, if_neg h.coinbase_new, h.coinbase_valid,
      Bool.true_eq_false, if_false, hadd, h.next_eq]

namespace BlockApplied

variable {block : Block} {state next : ChainState} {coinbase : Transaction}
  {regular : List Transaction} {fees : List Int} {working : UTXOSet}

theorem ledgerOrder_eq
    (h : BlockApplied block state coinbase regular fees working next) :
    block.ledgerOrder = regular ++ [coinbase] := by
  unfold Block.ledgerOrder
  rw [h.transactions]

theorem coinbase_inputs
    (h : BlockApplied block state coinbase regular fees working next) :
    coinbase.inputs = [] :=
  validateCoinbaseTransaction_inputs h.coinbase_valid

theorem replay (h : BlockApplied block state coinbase regular fees working next) :
    Replay state.utxoSet (postings block.ledgerOrder) next.utxoSet := by
  rw [h.ledgerOrder_eq, h.next_eq]
  unfold postings
  rw [List.map_append]
  exact OutputLedger.replay_append h.processes.replay
    (Replay.cons h.coinbase_applies (Replay.nil _))

theorem seen_eq (h : BlockApplied block state coinbase regular fees working next) :
    next.seenTxids = seenAfter state.seenTxids block.ledgerOrder := by
  rw [h.ledgerOrder_eq, h.next_eq, seenAfter_append]
  ext txid
  simp only [seenAfter, Finset.mem_insert, Finset.mem_union, List.mem_toFinset,
    List.map_cons, List.map_nil, List.mem_singleton]
  exact or_comm

theorem txids_new (h : BlockApplied block state coinbase regular fees working next) :
    (block.ledgerOrder.map Transaction.txid).Nodup ∧
      forall transaction, transaction ∈ block.ledgerOrder ->
        transaction.txid ∉ state.seenTxids := by
  rcases h.processes.txids_new with ⟨hnodup, hnew⟩
  have hcoinbase : coinbase.txid ∉ state.seenTxids ∧
      coinbase.txid ∉ regular.map Transaction.txid := by
    constructor
    · intro hmem
      exact h.coinbase_new (Finset.mem_union_left _ hmem)
    · intro hmem
      exact h.coinbase_new (Finset.mem_union_right _ (List.mem_toFinset.mpr hmem))
  rw [h.ledgerOrder_eq]
  constructor
  · rw [List.map_append, List.nodup_append]
    constructor
    · exact hnodup
    constructor
    · exact List.nodup_singleton _
    · intro txid htxid other hother heq
      have hother' : other = coinbase.txid := by
        simpa using hother
      rw [heq, hother'] at htxid
      exact hcoinbase.right htxid
  · intro transaction hmem
    rcases List.mem_append.mp hmem with hregular | hlast
    · exact hnew transaction hregular
    · have heq : transaction = coinbase := by
        simpa using hlast
      rw [heq]
      exact hcoinbase.left

theorem coinbase_amount
    (h : BlockApplied block state coinbase regular fees working next) :
    exists output, coinbase.outputs = [output] ∧ isValidOutput output = true ∧
      output.amount ≤ BLOCK_SUBSIDY + fees.sum := by
  rcases (validateCoinbaseTransaction_iff _ _ _).mp h.coinbase_valid with
    ⟨_, hstructure, output, houtputs, hcap⟩
  rcases (validateCoinbaseStructure_iff _ _).mp hstructure with
    ⟨_, _, _, _, output', houtputs', hvalid⟩
  have heq : output' = output := by
    rw [houtputs] at houtputs'
    simpa using houtputs'.symm
  rw [heq] at hvalid
  exact ⟨output, houtputs, hvalid, hcap⟩

end BlockApplied

end PyChain
