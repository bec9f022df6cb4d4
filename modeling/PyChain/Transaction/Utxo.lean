import PyChain.Foundation.OutputLedger
import PyChain.Transaction.Transaction

/-!
# The set of unspent outputs

The confirmed and pending views are dictionaries from outpoints to outputs.
Applying a transaction is the posting of the general ledger theory: it removes
the spent outpoints and adds the new outputs, after checking the whole batch.
-/

namespace PyChain

open Foundation

abbrev UTXOSet : Type := Dict OutPoint TxOutput

namespace UTXOSet

def add (utxos : UTXOSet) (txid : Str) (outputIndex : Int) (output : TxOutput) :
    Except PyError UTXOSet :=
  if utxos.contains (txid, outputIndex) then
    .error (.valueError "UTXO outpoint already exists")
  else .ok (utxos.set (txid, outputIndex) output)

def get (utxos : UTXOSet) (txid : Str) (outputIndex : Int) : Option TxOutput :=
  utxos.get? (txid, outputIndex)

def exists_ (utxos : UTXOSet) (txid : Str) (outputIndex : Int) : Bool :=
  utxos.contains (txid, outputIndex)

def getUtxosForAddress (utxos : UTXOSet) (address : Str) : UTXOSet :=
  utxos.filter (fun item => item.2.recipientAddress = address)

def getBalance (utxos : UTXOSet) (address : Str) : Int :=
  ((utxos.values.filter (fun output => output.recipientAddress = address)).map
    TxOutput.amount).sum

variable [Crypto]

/-- The outputs of a transaction keyed by outpoint. -/
def outputItems (transaction : Transaction) : List (OutPoint × TxOutput) :=
  transaction.outputs.zipIdx.map
    (fun output => ((transaction.txid, (output.2 : Int)), output.1))

def transactionOutputs (utxos : UTXOSet) (transaction : Transaction) :
    Except PyError (List (OutPoint × TxOutput)) :=
  let outputs := outputItems transaction
  if outputs.any (fun item => utxos.contains item.1) then
    .error (.valueError "Transaction would overwrite an existing UTXO")
  else .ok outputs

def addTransactionOutputs (utxos : UTXOSet) (transaction : Transaction) :
    Except PyError UTXOSet :=
  match utxos.transactionOutputs transaction with
  | .error e => .error e
  | .ok outputs => .ok (utxos.update outputs)

def applyValidTransaction (utxos : UTXOSet) (transaction : Transaction) :
    Except PyError UTXOSet :=
  let spent := transaction.spentOutpoints
  if ¬ spent.Nodup then
    .error (.valueError "Transaction spends the same UTXO more than once")
  else if ¬ spent.all utxos.contains then .error .keyError
  else
    match utxos.transactionOutputs transaction with
    | .error e => .error e
    | .ok outputs => .ok ((utxos.eraseAll spent).update outputs)

/-!
## Transactions as postings
-/

def posting (transaction : Transaction) : Posting Str TxOutput where
  ident := transaction.txid
  spends := transaction.spentOutpoints
  outputs := transaction.outputs

theorem posting_created (transaction : Transaction) :
    (posting transaction).created = outputItems transaction := rfl

theorem transactionOutputs_eq_ok_iff (utxos : UTXOSet) (transaction : Transaction)
    (outputs : List (OutPoint × TxOutput)) :
    utxos.transactionOutputs transaction = .ok outputs <->
      outputs = (posting transaction).created ∧
        forall entry, entry ∈ (posting transaction).created -> entry.1 ∉ utxos.keys := by
  rw [posting_created]
  unfold transactionOutputs
  by_cases h : (outputItems transaction).any (fun item => utxos.contains item.1) = true
  · simp only [h, if_true]
    constructor
    · intro hcontra
      cases hcontra
    · intro hfresh
      rcases List.any_eq_true.mp h with ⟨item, hitem, hcontains⟩
      exact absurd ((Dict.contains_iff utxos item.1).mp hcontains)
        (hfresh.right item hitem)
  · simp only [h]
    constructor
    · intro hok
      constructor
      · exact (Except.ok.inj hok).symm
      · intro entry hentry hmem
        apply h
        exact List.any_eq_true.mpr
          ⟨entry, hentry, (Dict.contains_iff utxos entry.1).mpr hmem⟩
    · intro hok
      rw [hok.left]
      rfl

theorem applyValidTransaction_eq_ok_iff (utxos updated : UTXOSet)
    (transaction : Transaction) :
    utxos.applyValidTransaction transaction = .ok updated <->
      OutputLedger.Applies utxos (posting transaction) ∧
        updated = OutputLedger.post utxos (posting transaction) := by
  unfold applyValidTransaction OutputLedger.Applies OutputLedger.post
  have hall : (transaction.spentOutpoints.all utxos.contains = true) <->
      forall k, k ∈ transaction.spentOutpoints -> k ∈ utxos.keys := by
    rw [List.all_eq_true]
    constructor
    · intro h k hk
      exact (Dict.contains_iff utxos k).mp (h k hk)
    · intro h k hk
      exact (Dict.contains_iff utxos k).mpr (h k hk)
  by_cases hnodup : transaction.spentOutpoints.Nodup
  · by_cases hpresent : transaction.spentOutpoints.all utxos.contains = true
    · simp only [hnodup, hpresent, not_true_eq_false, if_false]
      cases houtputs : utxos.transactionOutputs transaction with
      | error e =>
          simp only [reduceCtorEq, false_iff]
          intro h
          have hok := (transactionOutputs_eq_ok_iff utxos transaction _).mpr
            ⟨rfl, h.left.right.right⟩
          rw [houtputs] at hok
          cases hok
      | ok outputs =>
          rcases (transactionOutputs_eq_ok_iff utxos transaction outputs).mp houtputs with
            ⟨hcreated, hfresh⟩
          subst hcreated
          simp only [Except.ok.injEq]
          constructor
          · intro h
            exact ⟨⟨hnodup, hall.mp hpresent, hfresh⟩, h.symm⟩
          · intro h
            exact h.right.symm
    · simp only [hnodup, hpresent, not_true_eq_false, if_false]
      constructor
      · intro h
        cases h
      · intro h
        exact absurd (hall.mpr h.left.right.left) hpresent
  · simp only [hnodup, not_false_eq_true, if_true]
    constructor
    · intro h
      cases h
    · intro h
      exact absurd h.left.left hnodup

theorem addTransactionOutputs_eq_ok_iff (utxos updated : UTXOSet)
    (transaction : Transaction) (hinputs : transaction.inputs = []) :
    utxos.addTransactionOutputs transaction = .ok updated <->
      OutputLedger.Applies utxos (posting transaction) ∧
        updated = OutputLedger.post utxos (posting transaction) := by
  have hspends : (posting transaction).spends = [] := by
    simp [posting, Transaction.spentOutpoints, hinputs]
  unfold addTransactionOutputs OutputLedger.Applies OutputLedger.post
  rw [hspends]
  cases houtputs : utxos.transactionOutputs transaction with
  | error e =>
      simp only [reduceCtorEq, false_iff]
      intro h
      have hok := (transactionOutputs_eq_ok_iff utxos transaction _).mpr
        ⟨rfl, h.left.right.right⟩
      rw [houtputs] at hok
      cases hok
  | ok outputs =>
      rcases (transactionOutputs_eq_ok_iff utxos transaction outputs).mp houtputs with
        ⟨hcreated, hfresh⟩
      subst hcreated
      simp only [Except.ok.injEq]
      constructor
      · intro h
        refine ⟨⟨List.nodup_nil, ?_, hfresh⟩, h.symm⟩
        intro k hk
        cases hk
      · intro h
        exact h.right.symm

end UTXOSet

/-- The amount an output carries for one address. -/
def amountTo (address : Str) (output : TxOutput) : Int :=
  if output.recipientAddress = address then output.amount else 0

theorem sum_filter_amount (address : Str) (outputs : List TxOutput) :
    ((outputs.filter (fun output => output.recipientAddress = address)).map
        TxOutput.amount).sum = (outputs.map (amountTo address)).sum := by
  induction outputs with
  | nil =>
      rfl
  | cons output rest ih =>
      by_cases h : output.recipientAddress = address
      · simp [amountTo, h, ih]
      · simp [amountTo, h, ih]

theorem getBalance_eq_total (utxos : UTXOSet) (address : Str) :
    utxos.getBalance address = utxos.total (amountTo address) := by
  unfold UTXOSet.getBalance Dict.total Dict.values
  rw [sum_filter_amount, List.map_map]
  rfl

end PyChain
