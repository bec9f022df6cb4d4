import PyChain.Foundation.Raising
import PyChain.Transaction.Utxo

/-!
# Validation of regular transactions

The fee of a transaction is computed only after every rule has been checked:
shape, outputs, inputs, ownership and signatures, and the value balance.  The
first part follows the source; the second states what acceptance means as one
structure and proves the two equivalent.
-/

namespace PyChain

open Foundation

/-- The first loop over the inputs: field checks and repeated outpoints. -/
def checkInputs : List TxInput -> List OutPoint -> Bool
  | [], _ => true
  | input :: rest, seenOutpoints =>
      if input.previousTxId = [] ∨ input.outputIndex < 0 ∨ input.publicKey = [] ∨
          input.signature = [] then false
      else if input.outpoint ∈ seenOutpoints then false
      else checkInputs rest (input.outpoint :: seenOutpoints)

theorem checkInputs_nodup : forall (inputs : List TxInput) (seen : List OutPoint),
    checkInputs inputs seen = true ->
      (inputs.map TxInput.outpoint).Nodup ∧
        forall input, input ∈ inputs -> input.outpoint ∉ seen := by
  intro inputs
  induction inputs with
  | nil =>
      intro seen _
      constructor
      · exact List.nodup_nil
      · intro input hinput
        cases hinput
  | cons input rest ih =>
      intro seen h
      unfold checkInputs at h
      split at h
      · cases h
      · split at h
        · cases h
        · rename_i hseen
          rcases ih (input.outpoint :: seen) h with ⟨hnodup, hfresh⟩
          constructor
          · rw [List.map_cons, List.nodup_cons]
            constructor
            · intro hmem
              rcases List.mem_map.mp hmem with ⟨other, hother, heq⟩
              exact hfresh other hother (by rw [heq]; exact List.mem_cons_self)
            · exact hnodup
          · intro other hother
            rcases List.mem_cons.mp hother with heq | hrest
            · rw [heq]
              exact hseen
            · intro hmem
              exact hfresh other hrest (List.mem_cons_of_mem _ hmem)

theorem checkInputs_of : forall (inputs : List TxInput) (seen : List OutPoint),
    (forall input, input ∈ inputs -> input.previousTxId ≠ [] ∧ 0 ≤ input.outputIndex ∧
      input.publicKey ≠ [] ∧ input.signature ≠ []) ->
    (inputs.map TxInput.outpoint).Nodup ->
    (forall input, input ∈ inputs -> input.outpoint ∉ seen) ->
      checkInputs inputs seen = true := by
  intro inputs
  induction inputs with
  | nil =>
      intro seen _ _ _
      rfl
  | cons input rest ih =>
      intro seen hfields hnodup hfresh
      rcases hfields input List.mem_cons_self with ⟨hprevious, hindex, hkey, hsignature⟩
      rw [List.map_cons, List.nodup_cons] at hnodup
      unfold checkInputs
      rw [if_neg (by simp [hprevious, hkey, hsignature, hindex]),
        if_neg (hfresh input List.mem_cons_self)]
      apply ih
      · intro other hother
        exact hfields other (List.mem_cons_of_mem input hother)
      · exact hnodup.right
      · intro other hother hseen
        rcases List.mem_cons.mp hseen with heq | hold
        · apply hnodup.left
          rw [← heq]
          exact List.mem_map_of_mem hother
        · exact hfresh other (List.mem_cons_of_mem input hother) hold

variable [Crypto]

def isValidOutput (output : TxOutput) : Bool :=
  0 < output.amount && validateAddress output.recipientAddress

/-- Version, timestamp and the two non-empty lists. -/
def hasRegularShape (transaction : Transaction) : Bool :=
  transaction.version = 1 && 0 ≤ transaction.timestamp &&
    !transaction.inputs.isEmpty && !transaction.outputs.isEmpty

/-- The second loop: ownership and signatures, adding up the spent amounts.
The answer is `none` where the source returns early. -/
def sumInputs (transaction : Transaction) (utxoSet : UTXOSet) :
    List TxInput -> Nat -> Int -> Except PyError (Option Int)
  | [], _, totalInput => .ok (some totalInput)
  | input :: rest, inputIndex, totalInput =>
      match utxoSet.get input.previousTxId input.outputIndex with
      | none => .ok none
      | some utxo =>
          if isValidOutput utxo = false then .ok none
          else do
            let publicKey <- publicKeyFromHex input.publicKey
            let signature <- bytesFromHex input.signature
            if publicKeyToAddress publicKey ≠ utxo.recipientAddress then .ok none
            else do
              let message <- transaction.signingBytes inputIndex
              if verifySignature publicKey message signature = false then .ok none
              else
                sumInputs transaction utxoSet rest (inputIndex + 1)
                  (totalInput + utxo.amount)

def validatedFee (transaction : Transaction) (utxoSet : UTXOSet) :
    Except PyError (Option Int) :=
  if hasRegularShape transaction = false then .ok none
  else if transaction.outputs.all isValidOutput = false then .ok none
  else if checkInputs transaction.inputs [] = false then .ok none
  else do
    let result <- sumInputs transaction utxoSet transaction.inputs 0 0
    match result with
    | none => .ok none
    | some totalInput =>
        let fee := totalInput - (transaction.outputs.map TxOutput.amount).sum
        if 0 ≤ fee then .ok (some fee) else .ok none

/-- Every exception the validation can raise is in the caught list. -/
def safeValidatedFee (transaction : Transaction) (utxoSet : UTXOSet) : Option Int :=
  match validatedFee transaction utxoSet with
  | .ok fee => fee
  | .error _ => none

def calculateTransactionFee (transaction : Transaction) (utxoSet : UTXOSet) :
    Except PyError Int :=
  match safeValidatedFee transaction utxoSet with
  | none => .error (.valueError "Cannot calculate fee for an invalid transaction")
  | some fee => .ok fee

def validateTransaction (transaction : Transaction) (utxoSet : UTXOSet) : Bool :=
  (safeValidatedFee transaction utxoSet).isSome

/-!
## What acceptance means
-/

/-- The input at an index is signed by the owner of the output it spends. -/
structure Authorised (transaction : Transaction) (inputIndex : Nat)
    (input : TxInput) (address : Str) : Prop where
  signed : exists publicKey signature message,
    publicKeyFromHex input.publicKey = .ok publicKey ∧
      bytesFromHex input.signature = .ok signature ∧
      publicKeyToAddress publicKey = address ∧
      transaction.signingBytes inputIndex = .ok message ∧
      verifySignature publicKey message signature = true

/-- All the rules a regular transaction meets against a view of the ledger. -/
structure Accepted (transaction : Transaction) (utxoSet : UTXOSet) (fee : Int) :
    Prop where
  shape : hasRegularShape transaction = true
  outputs : forall output, output ∈ transaction.outputs -> isValidOutput output = true
  inputs : checkInputs transaction.inputs [] = true
  authorised : forall inputIndex input, transaction.inputs[inputIndex]? = some input ->
    exists utxo, utxoSet.get? input.outpoint = some utxo ∧ isValidOutput utxo = true ∧
      Authorised transaction inputIndex input utxo.recipientAddress
  fee_eq : fee = OutputLedger.fee TxOutput.amount utxoSet (UTXOSet.posting transaction)
  fee_nonneg : 0 ≤ fee

/-- The second loop succeeds exactly when each input is funded and signed, and
then it has added the spent amounts to its accumulator. -/
theorem sumInputs_eq_ok_some_iff (transaction : Transaction) (utxoSet : UTXOSet) :
    forall (inputs : List TxInput) (start : Nat) (total result : Int),
      sumInputs transaction utxoSet inputs start total = .ok (some result) <->
        (forall i input, inputs[i]? = some input ->
          exists utxo, utxoSet.get? input.outpoint = some utxo ∧
            isValidOutput utxo = true ∧
            Authorised transaction (start + i) input utxo.recipientAddress) ∧
          result = total +
            ((inputs.map TxInput.outpoint).map
              (utxoSet.weightAt TxOutput.amount)).sum := by
  intro inputs
  induction inputs with
  | nil =>
      intro start total result
      simp only [sumInputs, Except.ok.injEq, Option.some.injEq, List.getElem?_nil,
        reduceCtorEq, false_implies, implies_true, true_and, List.map_nil, List.sum_nil,
        Int.add_zero]
      exact eq_comm
  | cons input rest ih =>
      intro start total result
      constructor
      · intro h
        unfold sumInputs at h
        cases hget : utxoSet.get input.previousTxId input.outputIndex with
        | none =>
            rw [hget] at h
            cases h
        | some utxo =>
            rw [hget] at h
            by_cases hvalid : isValidOutput utxo = false
            · simp only [hvalid, if_true] at h
              cases h
            · simp only [hvalid, Bool.true_eq_false, if_false] at h
              rcases bind_eq_ok_iff.mp h with ⟨publicKey, hkey, h⟩
              rcases bind_eq_ok_iff.mp h with ⟨signature, hsignature, h⟩
              split at h
              · cases h
              · rename_i haddress
                rcases bind_eq_ok_iff.mp h with ⟨message, hmessage, h⟩
                split at h
                · cases h
                · rename_i hverify
                  rcases (ih (start + 1) (total + utxo.amount) result).mp h with
                    ⟨hrest, hsum⟩
                  constructor
                  · intro i other hi
                    cases i with
                    | zero =>
                        cases hi
                        exact ⟨utxo, hget, by simpa using hvalid,
                          ⟨publicKey, signature, message, hkey, hsignature,
                            by simpa using haddress, hmessage, by simpa using hverify⟩⟩
                    | succ i =>
                        have hother := hrest i other (by simpa using hi)
                        rw [Nat.add_right_comm, Nat.add_assoc] at hother
                        exact hother
                  · have hfunded : utxoSet.get? input.outpoint = some utxo := hget
                    rw [List.map_cons, List.map_cons, List.sum_cons,
                      Dict.weightAt_of_get? TxOutput.amount hfunded, hsum]
                    omega
      · intro h
        rcases h with ⟨hall, hsum⟩
        rcases hall 0 input rfl with ⟨utxo, hget, hvalid, hauth⟩
        rcases hauth.signed with
          ⟨publicKey, signature, message, hkey, hsignature, haddress, hmessage, hverify⟩
        unfold sumInputs
        have hget' : utxoSet.get input.previousTxId input.outputIndex = some utxo := hget
        rw [hget']
        simp only [hvalid, Bool.true_eq_false, if_false]
        apply bind_eq_ok_iff.mpr
        refine ⟨publicKey, hkey, ?_⟩
        apply bind_eq_ok_iff.mpr
        refine ⟨signature, hsignature, ?_⟩
        rw [if_neg (by simpa using haddress)]
        apply bind_eq_ok_iff.mpr
        refine ⟨message, hmessage, ?_⟩
        rw [if_neg (by simp [hverify])]
        apply (ih (start + 1) (total + utxo.amount) result).mpr
        constructor
        · intro i other hi
          have hother := hall (i + 1) other (by simpa using hi)
          rw [Nat.add_right_comm, Nat.add_assoc]
          exact hother
        · rw [List.map_cons, List.map_cons, List.sum_cons,
            Dict.weightAt_of_get? TxOutput.amount hget] at hsum
          omega

theorem validatedFee_eq_ok_some_iff (transaction : Transaction) (utxoSet : UTXOSet)
    (fee : Int) :
    validatedFee transaction utxoSet = .ok (some fee) <->
      Accepted transaction utxoSet fee := by
  constructor
  · intro h
    unfold validatedFee at h
    split at h
    · cases h
    rename_i hshape
    split at h
    · cases h
    rename_i houtputs
    split at h
    · cases h
    rename_i hinputs
    rcases bind_eq_ok_iff.mp h with ⟨sum, hsum, h⟩
    cases sum with
    | none =>
        cases h
    | some totalInput =>
        rcases (sumInputs_eq_ok_some_iff transaction utxoSet transaction.inputs 0 0
          totalInput).mp hsum with ⟨hauthorised, htotal⟩
        simp only at h
        split at h
        · rename_i hnonneg
          have hfee := Option.some.inj (Except.ok.inj h)
          constructor
          · simpa using hshape
          · intro output houtput
            exact List.all_eq_true.mp (by simpa using houtputs) output houtput
          · simpa using hinputs
          · intro inputIndex input hinput
            simpa using hauthorised inputIndex input hinput
          · rw [← hfee, htotal, Int.zero_add]
            rfl
          · rw [← hfee]
            exact hnonneg
        · cases h
  · intro h
    have hsum := (sumInputs_eq_ok_some_iff transaction utxoSet transaction.inputs 0 0
      (fee + (transaction.outputs.map TxOutput.amount).sum)).mpr (by
        constructor
        · intro inputIndex input hinput
          simpa using h.authorised inputIndex input hinput
        · have hfee := h.fee_eq
          unfold OutputLedger.fee at hfee
          change fee = ((transaction.inputs.map TxInput.outpoint).map
            (utxoSet.weightAt TxOutput.amount)).sum -
              (transaction.outputs.map TxOutput.amount).sum at hfee
          omega)
    unfold validatedFee
    rw [if_neg (by simp [h.shape]), if_neg (by simpa using h.outputs),
      if_neg (by simp [h.inputs])]
    apply bind_eq_ok_iff.mpr
    refine ⟨_, hsum, ?_⟩
    simp only [Int.add_sub_cancel]
    rw [if_pos h.fee_nonneg]

theorem safeValidatedFee_eq_some_iff (transaction : Transaction) (utxoSet : UTXOSet)
    (fee : Int) :
    safeValidatedFee transaction utxoSet = some fee <->
      Accepted transaction utxoSet fee := by
  rw [← validatedFee_eq_ok_some_iff]
  unfold safeValidatedFee
  cases validatedFee transaction utxoSet with
  | error e =>
      simp
  | ok answer =>
      simp

theorem calculateTransactionFee_eq_ok_iff (transaction : Transaction)
    (utxoSet : UTXOSet) (fee : Int) :
    calculateTransactionFee transaction utxoSet = .ok fee <->
      Accepted transaction utxoSet fee := by
  rw [← safeValidatedFee_eq_some_iff]
  unfold calculateTransactionFee
  cases safeValidatedFee transaction utxoSet with
  | none =>
      simp
  | some answer =>
      simp

theorem Accepted.spends_nodup {transaction : Transaction} {utxoSet : UTXOSet}
    {fee : Int} (h : Accepted transaction utxoSet fee) :
    transaction.spentOutpoints.Nodup :=
  (checkInputs_nodup transaction.inputs [] h.inputs).left

theorem Accepted.spends_present {transaction : Transaction} {utxoSet : UTXOSet}
    {fee : Int} (h : Accepted transaction utxoSet fee) {outpoint : OutPoint}
    (hmem : outpoint ∈ transaction.spentOutpoints) : outpoint ∈ utxoSet.keys := by
  rcases List.mem_map.mp hmem with ⟨input, hinput, heq⟩
  rcases List.getElem?_of_mem hinput with ⟨i, hi⟩
  rcases h.authorised i input hi with ⟨utxo, hget, _, _⟩
  rw [← heq]
  exact Dict.mem_keys_of_get? hget

theorem Accepted.inputs_ne_nil {transaction : Transaction} {utxoSet : UTXOSet}
    {fee : Int} (h : Accepted transaction utxoSet fee) : transaction.inputs ≠ [] := by
  intro hnil
  have hshape := h.shape
  simp [hasRegularShape, hnil] at hshape

theorem Accepted.congr {transaction : Transaction} {utxoSet other : UTXOSet}
    {fee : Int} (h : Accepted transaction utxoSet fee)
    (hsame : forall outpoint, outpoint ∈ transaction.spentOutpoints ->
      other.get? outpoint = utxoSet.get? outpoint) :
    Accepted transaction other fee where
  shape := h.shape
  outputs := h.outputs
  inputs := h.inputs
  authorised := by
    intro inputIndex input hinput
    rw [hsame input.outpoint
      (List.mem_map.mpr ⟨input, List.mem_of_getElem? hinput, rfl⟩)]
    exact h.authorised inputIndex input hinput
  fee_eq := by
    rw [h.fee_eq]
    unfold OutputLedger.fee
    apply congrArg (fun total => total - _)
    apply congrArg List.sum
    apply List.map_congr_left
    intro outpoint houtpoint
    unfold Dict.weightAt
    rw [hsame outpoint houtpoint]
  fee_nonneg := h.fee_nonneg

end PyChain
