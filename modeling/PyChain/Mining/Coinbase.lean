import PyChain.Transaction.Processing

/-!
# Coinbase transactions

The reward transaction of a block has no inputs and one output.  Its amount is
capped by the subsidy plus the fees that the caller verified.
-/

namespace PyChain

open Foundation

def BLOCK_SUBSIDY : Int := 50

def SUPPORTED_TRANSACTION_VERSION : Int := 1

variable [Crypto]

def createCoinbaseTransaction (recipientAddress : Str) (timestamp fees : Int) :
    Except PyError Transaction := do
  require (validateAddress recipientAddress = true)
    (PyError.valueError "recipient_address must be a valid PyChain address")
  require (0 ≤ timestamp) (PyError.valueError "timestamp must be a non-negative integer")
  require (0 ≤ fees) (PyError.valueError "fees must be a non-negative integer")
  return {
    inputs := []
    outputs := [{ amount := BLOCK_SUBSIDY + fees, recipientAddress := recipientAddress }]
    timestamp := timestamp
    version := SUPPORTED_TRANSACTION_VERSION }

omit [Crypto] in
def isCoinbaseTransaction (transaction : Transaction) : Bool :=
  transaction.inputs.isEmpty

def validateCoinbaseStructure (transaction : Transaction) (blockTimestamp : Int) :
    Bool :=
  if blockTimestamp < 0 then false
  else if isCoinbaseTransaction transaction = false then false
  else if transaction.version ≠ SUPPORTED_TRANSACTION_VERSION then false
  else if transaction.timestamp ≠ blockTimestamp then false
  else
    match transaction.outputs with
    | [output] => 0 < output.amount && validateAddress output.recipientAddress
    | _ => false

/-- The reward cap; the fees come from the caller. -/
def validateCoinbaseTransaction (transaction : Transaction)
    (blockTimestamp totalFees : Int) : Bool :=
  0 ≤ totalFees && validateCoinbaseStructure transaction blockTimestamp &&
    (match transaction.outputs with
      | [] => false
      | output :: _ => output.amount ≤ BLOCK_SUBSIDY + totalFees)

theorem validateCoinbaseStructure_iff (transaction : Transaction)
    (blockTimestamp : Int) :
    validateCoinbaseStructure transaction blockTimestamp = true <->
      0 ≤ blockTimestamp ∧ transaction.inputs = [] ∧
        transaction.version = SUPPORTED_TRANSACTION_VERSION ∧
        transaction.timestamp = blockTimestamp ∧
        exists output, transaction.outputs = [output] ∧ isValidOutput output = true := by
  unfold validateCoinbaseStructure isCoinbaseTransaction isValidOutput
  constructor
  · intro h
    split at h
    · cases h
    rename_i htime
    split at h
    · cases h
    rename_i hinputs
    split at h
    · cases h
    rename_i hversion
    split at h
    · cases h
    rename_i hstamp
    split at h
    · rename_i output houtputs
      refine ⟨by omega, by simpa using hinputs, by simpa using hversion,
        by simpa using hstamp, output, houtputs, h⟩
    · cases h
  · intro h
    rcases h with ⟨htime, hinputs, hversion, hstamp, output, houtputs, hvalid⟩
    rw [if_neg (by omega), if_neg (by simp [hinputs]), if_neg (by simp [hversion]),
      if_neg (by simp [hstamp]), houtputs]
    exact hvalid

theorem validateCoinbaseTransaction_iff (transaction : Transaction)
    (blockTimestamp totalFees : Int) :
    validateCoinbaseTransaction transaction blockTimestamp totalFees = true <->
      0 ≤ totalFees ∧ validateCoinbaseStructure transaction blockTimestamp = true ∧
        exists output, transaction.outputs = [output] ∧
          output.amount ≤ BLOCK_SUBSIDY + totalFees := by
  unfold validateCoinbaseTransaction
  simp only [Bool.and_eq_true, decide_eq_true_eq, and_assoc]
  constructor
  · intro h
    rcases h with ⟨hfees, hstructure, hcap⟩
    rcases (validateCoinbaseStructure_iff _ _).mp hstructure with
      ⟨_, _, _, _, output, houtputs, _⟩
    rw [houtputs] at hcap
    exact ⟨hfees, hstructure, output, houtputs, by simpa using hcap⟩
  · intro h
    rcases h with ⟨hfees, hstructure, output, houtputs, hcap⟩
    refine ⟨hfees, hstructure, ?_⟩
    rw [houtputs]
    simpa using hcap

end PyChain
