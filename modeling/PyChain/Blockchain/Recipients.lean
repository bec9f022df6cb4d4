import PyChain.Crypto.Address
import PyChain.Blockchain.Authorisation
import PyChain.Blockchain.Preimages

/-!
# What can be paid to an address

An output is accepted when the validator accepts its address, and the validator
does not look at the characters under the checksum.  A coin paid to a spelling
that no key has is never spent.
-/

namespace PyChain

open Foundation

section Recipients

variable [Crypto]

/-- The address checks are exact on a string: the validator accepts it only in the
generator's format, and whatever pays to it pays to a key hash. -/
structure ExactlyChecked (address : Str) : Prop where
  format : validateAddress address = true <-> HasGeneratorFormat address
  transfers : forall (transaction : Transaction) (utxoSet : UTXOSet),
    validateTransaction transaction utxoSet = true ->
      forall output, output ∈ transaction.outputs -> output.recipientAddress = address ->
        IsKeyHashAddress address
  coinbases : forall (coinbase : Transaction) (blockTimestamp totalFees : Int),
    validateCoinbaseTransaction coinbase blockTimestamp totalFees = true ->
      forall output, output ∈ coinbase.outputs -> output.recipientAddress = address ->
        IsKeyHashAddress address

theorem isValidOutput_recipient {output : TxOutput} (h : isValidOutput output = true) :
    validateAddress output.recipientAddress = true := by
  unfold isValidOutput at h
  rw [Bool.and_eq_true] at h
  exact h.right

theorem transfer_recipient {transaction : Transaction} {utxoSet : UTXOSet}
    (h : validateTransaction transaction utxoSet = true) {output : TxOutput}
    (houtput : output ∈ transaction.outputs) :
    validateAddress output.recipientAddress = true := by
  unfold validateTransaction at h
  rcases Option.isSome_iff_exists.mp h with ⟨fee, hfee⟩
  have haccepted := (safeValidatedFee_eq_some_iff transaction utxoSet fee).mp hfee
  exact isValidOutput_recipient (haccepted.outputs output houtput)

theorem coinbase_recipient {coinbase : Transaction} {blockTimestamp totalFees : Int}
    (h : validateCoinbaseTransaction coinbase blockTimestamp totalFees = true)
    {output : TxOutput} (houtput : output ∈ coinbase.outputs) :
    validateAddress output.recipientAddress = true := by
  rcases (validateCoinbaseTransaction_iff _ _ _).mp h with ⟨_, hstructure, _⟩
  rcases (validateCoinbaseStructure_iff _ _).mp hstructure with
    ⟨_, _, _, _, paid, houtputs, hvalid⟩
  rw [houtputs] at houtput
  rw [List.mem_singleton.mp houtput]
  exact isValidOutput_recipient hvalid

/-- The checks are exact on every string but the foreign hashes. -/
theorem address_exactlyChecked_iff (address : Str) :
    ExactlyChecked address <-> ¬ HasForeignHash address := by
  constructor
  · intro h hforeign
    exact hforeign.not_generatorFormat (h.format.mp hforeign.validateAddress)
  · intro h
    have hvalid : validateAddress address = true -> IsKeyHashAddress address := by
      intro haccepted
      rcases validateAddress_cases haccepted with hformat | hforeign
      · exact hasGeneratorFormat_iff.mp hformat
      · exact absurd hforeign h
    constructor
    · constructor
      · intro haccepted
        exact hasGeneratorFormat_iff.mpr (hvalid haccepted)
      · exact HasGeneratorFormat.validateAddress
    · intro transaction utxoSet haccepted output houtput heq
      apply hvalid
      rw [← heq]
      exact transfer_recipient haccepted houtput
    · intro coinbase blockTimestamp totalFees haccepted output houtput heq
      apply hvalid
      rw [← heq]
      exact coinbase_recipient haccepted houtput

/-!
## Coins nobody owns
-/

theorem HasForeignHash.not_authorised {address : Str} (h : HasForeignHash address)
    {transaction : Transaction} {inputIndex : Nat} {input : TxInput} :
    ¬ Authorised transaction inputIndex input address := by
  intro hauthorised
  rcases hauthorised.signed with ⟨publicKey, _, _, _, _, heq, _⟩
  exact h.ne_publicKeyToAddress publicKey heq

theorem BlockApplied.keeps_foreign {block : Block} {state next : ChainState}
    {coinbase : Transaction} {regular : List Transaction} {fees : List Int}
    {working : UTXOSet}
    (h : BlockApplied block state coinbase regular fees working next)
    (hrecorded : RecordedOutputs state.utxoSet state.seenTxids) {outpoint : OutPoint}
    {output : TxOutput} (hget : state.utxoSet.get? outpoint = some output)
    (hforeign : HasForeignHash output.recipientAddress) :
    next.utxoSet.get? outpoint = some output := by
  have hunspent : outpoint ∉ OutputLedger.spentBy (postings block.ledgerOrder) := by
    intro hspent
    rw [← h.spent_eq] at hspent
    rcases exists_namedAt hspent with ⟨txIndex, inputIndex, transaction, input, hnamed⟩
    rcases h.named_authorised hrecorded hnamed with ⟨source, hsource, hauthorised⟩
    rw [outputOf_eq_source, OutputLedger.source_of_base hget] at hsource
    rw [← Option.some.inj hsource] at hauthorised
    exact hforeign.not_authorised hauthorised
  have hexact := OutputLedger.replay_exact (h.freshIdents hrecorded) h.replay
  exact (hexact.get?_iff outpoint output).mpr ⟨Or.inl hget, hunspent⟩

namespace Blockchain

theorem Reachable.step {chain : Blockchain} (h : chain.Reachable) (call : Call) :
    (ram.step call chain).2.Reachable := by
  rcases h with ⟨clock, maxTransactions, maxBytes, start, calls, hcreate, hrun⟩
  refine ⟨clock, maxTransactions, maxBytes, start, calls ++ [call], hcreate, ?_⟩
  rw [Machine.run_append, hrun]
  rfl

theorem step_keeps_foreign {chain : Blockchain} (h : chain.Reachable) (call : Call)
    {outpoint : OutPoint} {output : TxOutput}
    (hget : chain.state.utxoSet.get? outpoint = some output)
    (hforeign : HasForeignHash output.recipientAddress) :
    (ram.step call chain).2.state.utxoSet.get? outpoint = some output := by
  rcases ram_step_cases call chain with
    ⟨answer, _, heq⟩ | ⟨next, appended, hprepares, heq⟩
  · rw [heq]
    exact hget
  · cases hprepares with
    | @addBlock block tip clock now nextState _ _ _ _ _ _ =>
        rcases addBlock_applied h (by rw [heq]) with
          ⟨hrecorded, coinbase, regular, fees, working, happlied⟩
        exact happlied.keeps_foreign hrecorded hget hforeign
    | submitTransaction _ =>
        rw [heq]
        exact hget
    | removePendingTransaction _ =>
        rw [heq]
        exact hget

/-- Once confirmed, a coin with a foreign hash is there after every run. -/
theorem run_keeps_foreign {chain : Blockchain} (h : chain.Reachable) (calls : List Call)
    {outpoint : OutPoint} {output : TxOutput}
    (hget : chain.state.utxoSet.get? outpoint = some output)
    (hforeign : HasForeignHash output.recipientAddress) :
    (ram.run calls chain).state.utxoSet.get? outpoint = some output := by
  have hstep : forall (call : Call) (later : Blockchain),
      later.Reachable ∧ later.state.utxoSet.get? outpoint = some output ->
        (ram.step call later).2.Reachable ∧
          (ram.step call later).2.state.utxoSet.get? outpoint = some output := by
    intro call later hlater
    exact ⟨hlater.left.step call, step_keeps_foreign hlater.left call hlater.right hforeign⟩
  exact (ram.run_invariant hstep calls chain ⟨h, hget⟩).right

end Blockchain

end Recipients

/-!
## The sample address in capitals

The key hash of the sample network in upper case, with the checksum of that
spelling, and the signature of the transfer that pays to it.
-/

namespace Sample

def upperHash : Str :=
  publicKeyHash.map Char.toUpper

def upperAddress : Str :=
  str "PYC_" ++ upperHash ++ hexString 8 0x388aff89

def upperSignatureHex : Str :=
  hexString 64 0x9f35d3f29a4c1568044031134ce61421c01dec9a1c619465716025088cf829d2 ++
    hexString 64 0x65c7c5f40079dcf6cc4c822d96911fc8c4295987261112cc5def95ecde08122a

def upperCoinbase : Transaction :=
  { coinbase with outputs := [⟨50, upperAddress⟩] }

def upperTransfer : Transaction :=
  { transfer with
    inputs := [⟨coinbaseTxid, 0, publicKeyHex, upperSignatureHex⟩]
    outputs := [⟨30, upperAddress⟩] }

@[reducible]
def upperCrypto : Crypto where
  sha256 := tableSha256 (digests ++ [(encodeUtf8 upperHash,
    hexString 64 0x388aff896b62e20b372828bd2bfcb32a0425089de200619a591e88260935f7d4)])
  sha256_length := tableSha256_length _
  verifyingKeyFromString := crypto.verifyingKeyFromString
  verify key signature message :=
    decide (key.toString = publicKeyBytes ∧ some signature = fromHex upperSignatureHex ∧
      Except.ok message = upperTransfer.signingBytes 0)

theorem upperAddress_foreign : @HasForeignHash upperCrypto upperAddress := by
  refine ⟨upperHash, ?_, ?_, ?_⟩
  · decide +kernel
  · decide +kernel
  · decide +kernel

end Sample

/-- The validator takes the capitals, a coinbase and a signed transfer pay to them,
and no key has them for an address. -/
theorem upperAddress_not_exactlyChecked :
    @validateAddress Sample.upperCrypto Sample.upperAddress = true ∧
      ¬ @HasGeneratorFormat Sample.upperCrypto Sample.upperAddress ∧
      @validateCoinbaseTransaction Sample.upperCrypto Sample.upperCoinbase
        Sample.upperCoinbase.timestamp 0 = true ∧
      @validateTransaction Sample.upperCrypto Sample.upperTransfer Sample.funding = true ∧
      Sample.upperCoinbase.outputs = [⟨50, Sample.upperAddress⟩] ∧
      Sample.upperTransfer.outputs = [⟨30, Sample.upperAddress⟩] ∧
      (forall publicKey,
        @publicKeyToAddress Sample.upperCrypto publicKey ≠ Sample.upperAddress) ∧
      ¬ @ExactlyChecked Sample.upperCrypto Sample.upperAddress := by
  have hforeign := Sample.upperAddress_foreign
  have hformat := @HasForeignHash.not_generatorFormat Sample.upperCrypto _ hforeign
  have hvalid := @HasForeignHash.validateAddress Sample.upperCrypto _ hforeign
  refine ⟨hvalid, hformat, ?_, ?_, rfl, rfl, ?_, ?_⟩
  · decide +kernel
  · decide +kernel
  · exact @HasForeignHash.ne_publicKeyToAddress Sample.upperCrypto _ hforeign
  · intro hexact
    exact hformat ((@ExactlyChecked.format Sample.upperCrypto _ hexact).mp hvalid)

end PyChain
