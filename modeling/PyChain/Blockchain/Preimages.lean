import PyChain.Blockchain.Block

/-!
# What is signed and what is hashed

Three kinds of canonical bytes leave the ledger: the message of one input, the
preimage of a transaction identifier, and the preimage of a block hash.  The
message determines everything that a signature is meant to cover, and no byte
string is of two kinds.
-/

namespace PyChain

open Foundation

namespace Transaction

/-!
## Signing bytes
-/

/-- The dictionary that `signing_dict` builds for an input it found. -/
def signedFields (transaction : Transaction) (inputIndex : Int) (input : TxInput) : Json :=
  Json.obj
    [(str "version", Json.int transaction.version),
      (str "inputs", Json.arr (transaction.inputs.map TxInput.outpointDict)),
      (str "outputs", Json.arr (transaction.outputs.map TxOutput.toDict)),
      (str "timestamp", Json.int transaction.timestamp),
      (str "signing_input_index", Json.int inputIndex),
      (str "public_key", Json.str input.publicKey)]

theorem signingBytes_eq_ok_iff {transaction : Transaction} {inputIndex : Int}
    {data : Bytes} :
    transaction.signingBytes inputIndex = .ok data <->
      0 ≤ inputIndex ∧ exists input, transaction.inputs[inputIndex.toNat]? = some input ∧
        data = Json.serialize (transaction.signedFields inputIndex input) := by
  unfold signingBytes signingDict
  by_cases hneg : inputIndex < 0
  · rw [if_pos hneg]
    constructor
    · intro h
      cases h
    · intro h
      omega
  · rw [if_neg hneg]
    cases hinput : transaction.inputs[inputIndex.toNat]? with
    | none =>
        constructor
        · intro h
          cases h
        · rintro ⟨_, input, hnone, _⟩
          cases hnone
    | some input =>
        constructor
        · intro h
          exact ⟨by omega, input, rfl, (Except.ok.inj h).symm⟩
        · rintro ⟨_, other, hsame, hdata⟩
          cases hsame
          rw [hdata]
          rfl

theorem outpointDict_sortKeys (input : TxInput) :
    Json.sortKeys input.outpointDict =
      Json.obj
        [(str "output_index", Json.int input.outputIndex),
          (str "previous_tx_id", Json.str input.previousTxId)] := rfl

theorem outpointDict_distinct (input : TxInput) :
    Json.DistinctKeys input.outpointDict := by
  unfold TxInput.outpointDict
  simp only [Json.DistinctKeys, Json.FieldsDistinct, and_self, and_true,
    List.map_cons, List.map_nil]
  decide

theorem sortedOutpointDict_injective {x y : TxInput}
    (h : Json.sortKeys x.outpointDict = Json.sortKeys y.outpointDict) :
    x.outpoint = y.outpoint := by
  rw [outpointDict_sortKeys, outpointDict_sortKeys] at h
  simp only [Json.obj.injEq, List.cons.injEq, Prod.mk.injEq, Json.int.injEq,
    Json.str.injEq, true_and, and_true] at h
  exact Prod.ext h.right h.left

theorem signedFields_sortKeys (transaction : Transaction) (inputIndex : Int)
    (input : TxInput) :
    Json.sortKeys (transaction.signedFields inputIndex input) =
      Json.obj
        [(str "inputs", Json.arr
            (Json.sortItems (transaction.inputs.map TxInput.outpointDict))),
          (str "outputs", Json.arr
            (Json.sortItems (transaction.outputs.map TxOutput.toDict))),
          (str "public_key", Json.str input.publicKey),
          (str "signing_input_index", Json.int inputIndex),
          (str "timestamp", Json.int transaction.timestamp),
          (str "version", Json.int transaction.version)] := rfl

theorem signedFields_distinct (transaction : Transaction) (inputIndex : Int)
    (input : TxInput) : Json.DistinctKeys (transaction.signedFields inputIndex input) := by
  unfold signedFields
  simp only [Json.DistinctKeys, Json.FieldsDistinct, and_true, true_and,
    List.map_cons, List.map_nil]
  constructor
  · decide
  constructor
  · rw [Json.itemsDistinct_iff]
    intro item hitem
    rcases List.mem_map.mp hitem with ⟨other, _, hother⟩
    rw [← hother]
    exact outpointDict_distinct other
  · rw [Json.itemsDistinct_iff]
    intro item hitem
    rcases List.mem_map.mp hitem with ⟨output, _, houtput⟩
    rw [← houtput]
    exact outputDict_distinct output

/-- Everything a signature of one input commits to. -/
structure SameSigned (x y : Transaction) (i j : Int) : Prop where
  index : i = j
  version : x.version = y.version
  timestamp : x.timestamp = y.timestamp
  spends : x.spentOutpoints = y.spentOutpoints
  outputs : x.outputs = y.outputs
  publicKey : exists input other, x.inputs[i.toNat]? = some input ∧
    y.inputs[j.toNat]? = some other ∧ input.publicKey = other.publicKey

theorem sameSigned_of_sortKeys {x y : Transaction} {i j : Int} {input other : TxInput}
    (hinput : x.inputs[i.toNat]? = some input) (hother : y.inputs[j.toNat]? = some other)
    (h : Json.sortKeys (x.signedFields i input) = Json.sortKeys (y.signedFields j other)) :
    SameSigned x y i j := by
  rw [signedFields_sortKeys, signedFields_sortKeys] at h
  simp only [Json.obj.injEq, List.cons.injEq, Prod.mk.injEq, Json.int.injEq,
    Json.str.injEq, Json.arr.injEq, true_and, and_true, Json.sortItems_eq_map,
    List.map_map] at h
  rcases h with ⟨hinputs, houtputs, hkey, hindex, htimestamp, hversion⟩
  refine ⟨hindex, hversion, htimestamp, ?_, ?_, input, other, hinput, hother, hkey⟩
  · have hlength : x.inputs.length = y.inputs.length := by
      simpa using congrArg List.length hinputs
    apply List.ext_getElem (by simpa [spentOutpoints] using hlength)
    intro k hx hy
    have hkx : k < x.inputs.length := by
      simpa [spentOutpoints] using hx
    have hky : k < y.inputs.length := by
      simpa [spentOutpoints] using hy
    have hat := List.getElem_of_eq hinputs (by simpa using hkx)
    simp only [List.getElem_map, Function.comp_apply] at hat
    simp only [spentOutpoints, List.getElem_map]
    exact sortedOutpointDict_injective hat
  · apply List.map_injective_iff.mpr _ houtputs
    intro a b hab
    exact sortedOutputDict_injective hab

theorem signingBytes_injective {x y : Transaction} {i j : Int} {data : Bytes}
    (hx : x.signingBytes i = .ok data) (hy : y.signingBytes j = .ok data) :
    SameSigned x y i j := by
  rcases signingBytes_eq_ok_iff.mp hx with ⟨_, input, hinput, hdata⟩
  rcases signingBytes_eq_ok_iff.mp hy with ⟨_, other, hother, hdata'⟩
  apply sameSigned_of_sortKeys hinput hother
  apply Json.serialize_injective (signedFields_distinct x i input)
    (signedFields_distinct y j other)
  rw [← hdata, ← hdata']

/-!
## Kinds of preimages

The three dictionaries have different keys.
-/

theorem signingBytes_ne_encoding {x y : Transaction} {i : Int} {data : Bytes}
    (h : x.signingBytes i = .ok data) : data ≠ y.encoding := by
  rcases signingBytes_eq_ok_iff.mp h with ⟨_, input, _, hdata⟩
  intro heq
  rw [hdata] at heq
  have hsorted := Json.serialize_injective (signedFields_distinct x i input)
    (toDict_distinct y) heq
  rw [signedFields_sortKeys, toDict_sortKeys] at hsorted
  simp at hsorted

theorem signingBytes_ne_header {x : Transaction} {i : Int} {data : Bytes}
    {header : BlockHeader} (h : x.signingBytes i = .ok data) :
    data ≠ header.toBytes := by
  rcases signingBytes_eq_ok_iff.mp h with ⟨_, input, _, hdata⟩
  intro heq
  rw [hdata] at heq
  have hsorted := Json.serialize_injective (signedFields_distinct x i input)
    (BlockHeader.toDict_distinct header) heq
  rw [signedFields_sortKeys, BlockHeader.toDict_sortKeys] at hsorted
  simp at hsorted

/-- Signing bytes are those of one input of one signed content, and are never hashed
as a transaction or as a header. -/
theorem signing_domain {x : Transaction} {i : Int} (hi : 0 ≤ i)
    (hlength : i.toNat < x.inputs.length) :
    exists data, x.signingBytes i = .ok data ∧
      (forall (y : Transaction) (j : Int), 0 ≤ j -> j.toNat < y.inputs.length ->
        y.signingBytes j = .ok data -> SameSigned x y i j) ∧
      (forall y : Transaction, data ≠ y.encoding) ∧
      forall block : Block, data ≠ block.header.toBytes := by
  have hinput : x.inputs[i.toNat]? = some x.inputs[i.toNat] :=
    List.getElem?_eq_getElem hlength
  have hdata : x.signingBytes i = .ok (Json.serialize (x.signedFields i x.inputs[i.toNat])) :=
    signingBytes_eq_ok_iff.mpr ⟨hi, _, hinput, rfl⟩
  refine ⟨_, hdata, ?_, ?_, ?_⟩
  · intro y j _ _ hy
    exact signingBytes_injective hdata hy
  · intro y
    exact signingBytes_ne_encoding hdata
  · intro block
    exact signingBytes_ne_header hdata

/-!
## Other spellings of one signature

Validation reads the bytes that a signature text stands for, and the identifier
covers the text itself.
-/

/-- The same messages, and input by input the same signature bytes. -/
structure Respells (x y : Transaction) : Prop where
  messages : forall inputIndex, x.signingBytes inputIndex = y.signingBytes inputIndex
  signatures : x.inputs.map (fun input => bytesFromHex input.signature) =
    y.inputs.map (fun input => bytesFromHex input.signature)

/-- The texts of the signatures, input by input. -/
def signatureTexts (transaction : Transaction) : List Str :=
  transaction.inputs.map TxInput.signature

theorem Respells.sameSigned {x y : Transaction} (h : Respells x y) {k : Nat}
    (hk : k < x.inputs.length) : SameSigned x y k k := by
  have hdata : x.signingBytes k = .ok (Json.serialize (x.signedFields k x.inputs[k])) :=
    signingBytes_eq_ok_iff.mpr
      ⟨Int.natCast_nonneg k, _, List.getElem?_eq_getElem hk, rfl⟩
  have hdata' := hdata
  rw [h.messages] at hdata'
  exact signingBytes_injective hdata hdata'

theorem Respells.eq_of_signatureTexts {x y : Transaction} (h : Respells x y)
    (hinputs : x.inputs ≠ []) (htexts : x.signatureTexts = y.signatureTexts) : x = y := by
  have hsigned := h.sameSigned (List.length_pos_of_ne_nil hinputs)
  have hlength : x.inputs.length = y.inputs.length := by
    simpa [signatureTexts] using congrArg List.length htexts
  have hsame : x.inputs = y.inputs := by
    apply List.ext_getElem hlength
    intro k hx hy
    have hspend : x.inputs[k].outpoint = y.inputs[k].outpoint := by
      have hat := List.getElem_of_eq hsigned.spends
        (show k < x.spentOutpoints.length by simpa [spentOutpoints] using hx)
      simpa [spentOutpoints] using hat
    have htext : x.inputs[k].signature = y.inputs[k].signature := by
      have hat := List.getElem_of_eq htexts
        (show k < x.signatureTexts.length by simpa [signatureTexts] using hx)
      simpa [signatureTexts] using hat
    have hkey : x.inputs[k].publicKey = y.inputs[k].publicKey := by
      rcases (h.sameSigned hx).publicKey with ⟨input, other, hinput, hother, hkey⟩
      rw [Int.toNat_natCast, List.getElem?_eq_getElem hx] at hinput
      rw [Int.toNat_natCast, List.getElem?_eq_getElem hy] at hother
      cases hinput
      cases hother
      exact hkey
    unfold TxInput.outpoint at hspend
    rcases Prod.mk.inj hspend with ⟨hprevious, hindex⟩
    cases hinput : x.inputs[k]
    cases hother : y.inputs[k]
    rw [hinput, hother] at hprevious hindex htext hkey
    simp only at hprevious hindex htext hkey
    rw [hprevious, hindex, htext, hkey]
  have hversion := hsigned.version
  have htimestamp := hsigned.timestamp
  have houtputs := hsigned.outputs
  cases x
  cases y
  simp only [Transaction.mk.injEq]
  exact ⟨hsame, houtputs, htimestamp, hversion⟩

section Spelling

variable [Crypto]

/-- The two preimages of a pair of transactions. -/
def EncodingOf (x y : Transaction) (data : Bytes) : Prop :=
  data = x.encoding ∨ data = y.encoding

/-- Another spelling of an accepted transaction has the same identifier exactly when
each signature is the same text in both. -/
theorem respelled_txid_iff {x y : Transaction} {utxoSet : UTXOSet}
    (hx : validateTransaction x utxoSet = true) (hrespells : Respells x y)
    (hfree : CollisionFreeOn (EncodingOf x y)) :
    x.txid = y.txid <-> x.signatureTexts = y.signatureTexts := by
  constructor
  · intro htxid
    have hencoding := hfree.hex_injective (Or.inl rfl) (Or.inr rfl) htxid
    rw [encoding_injective hencoding]
  · intro htexts
    rcases Option.isSome_iff_exists.mp hx with ⟨fee, hfee⟩
    have haccepted := (safeValidatedFee_eq_some_iff x utxoSet fee).mp hfee
    rw [hrespells.eq_of_signatureTexts haccepted.inputs_ne_nil htexts]

end Spelling

end Transaction

/-!
## The sample transfer, loudly

The transfer of the sample network with its signature in upper case.
-/

namespace Sample

def loudTransfer : Transaction :=
  { transfer with
    inputs := [⟨coinbaseTxid, 0, publicKeyHex, signatureHex.map Char.toUpper⟩] }

def loudTransferTxid : Str :=
  hexString 64 0xa56eda6e6f7c401e7513c7e3d6e7e21610d1300e2611a5932282333e7fe7be98

def funding : UTXOSet :=
  Dict.empty.set (coinbaseTxid, 0) ⟨50, address⟩

@[reducible]
def loudCrypto : Crypto where
  sha256 := tableSha256 (digests ++ [(loudTransfer.encoding, loudTransferTxid)])
  sha256_length := tableSha256_length _
  verifyingKeyFromString := crypto.verifyingKeyFromString
  verify := crypto.verify

theorem loud_validates :
    @validateTransaction loudCrypto transfer funding = true ∧
      @validateTransaction loudCrypto loudTransfer funding = true ∧
      @Transaction.txid loudCrypto transfer = transferTxid ∧
      @Transaction.txid loudCrypto loudTransfer = loudTransferTxid := by
  decide +kernel

theorem loud_respells : Transaction.Respells transfer loudTransfer := by
  constructor
  · intro inputIndex
    unfold Transaction.signingBytes Transaction.signingDict
    cases inputIndex.toNat with
    | zero => rfl
    | succ k => rfl
  · decide +kernel

theorem loud_collisionFree :
    @CollisionFreeOn loudCrypto (Transaction.EncodingOf transfer loudTransfer) := by
  have hne : loudCrypto.sha256 transfer.encoding ≠
      loudCrypto.sha256 loudTransfer.encoding := by
    decide +kernel
  intro a b ha hb heq
  rcases ha with ha | ha
  · rcases hb with hb | hb
    · rw [ha, hb]
    · rw [ha, hb] at heq
      exact absurd heq hne
  · rcases hb with hb | hb
    · rw [ha, hb] at heq
      exact absurd heq.symm hne
    · rw [ha, hb]

end Sample

/-- The message of the sample transfer belongs to no other signed content. -/
theorem Transaction.signing_domain_sample :
    exists data, Sample.transfer.signingBytes 0 = .ok data ∧
      data ≠ Sample.transfer.encoding ∧ data ≠ Sample.second.header.toBytes := by
  rcases @Transaction.signing_domain Sample.transfer 0 (by decide) (by decide) with
    ⟨data, hdata, _, hencoding, hheader⟩
  exact ⟨data, hdata, hencoding Sample.transfer, hheader Sample.second⟩

/-- Both spellings are accepted against the same outputs, and their identifiers differ. -/
theorem Transaction.respelled_transfer :
    exists (utxoSet : UTXOSet) (x y : Transaction),
      @validateTransaction Sample.loudCrypto x utxoSet = true ∧
        @validateTransaction Sample.loudCrypto y utxoSet = true ∧
        Transaction.Respells x y ∧
        @Transaction.txid Sample.loudCrypto x ≠ @Transaction.txid Sample.loudCrypto y := by
  rcases Sample.loud_validates with ⟨hx, hy, htxid, htxid'⟩
  refine ⟨Sample.funding, Sample.transfer, Sample.loudTransfer, hx, hy,
    Sample.loud_respells, ?_⟩
  rw [htxid, htxid']
  decide +kernel

theorem Transaction.respelled_txid_iff_sample :
    ¬ @Transaction.txid Sample.loudCrypto Sample.transfer =
      @Transaction.txid Sample.loudCrypto Sample.loudTransfer := by
  rcases Sample.loud_validates with ⟨hvalid, _⟩
  rw [@Transaction.respelled_txid_iff Sample.loudCrypto Sample.transfer Sample.loudTransfer
    Sample.funding hvalid Sample.loud_respells Sample.loud_collisionFree]
  decide +kernel

end PyChain
