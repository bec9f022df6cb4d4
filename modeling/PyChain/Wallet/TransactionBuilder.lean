import PyChain.Blockchain.Preimages
import PyChain.Wallet.CoinSelection

/-!
# Building a signed payment

A payment lists its outpoints, pays the amount and returns the change.  Its size is
measured with placeholders for the signatures, and then each input is signed in turn.
Signing an input sets its public key and signature only, and the message of an input
covers neither those of the others nor its own signature.
-/

namespace PyChain

open Foundation

namespace Wallet

/-- An ECDSA private key: its public key, and its deterministic signatures. -/
structure SigningKey where
  verifyingKey : VerifyingKey
  sign : Bytes -> Bytes

def SigningKey.publicKeyHex (key : SigningKey) : Str :=
  toHex key.verifyingKey.toString

/-- The length of a coordinate on the curve. -/
def BASELEN : Nat := 32

/-!
## Signing
-/

def setPublicKey (key : SigningKey) (input : TxInput) : TxInput :=
  { input with publicKey := key.publicKeyHex }

def setSignature (signature : Str) (input : TxInput) : TxInput :=
  { input with signature := signature }

def signInput (transaction : Transaction) (inputIndex : Int) (key : SigningKey) :
    Except PyError Transaction := do
  require (0 ≤ inputIndex ∧ inputIndex < transaction.inputs.length)
    (PyError.indexError "input_index out of range")
  let marked := { transaction with
    inputs := transaction.inputs.modify inputIndex.toNat (setPublicKey key) }
  let message <- marked.signingBytes inputIndex
  return { marked with
    inputs := marked.inputs.modify inputIndex.toNat (setSignature (toHex (key.sign message))) }

def signInputs (transaction : Transaction) (key : SigningKey) : Except PyError Transaction :=
  (List.range transaction.inputs.length).foldlM
    (fun (signed : Transaction) (inputIndex : Nat) => signInput signed inputIndex key)
    transaction

/-!
## Building
-/

def withPlaceholders (key : SigningKey) (transaction : Transaction) : Transaction :=
  { transaction with
    inputs := transaction.inputs.map (fun input =>
      { input with
        publicKey := key.publicKeyHex
        signature := List.replicate (4 * BASELEN) '0' }) }

/-- The payment before anything is signed. -/
def draftTransaction (selected : List (OutPoint × TxOutput))
    (senderAddress recipientAddress : Str) (amount change : Int) (timestamp : Int) :
    Transaction :=
  { inputs := selected.map (fun item =>
      { previousTxId := item.1.1
        outputIndex := item.1.2
        publicKey := []
        signature := [] })
    outputs := ⟨amount, recipientAddress⟩ ::
      (if change = 0 then [] else [⟨change, senderAddress⟩])
    timestamp := timestamp
    version := 1 }

def valueError (message : String) : WalletError :=
  .raised (.valueError message)

def liftRaised {answer : Type} (reply : Except PyError answer) : Except WalletError answer :=
  match reply with
  | .ok value => .ok value
  | .error e => .error (.raised e)

section Build

variable [Crypto]

/-- The timestamp is that of the wall clock when none is given. -/
def buildSignedTransaction (selected : List (OutPoint × TxOutput))
    (senderAddress recipientAddress : Str) (amount fee : Int) (key : SigningKey)
    (wallClock : Nat) (timestamp maxBytes : Option Int) :
    Except WalletError Transaction := do
  require (0 < amount ∧ 0 ≤ fee) (valueError "Invalid amount or fee")
  require (validateAddress recipientAddress = true ∧
    publicKeyToAddress key.verifyingKey = senderAddress)
    (valueError "Invalid sender or recipient")
  require (selected ≠ [] ∧ (selected.map Prod.fst).Nodup)
    (valueError "Invalid selected outpoints")
  require (forall item, item ∈ selected ->
      item.2.recipientAddress = senderAddress ∧ 0 < item.2.amount)
    (valueError "Selected UTXO does not belong to sender")
  let change := coinsTotal selected - amount - fee
  require (0 ≤ change) (valueError "Insufficient selected value")
  require (0 ≤ timestamp.getD 0) (valueError "Invalid timestamp")
  let draft := draftTransaction selected senderAddress recipientAddress amount change
    (timestamp.getD wallClock)
  match maxBytes with
  | none => liftRaised (signInputs draft key)
  | some limit => do
      let measured := withPlaceholders key draft
      require ((measured.encoding.length : Int) ≤ limit)
        (WalletError.workLimit "Transaction exceeds node item limit")
      liftRaised (signInputs measured key)

end Build

/-!
## Every input signed
-/

/-- The message of an input with a public key. -/
def signingMessage (transaction : Transaction) (inputIndex : Nat) (publicKey : Str) : Bytes :=
  Json.serialize (transaction.signedFields inputIndex ⟨[], 0, publicKey, []⟩)

/-- What every signature of a payment covers. -/
def SameUnsigned (x y : Transaction) : Prop :=
  x.version = y.version ∧ x.timestamp = y.timestamp ∧ x.outputs = y.outputs ∧
    x.spentOutpoints = y.spentOutpoints

theorem outpointDicts_eq (inputs : List TxInput) :
    inputs.map TxInput.outpointDict = (inputs.map TxInput.outpoint).map (fun outpoint =>
      Json.obj
        [(str "previous_tx_id", Json.str outpoint.1),
          (str "output_index", Json.int outpoint.2)]) := by
  rw [List.map_map]
  rfl

theorem signingMessage_congr {x y : Transaction} (h : SameUnsigned x y) (inputIndex : Nat)
    (publicKey : Str) :
    signingMessage x inputIndex publicKey = signingMessage y inputIndex publicKey := by
  rcases h with ⟨hversion, htimestamp, houtputs, hspends⟩
  unfold Transaction.spentOutpoints at hspends
  unfold signingMessage Transaction.signedFields
  rw [hversion, htimestamp, houtputs, outpointDicts_eq, outpointDicts_eq, hspends]

theorem signingBytes_eq {transaction : Transaction} {inputIndex : Nat} {input : TxInput}
    (h : transaction.inputs[inputIndex]? = some input) :
    transaction.signingBytes inputIndex =
      .ok (signingMessage transaction inputIndex input.publicKey) := by
  rw [Transaction.signingBytes_eq_ok_iff]
  exact ⟨by omega, input, h, rfl⟩

/-- An input with its signature over a payment. -/
def signedInput (key : SigningKey) (transaction : Transaction) (inputIndex : Nat)
    (input : TxInput) : TxInput :=
  { input with
    publicKey := key.publicKeyHex
    signature := toHex (key.sign (signingMessage transaction inputIndex key.publicKeyHex)) }

theorem spentOutpoints_modify {f : TxInput -> TxInput}
    (hf : forall input, (f input).outpoint = input.outpoint) (inputs : List TxInput) (i : Nat) :
    (inputs.modify i f).map TxInput.outpoint = inputs.map TxInput.outpoint := by
  apply List.ext_getElem?
  intro j
  rw [List.getElem?_map, List.getElem?_map, List.getElem?_modify]
  cases inputs[j]? with
  | none => rfl
  | some input =>
      by_cases hij : i = j
      · simp [hij, hf]
      · simp [hij]

theorem signInput_spec {transaction : Transaction} {i : Nat}
    (hi : i < transaction.inputs.length) (key : SigningKey) :
    exists signed, signInput transaction i key = .ok signed ∧
      SameUnsigned signed transaction ∧
      forall j, signed.inputs[j]? =
        if i = j then (transaction.inputs[j]?).map (signedInput key transaction j)
        else transaction.inputs[j]? := by
  let marked : Transaction := { transaction with
    inputs := transaction.inputs.modify i (setPublicKey key) }
  have hsame : SameUnsigned marked transaction :=
    ⟨rfl, rfl, rfl, spentOutpoints_modify (f := setPublicKey key) (fun _ => rfl) _ i⟩
  have hinput : marked.inputs[i]? = some (setPublicKey key transaction.inputs[i]) := by
    change (transaction.inputs.modify i (setPublicKey key))[i]? = _
    rw [List.getElem?_modify, List.getElem?_eq_getElem hi]
    simp
  have hmessage := signingBytes_eq hinput
  rw [signingMessage_congr hsame] at hmessage
  refine ⟨{ marked with
    inputs := marked.inputs.modify i (setSignature
      (toHex (key.sign (signingMessage transaction i key.publicKeyHex)))) }, ?_, ?_, ?_⟩
  · unfold signInput
    rw [bind_eq_ok_iff]
    refine ⟨(), require_eq_ok_iff.mpr ⟨by omega, by omega⟩, ?_⟩
    rw [bind_eq_ok_iff]
    exact ⟨_, hmessage, rfl⟩
  · refine ⟨rfl, rfl, rfl, ?_⟩
    refine Eq.trans ?_ hsame.right.right.right
    exact spentOutpoints_modify (f := setSignature _) (fun _ => rfl) marked.inputs i
  · intro j
    change ((transaction.inputs.modify i (setPublicKey key)).modify i _)[j]? = _
    rw [List.getElem?_modify, List.getElem?_modify]
    cases transaction.inputs[j]? with
    | none => simp
    | some input =>
        by_cases hij : i = j
        · subst hij
          simp [setPublicKey, setSignature, signedInput]
        · simp [hij]

theorem SameUnsigned.refl (transaction : Transaction) :
    SameUnsigned transaction transaction :=
  ⟨rfl, rfl, rfl, rfl⟩

theorem SameUnsigned.symm {x y : Transaction} (h : SameUnsigned x y) : SameUnsigned y x := by
  rcases h with ⟨hversion, htimestamp, houtputs, hspends⟩
  exact ⟨hversion.symm, htimestamp.symm, houtputs.symm, hspends.symm⟩

theorem SameUnsigned.trans {x y z : Transaction} (hxy : SameUnsigned x y)
    (hyz : SameUnsigned y z) : SameUnsigned x z := by
  rcases hxy with ⟨hversion, htimestamp, houtputs, hspends⟩
  rcases hyz with ⟨hversion', htimestamp', houtputs', hspends'⟩
  exact ⟨hversion.trans hversion', htimestamp.trans htimestamp',
    houtputs.trans houtputs', hspends.trans hspends'⟩

theorem SameUnsigned.length_eq {x y : Transaction} (h : SameUnsigned x y) :
    x.inputs.length = y.inputs.length := by
  have hlengths := congrArg List.length h.right.right.right
  unfold Transaction.spentOutpoints at hlengths
  rw [List.length_map, List.length_map] at hlengths
  exact hlengths

theorem signedInput_congr {x y : Transaction} (h : SameUnsigned x y) (key : SigningKey)
    (inputIndex : Nat) : signedInput key x inputIndex = signedInput key y inputIndex := by
  funext input
  unfold signedInput
  rw [signingMessage_congr h]

theorem signInputs_rounds (transaction : Transaction) (key : SigningKey) (rounds : Nat) :
    rounds ≤ transaction.inputs.length ->
    exists signed, (List.range rounds).foldlM
        (fun (signed : Transaction) (inputIndex : Nat) => signInput signed inputIndex key)
        transaction = .ok signed ∧
      SameUnsigned signed transaction ∧
      forall j, signed.inputs[j]? =
        if j < rounds then (transaction.inputs[j]?).map (signedInput key transaction j)
        else transaction.inputs[j]? := by
  induction rounds with
  | zero =>
      intro _
      exact ⟨transaction, rfl, SameUnsigned.refl transaction, fun j => rfl⟩
  | succ rounds ih =>
      intro hrounds
      rcases ih (by omega) with ⟨signed, hfold, hsame, hinputs⟩
      have hround : rounds < signed.inputs.length := by
        rw [hsame.length_eq]
        omega
      rcases signInput_spec hround key with ⟨next, hnext, hsame', hinputs'⟩
      refine ⟨next, ?_, hsame'.trans hsame, ?_⟩
      · rw [List.range_succ, foldlM_append_eq_ok_iff]
        refine ⟨signed, hfold, ?_⟩
        rw [List.foldlM_cons, bind_eq_ok_iff]
        exact ⟨next, hnext, rfl⟩
      · intro j
        rw [hinputs' j, hinputs j, signedInput_congr hsame]
        by_cases hj : rounds = j
        · rw [if_pos hj, if_neg (by omega), if_pos (by omega)]
        · rw [if_neg hj]
          by_cases hless : j < rounds
          · rw [if_pos hless, if_pos (by omega)]
          · rw [if_neg hless, if_neg (by omega)]

theorem signInputs_spec (transaction : Transaction) (key : SigningKey) :
    exists signed, signInputs transaction key = .ok signed ∧
      SameUnsigned signed transaction ∧
      forall j, signed.inputs[j]? =
        (transaction.inputs[j]?).map (signedInput key transaction j) := by
  rcases signInputs_rounds transaction key transaction.inputs.length (Nat.le_refl _) with
    ⟨signed, hfold, hsame, hinputs⟩
  refine ⟨signed, hfold, hsame, ?_⟩
  intro j
  rw [hinputs j]
  by_cases hj : j < transaction.inputs.length
  · rw [if_pos hj]
  · rw [if_neg hj, List.getElem?_eq_none (by omega)]
    rfl

/-!
## The size

A signature of 64 bytes is as long as the placeholder.
-/

/-- The length of an input in the canonical bytes. -/
def inputLength (input : TxInput) : Nat :=
  (Json.dumps (input.toDict true)).length

theorem inputLength_congr {x y : TxInput} (hspends : x.outpoint = y.outpoint)
    (hkey : x.publicKey = y.publicKey)
    (hsignature : (Json.renderString x.signature).length =
      (Json.renderString y.signature).length) : inputLength x = inputLength y := by
  unfold TxInput.outpoint at hspends
  rcases Prod.mk.inj hspends with ⟨hprevious, hindex⟩
  unfold inputLength Json.dumps
  rw [Transaction.inputDict_sortKeys, Transaction.inputDict_sortKeys, hprevious, hindex, hkey]
  simp only [Json.render, Json.renderFields, List.length_cons, List.length_append,
    hsignature]

theorem encoding_length_congr {x y : Transaction} (hsame : SameUnsigned x y)
    (hinputs : List.Forall₂ (fun input other => inputLength input = inputLength other)
      x.inputs y.inputs) : x.encoding.length = y.encoding.length := by
  rcases hsame with ⟨hversion, htimestamp, houtputs, _⟩
  have hrendered : (Json.render (Json.arr
        (Json.sortItems (x.inputs.map (fun input => input.toDict true))))).length =
      (Json.render (Json.arr
        (Json.sortItems (y.inputs.map (fun input => input.toDict true))))).length := by
    apply Json.render_arr_length_congr
    rw [Json.sortItems_eq_map, Json.sortItems_eq_map, List.map_map, List.map_map,
      List.forall₂_map_left_iff, List.forall₂_map_right_iff]
    exact hinputs
  unfold Transaction.encoding
  rw [Json.serialize_length, Json.serialize_length]
  unfold Json.dumps
  rw [Transaction.toDict_sortKeys, Transaction.toDict_sortKeys, hversion, htimestamp,
    houtputs]
  simp only [Json.render, Json.renderFields, List.length_cons, List.length_append] at hrendered ⊢
  omega

theorem placeholders_sameUnsigned (key : SigningKey) (transaction : Transaction) :
    SameUnsigned (withPlaceholders key transaction) transaction := by
  refine ⟨rfl, rfl, rfl, ?_⟩
  unfold Transaction.spentOutpoints withPlaceholders
  rw [List.map_map]
  rfl

theorem signed_length {key : SigningKey} {transaction signed : Transaction}
    (hlength : forall message, (key.sign message).length = 2 * BASELEN)
    (hsame : SameUnsigned signed transaction)
    (hinputs : forall j, signed.inputs[j]? =
      (transaction.inputs[j]?).map (signedInput key transaction j)) :
    signed.encoding.length = (withPlaceholders key transaction).encoding.length := by
  apply encoding_length_congr
    (hsame.trans (placeholders_sameUnsigned key transaction).symm)
  rw [List.forall₂_iff_get]
  have hcount := hsame.length_eq
  refine ⟨by rw [hcount]; exact (List.length_map _).symm, ?_⟩
  intro j hj hj'
  have hinput := hinputs j
  rw [List.getElem?_eq_getElem hj, List.getElem?_eq_getElem (by omega), Option.map_some,
    Option.some.injEq] at hinput
  rw [List.get_eq_getElem, List.get_eq_getElem, hinput]
  unfold withPlaceholders
  rw [List.getElem_map]
  have hzeros : (List.replicate (4 * BASELEN) '0').all isLowerHex = true := by decide +kernel
  refine inputLength_congr ?_ ?_ ?_
  · rfl
  · rfl
  change (Json.renderString (toHex (key.sign _))).length = _
  rw [Json.renderString_length_lowerHex (toHex_isLowerHex _),
    Json.renderString_length_lowerHex hzeros, toHex_length, hlength, List.length_replicate]
  omega

/-!
## What was built
-/

/-- Each input is signed over the draft. -/
structure Signed (key : SigningKey) (draft signed : Transaction) : Prop where
  unsigned : SameUnsigned signed draft
  inputs : forall j, signed.inputs[j]? = (draft.inputs[j]?).map (signedInput key draft j)

theorem Signed.of_placeholders {key : SigningKey} {draft signed : Transaction}
    (h : Signed key (withPlaceholders key draft) signed) : Signed key draft signed where
  unsigned := h.unsigned.trans (placeholders_sameUnsigned key draft)
  inputs := by
    intro j
    rw [h.inputs j, signedInput_congr (placeholders_sameUnsigned key draft)]
    unfold withPlaceholders
    rw [List.getElem?_map, Option.map_map]
    rfl

theorem Signed.length_eq {key : SigningKey} {draft signed : Transaction}
    (h : Signed key draft signed)
    (hlength : forall message, (key.sign message).length = 2 * BASELEN) :
    signed.encoding.length = (withPlaceholders key draft).encoding.length :=
  signed_length hlength h.unsigned h.inputs

section Built

variable [Crypto]

/-- The checks of the builder, and the payment they allow. -/
structure Built (selected : List (OutPoint × TxOutput))
    (senderAddress recipientAddress : Str) (amount fee : Int) (key : SigningKey)
    (time : Int) (transaction : Transaction) : Prop where
  amount_pos : 0 < amount
  fee_nonneg : 0 ≤ fee
  recipient_valid : validateAddress recipientAddress = true
  sender_eq : publicKeyToAddress key.verifyingKey = senderAddress
  selected_ne_nil : selected ≠ []
  outpoints_nodup : (selected.map Prod.fst).Nodup
  owned : forall item, item ∈ selected ->
    item.2.recipientAddress = senderAddress ∧ 0 < item.2.amount
  covered : amount + fee ≤ coinsTotal selected
  signed : Signed key (draftTransaction selected senderAddress recipientAddress amount
    (coinsTotal selected - amount - fee) time) transaction

theorem buildSignedTransaction_built {selected : List (OutPoint × TxOutput)}
    {senderAddress recipientAddress : Str} {amount fee : Int} {key : SigningKey}
    {wallClock : Nat} {timestamp maxBytes : Option Int} {transaction : Transaction}
    (h : buildSignedTransaction selected senderAddress recipientAddress amount fee key
      wallClock timestamp maxBytes = .ok transaction) :
    0 ≤ timestamp.getD 0 ∧
      Built selected senderAddress recipientAddress amount fee key
        (timestamp.getD wallClock) transaction := by
  unfold buildSignedTransaction at h
  simp only [bind_eq_ok_iff, require_eq_ok_iff] at h
  rcases h with ⟨_, ⟨hamount, hfee⟩, _, ⟨hrecipient, hsender⟩, _, ⟨hselected, hnodup⟩, _,
    howned, _, hcovered, _, htime, hbuilt⟩
  refine ⟨htime, hamount, hfee, hrecipient, hsender, hselected, hnodup, howned,
    by omega, ?_⟩
  cases maxBytes with
  | none =>
      rcases signInputs_spec (draftTransaction selected senderAddress recipientAddress amount
        (coinsTotal selected - amount - fee) (timestamp.getD wallClock)) key with
        ⟨signed, hsigned, hunsigned, hinputs⟩
      simp only [hsigned, liftRaised, Except.ok.injEq] at hbuilt
      rw [← hbuilt]
      exact ⟨hunsigned, hinputs⟩
  | some limit =>
      simp only [bind_eq_ok_iff, require_eq_ok_iff] at hbuilt
      rcases hbuilt with ⟨_, _, hbuilt⟩
      rcases signInputs_spec (withPlaceholders key (draftTransaction selected senderAddress
        recipientAddress amount (coinsTotal selected - amount - fee)
        (timestamp.getD wallClock))) key with ⟨signed, hsigned, hunsigned, hinputs⟩
      simp only [hsigned, liftRaised, Except.ok.injEq] at hbuilt
      rw [← hbuilt]
      exact Signed.of_placeholders ⟨hunsigned, hinputs⟩

end Built

end Wallet

end PyChain
