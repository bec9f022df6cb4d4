import PyChain.Api.Errors
import PyChain.Blockchain.Queries
import PyChain.Storage.Codec
import PyChain.Wallet.TransactionBuilder

/-!
# The wallet service

A payment and a summary both start from the address view of the node, and set apart
the outputs that pending transactions have taken.
-/

namespace PyChain

open Foundation

namespace Wallet

structure WalletRow where
  address : Str
  publicKey : Str
  encryptedPrivateKey : Bytes
  keyVersion : Int

def MAX_WALLET_INPUTS : Nat := 100

/-- The encryption of private keys, and their decoding by the library. -/
structure KeyStore where
  decrypt : Bytes -> Option SigningKey

def KeyStore.keyVersion : Int := 1

def KeyStore.decryptPrivateKey (keystore : KeyStore) (encrypted : Bytes) (keyVersion : Int) :
    Except WalletError SigningKey :=
  if keyVersion ≠ KeyStore.keyVersion then
    .error (.keyStore "Unsupported wallet key version")
  else
    match keystore.decrypt encrypted with
    | none => .error (.keyStore "Cannot decrypt wallet key")
    | some key => .ok key

def reserved (pending : List Transaction) : List OutPoint :=
  pending.flatMap Transaction.spentOutpoints

def available (view : WalletState) : UTXOSet :=
  view.utxos.filter (fun item => item.1 ∉ reserved view.pending)

/-- Coin selection, and the cap on its inputs. -/
def selectInputs (utxos : UTXOSet) (amount fee : Int) : Except WalletError Selection := do
  let selection <- selectUtxos utxos amount fee
  require (selection.selected.length ≤ MAX_WALLET_INPUTS)
    (WalletError.workLimit "Wallet sends support at most 100 inputs")
  return selection

section Service

variable [Crypto]

def prepareTransaction (keystore : KeyStore) (wallet : WalletRow) (view : WalletState)
    (recipient : Str) (amount fee maxBytes : Int) (wallClock : Nat) :
    Except WalletError (Transaction × Bytes) := do
  let selection <- selectInputs (available view) amount fee
  let key <- keystore.decryptPrivateKey wallet.encryptedPrivateKey wallet.keyVersion
  let transaction <- buildSignedTransaction selection.selected wallet.address recipient
    amount fee key wallClock none (some maxBytes)
  let data <- liftRaised (Codec.encodeTransaction transaction)
  require ((data.length : Int) ≤ maxBytes)
    (WalletError.workLimit "Transaction exceeds node item limit")
  return (transaction, data)

structure WalletSummary where
  address : Str
  publicKey : Str
  confirmedBalance : Int
  availableBalance : Int
  pendingOutgoing : Int
  pendingIncoming : Int
  pendingCount : Nat
deriving DecidableEq

/-- The pending transactions with an input of the wallet's key or an output to it. -/
def relevant (casefold : Str -> Str) (wallet : WalletRow) (pending : List Transaction) :
    List Transaction :=
  pending.filter (fun transaction =>
    transaction.inputs.any (fun input => casefold input.publicKey = wallet.publicKey) ||
      transaction.outputs.any (fun output => output.recipientAddress = wallet.address))

/-- The outputs of a transaction to the wallet that no pending input names. -/
def unspentIncoming (wallet : WalletRow) (taken : List OutPoint) (transaction : Transaction) :
    Int :=
  (((UTXOSet.outputItems transaction).filter (fun item =>
    item.2.recipientAddress = wallet.address ∧ item.1 ∉ taken)).map
    (fun item => item.2.amount)).sum

def summarise (casefold : Str -> Str) (wallet : WalletRow) (view : WalletState) :
    WalletSummary :=
  let taken := reserved view.pending
  { address := wallet.address
    publicKey := wallet.publicKey
    confirmedBalance := view.confirmedBalance
    availableBalance := coinsTotal (available view).items
    pendingOutgoing := coinsTotal (view.utxos.items.filter (fun item => item.1 ∈ taken))
    pendingIncoming :=
      ((relevant casefold wallet view.pending).map (unspentIncoming wallet taken)).sum
    pendingCount := (relevant casefold wallet view.pending).length }

/-- The row is that of the user, and the wallet state is the answer of the node. -/
def getWalletSummary (casefold : Str -> Str) (row : Option WalletRow)
    (getWalletState : Str -> Except PyError WalletState) :
    Except Api.RequestError WalletSummary :=
  match row with
  | none => .error (.api ⟨404, "WALLET_NOT_FOUND", str "Wallet was not found"⟩)
  | some wallet => do
      let view <- Api.ask (getWalletState wallet.address)
      return summarise casefold wallet view

end Service

/-!
## The cap

The coins are counted after they were selected, smallest first.
-/

theorem coinsTotal_initial {front coins : List (OutPoint × TxOutput)}
    (hpositive : forall item, item ∈ coins -> 0 < item.2.amount) (h : front <+: coins) :
    coinsTotal front ≤ coinsTotal coins := by
  rcases h with ⟨rest, hcoins⟩
  have hrest : 0 ≤ coinsTotal rest := by
    apply coinsTotal_nonneg
    intro item hitem
    apply hpositive item
    rw [← hcoins]
    exact List.mem_append_right front hitem
  rw [← hcoins, coinsTotal_append]
  omega

theorem Covers.initial {target : Int} {coins selected : List (OutPoint × TxOutput)}
    (h : Covers target coins selected) : selected <+: coins := by
  rcases h.split with ⟨front, item, back, hcoins, hselected, _⟩
  refine ⟨back, ?_⟩
  rw [hcoins, hselected, List.append_assoc]
  rfl

theorem Covers.length_iff {target : Int} {coins selected : List (OutPoint × TxOutput)}
    (hpositive : forall item, item ∈ coins -> 0 < item.2.amount)
    (h : Covers target coins selected) (count : Nat) :
    count < selected.length <-> coinsTotal (coins.take count) < target := by
  have htaken : forall item, item ∈ coins.take count -> 0 < item.2.amount :=
    fun item hitem => hpositive item (List.mem_of_mem_take hitem)
  constructor
  · intro hlength
    rcases h.split with ⟨front, item, back, hcoins, hselected, hfront⟩
    have hcount : count ≤ front.length := by
      rw [hselected, List.length_append, List.length_singleton] at hlength
      omega
    have hinitial : coins.take count <+: front := by
      rw [hcoins, List.take_append_of_le_length hcount]
      exact List.take_prefix count front
    have hless := coinsTotal_initial (fun other hother => hpositive other (by
      rw [hcoins]
      exact List.mem_append_left _ hother)) hinitial
    omega
  · intro hshort
    by_contra hlength
    have hinitial : selected <+: coins.take count := by
      rw [List.prefix_take_iff]
      exact ⟨h.initial, by omega⟩
    have hless := coinsTotal_initial htaken hinitial
    have henough := h.enough
    omega

theorem selectInputs_eq (utxos : UTXOSet) (amount fee : Int) (selection : Selection)
    (h : selectUtxos utxos amount fee = .ok selection) :
    selectInputs utxos amount fee =
      if selection.selected.length ≤ MAX_WALLET_INPUTS then .ok selection
      else .error (.workLimit "Wallet sends support at most 100 inputs") := by
  unfold selectInputs
  rw [h]
  change (require _ _ >>= fun _ => .ok selection) = _
  unfold require
  by_cases hcap : selection.selected.length ≤ MAX_WALLET_INPUTS
  · rw [if_pos hcap, if_pos hcap]
    rfl
  · rw [if_neg hcap, if_neg hcap]
    rfl

/-- A payment is refused for its number of inputs exactly when all outputs together
cover it and the smallest hundred do not. -/
theorem selectInputs_refused_iff {utxos : UTXOSet}
    (hpositive : forall item, item ∈ utxos.items -> 0 < item.2.amount) {amount fee : Int}
    (hamount : 1 ≤ amount) (hfee : 0 ≤ fee) :
    selectInputs utxos amount fee =
        .error (.workLimit "Wallet sends support at most 100 inputs") <->
      amount + fee ≤ coinsTotal utxos.items ∧
        coinsTotal ((smallestFirst utxos).take MAX_WALLET_INPUTS) < amount + fee := by
  have hsorted : forall item, item ∈ smallestFirst utxos -> 0 < item.2.amount :=
    fun item hitem => hpositive item ((smallestFirst_perm utxos).mem_iff.mp hitem)
  rcases selectUtxos_cases hpositive hamount hfee with
    ⟨selected, hselect, hcovers⟩ | ⟨hselect, hshort⟩
  · have hlength := hcovers.length_iff hsorted MAX_WALLET_INPUTS
    have hall : amount + fee ≤ coinsTotal utxos.items := by
      have htotal := coinsTotal_initial hsorted hcovers.initial
      have henough := hcovers.enough
      rw [coinsTotal_smallestFirst] at htotal
      omega
    rw [selectInputs_eq utxos amount fee _ hselect, ← hlength]
    by_cases hcap : selected.length ≤ MAX_WALLET_INPUTS
    · rw [if_pos hcap]
      constructor
      · intro h
        cases h
      · intro h
        omega
    · rw [if_neg hcap]
      constructor
      · intro _
        exact ⟨hall, by omega⟩
      · intro _
        rfl
  · have hrefused : selectInputs utxos amount fee =
        .error (.insufficientBalance "Insufficient available balance") := by
      unfold selectInputs
      rw [hselect]
      rfl
    rw [hrefused]
    constructor
    · intro h
      cases h
    · intro h
      omega

end Wallet

/-!
## The sample network, with many small coins
-/

namespace Sample

def coin (index : Nat) (amount : Int) : OutPoint × TxOutput :=
  ((coinbaseTxid, (index : Int)), ⟨amount, address⟩)

/-- A hundred coins of one, and a last coin that covers the payment alone. -/
def smallCoins : UTXOSet where
  items := (List.range 100).map (fun index => coin index 1) ++ [coin 100 101]
  nodupKeys := by decide +kernel

end Sample

theorem Wallet.selectInputs_refused_iff_sample :
    Wallet.selectInputs Sample.smallCoins 100 1 =
      .error (.workLimit "Wallet sends support at most 100 inputs") :=
  (Wallet.selectInputs_refused_iff (by decide +kernel) (by decide) (by decide)).mpr
    (by decide +kernel)

/-- One coin covers the payment, and it is refused for its number of inputs. -/
theorem Wallet.selectInputs_refused_affordable :
    exists (utxos : UTXOSet) (amount fee : Int) (coins : List (OutPoint × TxOutput)),
      (forall item, item ∈ utxos.items -> 0 < item.2.amount) ∧ 1 ≤ amount ∧ 0 ≤ fee ∧
        coins.Sublist utxos.items ∧ coins.length ≤ Wallet.MAX_WALLET_INPUTS ∧
        amount + fee ≤ Wallet.coinsTotal coins ∧
        Wallet.selectInputs utxos amount fee =
          .error (.workLimit "Wallet sends support at most 100 inputs") := by
  refine ⟨Sample.smallCoins, 100, 1, [Sample.coin 100 101], ?_, ?_, ?_, ?_, ?_, ?_, ?_⟩
  · decide +kernel
  · decide
  · decide
  · exact List.sublist_append_right _ _
  · decide
  · decide +kernel
  · decide +kernel

end PyChain
