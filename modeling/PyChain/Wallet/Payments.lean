import PyChain.Blockchain.PendingLedger
import PyChain.Wallet.Service

/-!
# Prepared payments

A prepared payment spends confirmed outputs that no pending transaction has taken, so
the working set of the pool still holds them.  Its signatures cover what does not
change after they were made, and the pool admits it unless it is full.
-/

namespace PyChain

open Foundation

namespace Blockchain

section Pending

variable [Crypto] {chain : Blockchain}

theorem PendingLedger.working_get? (h : PendingLedger chain) {outpoint : OutPoint}
    {output : TxOutput} (hget : chain.state.utxoSet.get? outpoint = some output)
    (hfree : outpoint ∉ Wallet.reserved chain.mempool.getTransactions) :
    chain.mempool.workingUtxos.get? outpoint = some output := by
  have hexact := OutputLedger.replay_exact (h.processes.freshIdents h.confirmed.recorded)
    h.processes.replay
  rw [hexact.get?_iff, spentBy_postings]
  exact ⟨Or.inl hget, hfree⟩

theorem PendingLedger.working_recorded (h : PendingLedger chain) {outpoint : OutPoint}
    (hmem : outpoint ∈ chain.mempool.workingUtxos.keys) :
    outpoint.1 ∈ chain.state.seenTxids ∨
      outpoint.1 ∈ chain.mempool.getTransactions.map Transaction.txid := by
  have hrecorded := h.processes.recorded h.confirmed.recorded outpoint hmem
  unfold seenAfter at hrecorded
  rw [Finset.mem_union, List.mem_toFinset] at hrecorded
  exact hrecorded

theorem PendingLedger.outpoint_shape (h : PendingLedger chain) {outpoint : OutPoint}
    {output : TxOutput} (hget : chain.state.utxoSet.get? outpoint = some output) :
    outpoint.1 ≠ [] ∧ 0 ≤ outpoint.2 := by
  rcases ((h.confirmed.exact.get?_iff outpoint output).mp hget).left with hbase | hcreated
  · cases hbase
  · rcases List.mem_flatMap.mp hcreated with ⟨posting, hposting, hmem⟩
    rcases List.mem_map.mp hposting with ⟨transaction, _, heq⟩
    rw [← heq] at hmem
    rcases (Posting.mem_created _ outpoint output).mp hmem with ⟨hident, i, hindex, _⟩
    constructor
    · rw [hident]
      exact sha256Hex_ne_nil _
    · rw [hindex]
      exact Int.natCast_nonneg i

theorem PendingLedger.spent_gone (h : PendingLedger chain) {block : Block}
    (hblock : block ∈ chain.blocks) {transaction : Transaction}
    (htransaction : transaction ∈ block.transactions) {outpoint : OutPoint}
    (hspent : outpoint ∈ transaction.spentOutpoints) :
    chain.state.utxoSet.get? outpoint = none := by
  cases hget : chain.state.utxoSet.get? outpoint with
  | none => rfl
  | some output =>
      have hleft := ((h.confirmed.exact.get?_iff outpoint output).mp hget).right
      rw [spentBy_postings] at hleft
      exact absurd (List.mem_flatMap.mpr ⟨transaction,
        (mem_chainHistory _ _).mpr ⟨block, hblock, htransaction⟩, hspent⟩) hleft

end Pending

end Blockchain

namespace Wallet

section Payments

variable [Crypto]

/-- What the wallet assumes of a key: its encoding can be read back, and its signatures
have the length of two numbers and are valid. -/
structure SoundKey (key : SigningKey) : Prop where
  decodes : Crypto.verifyingKeyFromString key.verifyingKey.toString = some key.verifyingKey
  key_length : key.verifyingKey.toString.length = 2 * BASELEN
  signature_length : forall message, (key.sign message).length = 2 * BASELEN
  verifies : forall message, verifySignature key.verifyingKey message (key.sign message) = true

theorem SoundKey.publicKey_ne_nil {key : SigningKey} (h : SoundKey key) :
    key.publicKeyHex ≠ [] := by
  intro hnil
  have hlength := congrArg List.length hnil
  unfold SigningKey.publicKeyHex at hlength
  rw [toHex_length, h.key_length] at hlength
  cases hlength

theorem SoundKey.signature_ne_nil {key : SigningKey} (h : SoundKey key) (message : Bytes) :
    toHex (key.sign message) ≠ [] := by
  intro hnil
  have hlength := congrArg List.length hnil
  rw [toHex_length, h.signature_length] at hlength
  cases hlength

section Built

variable {selected : List (OutPoint × TxOutput)} {sender recipient : Str} {amount fee : Int}
  {key : SigningKey} {time : Int} {transaction : Transaction}

theorem Built.spends_eq
    (h : Built selected sender recipient amount fee key time transaction) :
    transaction.spentOutpoints = selected.map Prod.fst := by
  rw [h.signed.unsigned.right.right.right]
  unfold Transaction.spentOutpoints draftTransaction
  rw [List.map_map]
  rfl

theorem Built.outputs_eq
    (h : Built selected sender recipient amount fee key time transaction) :
    transaction.outputs = ⟨amount, recipient⟩ ::
      (if coinsTotal selected - amount - fee = 0 then []
        else [⟨coinsTotal selected - amount - fee, sender⟩]) :=
  h.signed.unsigned.right.right.left

theorem Built.input (h : Built selected sender recipient amount fee key time transaction)
    {i : Nat} {input : TxInput} (hinput : transaction.inputs[i]? = some input) :
    exists item message, item ∈ selected ∧ input.outpoint = item.1 ∧
      transaction.signingBytes i = .ok message ∧ input.publicKey = key.publicKeyHex ∧
      input.signature = toHex (key.sign message) := by
  have hsigned := h.signed.inputs i
  rw [hinput] at hsigned
  unfold draftTransaction at hsigned
  rw [List.getElem?_map, Option.map_map] at hsigned
  rcases Option.map_eq_some_iff.mp hsigned.symm with ⟨item, hitem, heq⟩
  have hmessage := signingBytes_eq hinput
  rw [← heq, signingMessage_congr h.signed.unsigned] at hmessage
  refine ⟨item, _, List.mem_of_getElem? hitem, ?_, hmessage, ?_, ?_⟩
  · rw [← heq]
    rfl
  · rw [← heq]
    rfl
  · rw [← heq]
    rfl

theorem Built.inputs_ne_nil
    (h : Built selected sender recipient amount fee key time transaction) :
    transaction.inputs ≠ [] := by
  intro hnil
  have hspends := h.spends_eq
  unfold Transaction.spentOutpoints at hspends
  rw [hnil] at hspends
  exact h.selected_ne_nil (List.map_eq_nil_iff.mp hspends.symm)

theorem Built.outputs_sum
    (h : Built selected sender recipient amount fee key time transaction) :
    (transaction.outputs.map TxOutput.amount).sum = coinsTotal selected - fee := by
  rw [h.outputs_eq, List.map_cons, List.sum_cons]
  by_cases hchange : coinsTotal selected - amount - fee = 0
  · rw [if_pos hchange, List.map_nil, List.sum_nil]
    change amount + 0 = _
    omega
  · rw [if_neg hchange, List.map_singleton, List.sum_singleton]
    change amount + (coinsTotal selected - amount - fee) = _
    omega

omit [Crypto] in
theorem coinsTotal_weights {utxoSet : UTXOSet} {coins : List (OutPoint × TxOutput)}
    (hholds : forall item, item ∈ coins -> utxoSet.get? item.1 = some item.2) :
    ((coins.map Prod.fst).map (utxoSet.weightAt TxOutput.amount)).sum = coinsTotal coins := by
  rw [List.map_map]
  unfold coinsTotal
  apply congrArg List.sum
  apply List.map_congr_left
  intro item hitem
  exact Dict.weightAt_of_get? TxOutput.amount (hholds item hitem)

theorem Built.accepted (h : Built selected sender recipient amount fee key time transaction)
    (hkey : SoundKey key) (htime : 0 ≤ time) {utxoSet : UTXOSet}
    (hholds : forall item, item ∈ selected -> utxoSet.get? item.1 = some item.2 ∧
      item.1.1 ≠ [] ∧ 0 ≤ item.1.2 ∧ isValidOutput item.2 = true) :
    Accepted transaction utxoSet fee where
  shape := by
    have hversion : transaction.version = 1 := h.signed.unsigned.left
    have htimestamp : transaction.timestamp = time := h.signed.unsigned.right.left
    unfold hasRegularShape
    rw [hversion, htimestamp, h.outputs_eq]
    simp [htime, h.inputs_ne_nil]
  outputs := by
    intro output houtput
    rw [h.outputs_eq] at houtput
    rcases List.mem_cons.mp houtput with hpaid | hchange
    · rw [hpaid]
      unfold isValidOutput
      simp [h.amount_pos, h.recipient_valid]
    · rcases List.exists_mem_of_ne_nil selected h.selected_ne_nil with ⟨item, hitem⟩
      have hvalid := (hholds item hitem).right.right.right
      unfold isValidOutput at hvalid
      rw [(h.owned item hitem).left, Bool.and_eq_true] at hvalid
      have hcovered := h.covered
      split at hchange
      · cases hchange
      · rw [List.mem_singleton.mp hchange]
        unfold isValidOutput
        rw [hvalid.right, Bool.and_true, decide_eq_true_eq]
        simp only
        omega
  inputs := by
    apply checkInputs_of
    · intro input hinput
      rcases List.getElem?_of_mem hinput with ⟨i, hi⟩
      rcases h.input hi with ⟨item, message, hitem, houtpoint, _, hpublicKey, hsignature⟩
      rcases hholds item hitem with ⟨_, hprevious, hindex, _⟩
      rw [← houtpoint] at hprevious hindex
      rw [hpublicKey, hsignature]
      exact ⟨hprevious, hindex, hkey.publicKey_ne_nil, hkey.signature_ne_nil message⟩
    · change transaction.spentOutpoints.Nodup
      rw [h.spends_eq]
      exact h.outpoints_nodup
    · intro input _ hseen
      cases hseen
  authorised := by
    intro i input hi
    rcases h.input hi with ⟨item, message, hitem, houtpoint, hmessage, hpublicKey, hsignature⟩
    rcases hholds item hitem with ⟨hget, _, _, hvalid⟩
    refine ⟨item.2, ?_, hvalid, ⟨key.verifyingKey, key.sign message, message, ?_, ?_, ?_,
      hmessage, hkey.verifies message⟩⟩
    · rw [houtpoint]
      exact hget
    · rw [hpublicKey]
      unfold SigningKey.publicKeyHex publicKeyFromHex
      rw [fromHex_toHex]
      simp only
      rw [hkey.decodes]
    · rw [hsignature]
      unfold bytesFromHex
      rw [fromHex_toHex]
    · rw [(h.owned item hitem).left]
      exact h.sender_eq
  fee_eq := by
    have hspent : (transaction.spentOutpoints.map (utxoSet.weightAt TxOutput.amount)).sum =
        coinsTotal selected := by
      rw [h.spends_eq]
      exact coinsTotal_weights (fun item hitem => (hholds item hitem).left)
    change fee = (transaction.spentOutpoints.map (utxoSet.weightAt TxOutput.amount)).sum -
      (transaction.outputs.map TxOutput.amount).sum
    rw [hspent, h.outputs_sum]
    omega
  fee_nonneg := h.fee_nonneg

end Built

/-!
## What the service prepares
-/

section View

variable {chain : Blockchain} {address : Str} {view : WalletState}

omit [Crypto] in
theorem walletState_view (h : chain.walletState address = .ok view) :
    view.confirmedBalance = chain.state.utxoSet.getBalance address ∧
      view.utxos = chain.state.utxoSet.getUtxosForAddress address ∧
      view.pending = chain.mempool.getTransactions := by
  unfold Blockchain.walletState Blockchain.getAddressInfo at h
  simp only [bind_eq_ok_iff] at h
  rcases h with ⟨info, ⟨_, _, hinfo⟩, hview⟩
  rw [← Except.ok.inj hview, ← Except.ok.inj hinfo]
  exact ⟨rfl, rfl, rfl⟩

/-- The confirmed outputs of an address that no pending input names. -/
def unreserved (chain : Blockchain) (address : Str) : List (OutPoint × TxOutput) :=
  chain.state.utxoSet.items.filter (fun item => item.2.recipientAddress = address ∧
    forall pending, pending ∈ chain.mempool.getTransactions ->
      item.1 ∉ pending.spentOutpoints)

omit [Crypto] in
theorem mem_reserved {pending : List Transaction} {outpoint : OutPoint} :
    outpoint ∉ reserved pending <-> forall transaction, transaction ∈ pending ->
      outpoint ∉ transaction.spentOutpoints := by
  unfold reserved
  rw [List.mem_flatMap]
  simp

omit [Crypto] in
theorem available_items (h : chain.walletState address = .ok view) :
    (available view).items = unreserved chain address := by
  rcases walletState_view h with ⟨_, hutxos, hpending⟩
  unfold available unreserved
  rw [hutxos, hpending]
  change (chain.state.utxoSet.items.filter _).filter _ = _
  rw [List.filter_filter]
  apply List.filter_congr
  intro item _
  rw [Bool.eq_iff_iff, Bool.and_eq_true, decide_eq_true_eq, decide_eq_true_eq,
    decide_eq_true_eq, mem_reserved]
  exact and_comm

omit [Crypto] in
theorem mem_unreserved {item : OutPoint × TxOutput} (h : item ∈ unreserved chain address) :
    chain.state.utxoSet.get? item.1 = some item.2 ∧ item.2.recipientAddress = address ∧
      forall pending, pending ∈ chain.mempool.getTransactions ->
        item.1 ∉ pending.spentOutpoints := by
  rcases List.mem_filter.mp h with ⟨hitem, hkeep⟩
  exact ⟨(Dict.get?_eq_some_iff _ _ _).mpr hitem, of_decide_eq_true hkeep⟩

end View

section Admitted

variable {chain : Blockchain} {selected : List (OutPoint × TxOutput)} {sender recipient : Str}
  {amount fee : Int} {key : SigningKey} {time : Int} {transaction : Transaction}

theorem Built.unused (h : Built selected sender recipient amount fee key time transaction)
    (hpending : Blockchain.PendingLedger chain)
    (hselected : forall item, item ∈ selected -> item ∈ unreserved chain sender)
    (hfree : CollisionFreeOn (Blockchain.IdentifiedBy chain transaction)) :
    transaction.txid ∉ chain.state.seenTxids ∧
      transaction.txid ∉ chain.mempool.getTransactions.map Transaction.txid := by
  rcases List.exists_mem_of_ne_nil selected h.selected_ne_nil with ⟨item, hitem⟩
  rcases mem_unreserved (hselected item hitem) with ⟨hget, _, hunnamed⟩
  have hspent : item.1 ∈ transaction.spentOutpoints := by
    rw [h.spends_eq]
    exact List.mem_map_of_mem hitem
  have hself : Blockchain.IdentifiedBy chain transaction transaction.encoding :=
    ⟨transaction, Or.inr (Or.inr rfl), rfl⟩
  constructor
  · intro hseen
    rcases (hpending.confirmed.mem_seen_iff _).mp hseen with
      ⟨block, other, hblock, hother, htxid⟩
    have hencoding := hfree.hex_injective
      ⟨other, Or.inl ⟨block, hblock, hother⟩, rfl⟩ hself htxid
    rw [Transaction.encoding_injective hencoding] at hother
    have hgone := hpending.spent_gone hblock hother hspent
    rw [hget] at hgone
    cases hgone
  · intro hmem
    rcases List.mem_map.mp hmem with ⟨other, hother, htxid⟩
    have hencoding := hfree.hex_injective ⟨other, Or.inr (Or.inl hother), rfl⟩ hself htxid
    rw [Transaction.encoding_injective hencoding] at hother
    exact hunnamed transaction hother hspent

theorem Built.pool_accepted
    (h : Built selected sender recipient amount fee key time transaction)
    (hkey : SoundKey key) (htime : 0 ≤ time) (hsound : (Blockchain.live chain).Sound)
    (hselected : forall item, item ∈ selected -> item ∈ unreserved chain sender) :
    Accepted transaction chain.mempool.workingUtxos fee := by
  have hpending := Blockchain.pendingLedger hsound
  rcases hsound.valid with ⟨tip, hvalid⟩
  apply h.accepted hkey htime
  intro item hitem
  rcases mem_unreserved (hselected item hitem) with ⟨hget, _, hunnamed⟩
  rcases hpending.outpoint_shape hget with ⟨hprevious, hindex⟩
  exact ⟨hpending.working_get? hget (mem_reserved.mpr hunnamed), hprevious, hindex,
    hvalid.outputs_valid _ _ hget⟩

theorem Built.admitted_iff
    (h : Built selected sender recipient amount fee key time transaction)
    (hkey : SoundKey key) (htime : 0 ≤ time) (hsound : (Blockchain.live chain).Sound)
    (hselected : forall item, item ∈ selected -> item ∈ unreserved chain sender)
    (hfree : CollisionFreeOn (Blockchain.IdentifiedBy chain transaction)) :
    (chain.mempool.addTransaction transaction).1 = true <->
      (chain.mempool.size : Int) < chain.mempool.limits.maxTransactions ∧
        (chain.mempool.totalBytes + transaction.encoding.length : Int) ≤
          chain.mempool.limits.maxBytes := by
  have hpending := Blockchain.pendingLedger hsound
  have hcoherent : chain.mempool.Coherent := hsound.coherent
  have hseen : chain.mempool.seenTxids = chain.state.seenTxids := hsound.seenTxids
  have haccepted := h.pool_accepted hkey htime hsound hselected
  rcases h.unused hpending hselected hfree with ⟨hunseen, hunlisted⟩
  constructor
  · intro hadded
    rcases Mempool.addTransaction_cases chain.mempool transaction with
      hsame | ⟨fee', next, _, hadmitted⟩
    · rw [hsame] at hadded
      cases hadded
    · exact ⟨hadmitted.room, hadmitted.bytes⟩
  · intro hroom
    have hprocessed : Processed chain.mempool.workingUtxos
        (chain.mempool.seenTxids ∪ chain.mempool.entries.keys.toFinset) transaction fee := by
      refine ⟨haccepted, ?_, haccepted.spends_nodup, fun _ => haccepted.spends_present, ?_⟩
      · rw [hseen, hcoherent.keys_eq, Finset.mem_union, List.mem_toFinset, not_or]
        exact ⟨hunseen, hunlisted⟩
      · intro entry hentry hmem
        have hident : entry.1.1 = transaction.txid := Posting.created_ident hentry
        rcases hpending.working_recorded hmem with hold | hold
        · rw [hident] at hold
          exact hunseen hold
        · rw [hident] at hold
          exact hunlisted hold
    rw [Mempool.addTransaction_of_admitted ⟨hroom.left, hprocessed, hroom.right, rfl⟩]

end Admitted

section Prepared

variable {chain : Blockchain} {keystore : KeyStore} {wallet : WalletRow} {view : WalletState}
  {recipient : Str} {amount fee maxBytes : Int} {wallClock : Nat}

theorem unreserved_positive (hsound : (Blockchain.live chain).Sound) {address : Str}
    {item : OutPoint × TxOutput} (h : item ∈ unreserved chain address) :
    0 < item.2.amount := by
  rcases hsound.valid with ⟨tip, hvalid⟩
  have houtput := hvalid.outputs_valid _ _ (mem_unreserved h).left
  unfold isValidOutput at houtput
  rw [Bool.and_eq_true, decide_eq_true_eq] at houtput
  exact houtput.left

theorem prepareTransaction_eq_ok {transaction : Transaction} {data : Bytes}
    (h : prepareTransaction keystore wallet view recipient amount fee maxBytes wallClock =
      .ok (transaction, data)) :
    exists selection key, selectInputs (available view) amount fee = .ok selection ∧
      keystore.decryptPrivateKey wallet.encryptedPrivateKey wallet.keyVersion = .ok key ∧
      Built selection.selected wallet.address recipient amount fee key wallClock transaction ∧
      data = transaction.encoding := by
  unfold prepareTransaction at h
  simp only [bind_eq_ok_iff, require_eq_ok_iff] at h
  rcases h with ⟨selection, hselection, key, hkey, built, hbuilt, encoded, hencoded, _, _,
    hanswer⟩
  cases hanswer
  refine ⟨selection, key, hselection, hkey, (buildSignedTransaction_built hbuilt).right, ?_⟩
  cases hencode : Codec.encodeTransaction transaction with
  | error e =>
      rw [hencode] at hencoded
      cases hencoded
  | ok value =>
      rw [hencode] at hencoded
      cases hencoded
      exact (Codec.encodeTransaction_eq_ok_iff.mp hencode).left

/-- Errors other than that of an insufficient balance. -/
def PastSelection (e : WalletError) : Prop :=
  forall message, e ≠ .insufficientBalance message

omit [Crypto] in
theorem raises_liftRaised {answer : Type} (reply : Except PyError answer) :
    Raises PastSelection (liftRaised reply) := by
  cases reply with
  | ok value => exact raises_ok value
  | error e =>
      apply raises_error
      intro message heq
      cases heq

omit [Crypto] in
theorem raises_requireWork {condition : Prop} [Decidable condition] (message : String) :
    Raises PastSelection (require condition (WalletError.workLimit message)) := by
  apply raises_require
  intro other heq
  cases heq

omit [Crypto] in
theorem raises_requireValue {condition : Prop} [Decidable condition] (message : String) :
    Raises PastSelection (require condition (valueError message)) := by
  apply raises_require
  intro other heq
  cases heq

theorem raises_buildSignedTransaction (selected : List (OutPoint × TxOutput))
    (sender recipient : Str) (amount fee : Int) (key : SigningKey) (wallClock : Nat)
    (timestamp maxBytes : Option Int) :
    Raises PastSelection (buildSignedTransaction selected sender recipient amount fee key
      wallClock timestamp maxBytes) := by
  unfold buildSignedTransaction
  apply raises_bind (raises_requireValue _)
  intro _ _
  apply raises_bind (raises_requireValue _)
  intro _ _
  apply raises_bind (raises_requireValue _)
  intro _ _
  apply raises_bind (raises_requireValue _)
  intro _ _
  apply raises_bind (raises_requireValue _)
  intro _ _
  apply raises_bind (raises_requireValue _)
  intro _ _
  cases maxBytes with
  | none => exact raises_liftRaised _
  | some limit => exact raises_bind (raises_requireWork _) (fun _ _ => raises_liftRaised _)

omit [Crypto] in
theorem raises_decryptPrivateKey (keystore : KeyStore) (encrypted : Bytes) (keyVersion : Int) :
    Raises PastSelection (keystore.decryptPrivateKey encrypted keyVersion) := by
  unfold KeyStore.decryptPrivateKey
  split
  · apply raises_error
    intro message heq
    cases heq
  · split
    · apply raises_error
      intro message heq
      cases heq
    · exact raises_ok _

theorem prepareTransaction_insufficient_iff (message : String) :
    prepareTransaction keystore wallet view recipient amount fee maxBytes wallClock =
        .error (.insufficientBalance message) <->
      selectUtxos (available view) amount fee = .error (.insufficientBalance message) := by
  unfold prepareTransaction selectInputs
  simp only [bind_eq_error_iff]
  constructor
  · intro h
    rcases h with (hselect | ⟨selection, _, hcap | ⟨_, _, hpure⟩⟩) | ⟨_, _, hrest⟩
    · exact hselect
    · exact absurd rfl (raises_requireWork _ _ hcap message)
    · cases hpure
    · rcases hrest with hkey | ⟨_, _, hbuild | ⟨_, _, hencode | ⟨_, _, hlimit | ⟨_, _, hpure⟩⟩⟩⟩
      · exact absurd rfl (raises_decryptPrivateKey _ _ _ _ hkey message)
      · exact absurd rfl (raises_buildSignedTransaction _ _ _ _ _ _ _ _ _ _ hbuild message)
      · exact absurd rfl (raises_liftRaised _ _ hencode message)
      · exact absurd rfl (raises_requireWork _ _ hlimit message)
      · cases hpure
  · intro h
    exact Or.inl (Or.inl h)

/-- A payment of unreserved outputs that pays exactly the amount, the change and the fee,
and that the pool admits unless it is full. -/
structure AdmissiblePayment (chain : Blockchain) (address recipient : Str) (amount fee : Int)
    (transaction : Transaction) : Prop where
  unreserved : forall outpoint, outpoint ∈ transaction.spentOutpoints ->
    (exists output, chain.state.utxoSet.get? outpoint = some output ∧
      output.recipientAddress = address) ∧
    forall pending, pending ∈ chain.mempool.getTransactions ->
      outpoint ∉ pending.spentOutpoints
  fee_eq : calculateTransactionFee transaction chain.mempool.workingUtxos = .ok fee
  outputs : exists change, 0 ≤ change ∧
    (transaction.spentOutpoints.map
      (chain.state.utxoSet.weightAt TxOutput.amount)).sum = amount + change + fee ∧
    transaction.outputs =
      ⟨amount, recipient⟩ :: (if change = 0 then [] else [⟨change, address⟩])
  admitted : (chain.mempool.addTransaction transaction).1 = true <->
    (chain.mempool.size : Int) < chain.mempool.limits.maxTransactions ∧
      (chain.mempool.totalBytes + transaction.encoding.length : Int) ≤
        chain.mempool.limits.maxBytes

omit [Crypto] in
theorem selectInputs_eq_ok {utxos : UTXOSet}
    (hpositive : forall item, item ∈ utxos.items -> 0 < item.2.amount) (hamount : 1 ≤ amount)
    (hfee : 0 ≤ fee) {selection : Selection}
    (h : selectInputs utxos amount fee = .ok selection) :
    selection.change = coinsTotal selection.selected - amount - fee ∧
      forall item, item ∈ selection.selected -> item ∈ utxos.items := by
  unfold selectInputs at h
  simp only [bind_eq_ok_iff] at h
  rcases h with ⟨chosen, hchosen, _, _, hanswer⟩
  cases hanswer
  rcases selectUtxos_cases hpositive hamount hfee with
    ⟨selected, hselect, hcovers⟩ | ⟨hselect, _⟩
  · rw [hselect] at hchosen
    cases hchosen
    refine ⟨rfl, ?_⟩
    intro item hitem
    exact (smallestFirst_perm utxos).mem_iff.mp (hcovers.initial.subset hitem)
  · rw [hselect] at hchosen
    cases hchosen

/-- A prepared payment is admissible, and none is prepared for lack of balance exactly
when the unreserved outputs do not cover it. -/
theorem prepareTransaction_admissible (hreachable : chain.Reachable)
    (hview : chain.walletState wallet.address = .ok view) (hamount : 1 ≤ amount)
    (hfee : 0 ≤ fee)
    (hkeys : forall key, keystore.decrypt wallet.encryptedPrivateKey = some key ->
      SoundKey key) :
    (forall transaction data,
      prepareTransaction keystore wallet view recipient amount fee maxBytes wallClock =
        .ok (transaction, data) ->
      CollisionFreeOn (Blockchain.IdentifiedBy chain transaction) ->
      AdmissiblePayment chain wallet.address recipient amount fee transaction ∧
        data = transaction.encoding ∧
        exists selection key, selectInputs (available view) amount fee = .ok selection ∧
          keystore.decryptPrivateKey wallet.encryptedPrivateKey wallet.keyVersion = .ok key ∧
          data.length = (withPlaceholders key (draftTransaction selection.selected
            wallet.address recipient amount selection.change wallClock)).encoding.length) ∧
    ((exists message, prepareTransaction keystore wallet view recipient amount fee maxBytes
        wallClock = .error (.insufficientBalance message)) <->
      coinsTotal (unreserved chain wallet.address) < amount + fee) := by
  have hsound := (Blockchain.reachable_sound hreachable).left
  have hitems := available_items hview
  have hpositive : forall item, item ∈ (available view).items -> 0 < item.2.amount := by
    intro item hitem
    rw [hitems] at hitem
    exact unreserved_positive hsound hitem
  constructor
  · intro transaction data hprepared hfree
    rcases prepareTransaction_eq_ok hprepared with
      ⟨selection, key, hselection, hdecrypted, hbuilt, hdata⟩
    rcases selectInputs_eq_ok hpositive hamount hfee hselection with ⟨hchange, hselected⟩
    have hkey : SoundKey key := by
      apply hkeys
      unfold KeyStore.decryptPrivateKey at hdecrypted
      split at hdecrypted
      · cases hdecrypted
      · split at hdecrypted
        · cases hdecrypted
        · cases hdecrypted
          assumption
    have hunreserved : forall item, item ∈ selection.selected ->
        item ∈ unreserved chain wallet.address := by
      intro item hitem
      rw [← hitems]
      exact hselected item hitem
    have htime : (0 : Int) ≤ (wallClock : Int) := Int.natCast_nonneg wallClock
    refine ⟨⟨?_, ?_, ?_, ?_⟩, hdata, selection, key, hselection, hdecrypted, ?_⟩
    · intro outpoint hspent
      rw [hbuilt.spends_eq] at hspent
      rcases List.mem_map.mp hspent with ⟨item, hitem, heq⟩
      rcases mem_unreserved (hunreserved item hitem) with ⟨hget, haddress, hunnamed⟩
      rw [← heq]
      exact ⟨⟨item.2, hget, haddress⟩, hunnamed⟩
    · rw [calculateTransactionFee_eq_ok_iff]
      exact hbuilt.pool_accepted hkey htime hsound hunreserved
    · have hcovered := hbuilt.covered
      have hspent : (transaction.spentOutpoints.map
          (chain.state.utxoSet.weightAt TxOutput.amount)).sum =
            coinsTotal selection.selected := by
        rw [hbuilt.spends_eq]
        exact coinsTotal_weights (fun item hitem =>
          (mem_unreserved (hunreserved item hitem)).left)
      refine ⟨coinsTotal selection.selected - amount - fee, by omega, ?_, hbuilt.outputs_eq⟩
      rw [hspent]
      omega
    · exact hbuilt.admitted_iff hkey htime hsound hunreserved hfree
    · rw [hdata, hbuilt.signed.length_eq hkey.signature_length, hchange]
  · simp only [prepareTransaction_insufficient_iff]
    rw [← hitems]
    rcases selectUtxos_cases hpositive hamount hfee with
      ⟨selected, hselect, hcovers⟩ | ⟨hselect, hshort⟩
    · have henough := hcovers.enough
      have hless := coinsTotal_initial (fun item hitem =>
        hpositive item ((smallestFirst_perm _).mem_iff.mp hitem)) hcovers.initial
      rw [coinsTotal_smallestFirst] at hless
      rw [hselect]
      constructor
      · intro h
        rcases h with ⟨message, hmessage⟩
        cases hmessage
      · intro h
        omega
    · rw [hselect]
      constructor
      · intro _
        exact hshort
      · intro _
        exact ⟨_, rfl⟩

end Prepared

end Payments

end Wallet

/-!
## The sample network, before the payment
-/

namespace Sample

def ownerKey : Wallet.SigningKey where
  verifyingKey := ⟨publicKeyBytes⟩
  sign := ownerSign

def keystore : Wallet.KeyStore where
  decrypt _ := some ownerKey

def wallet : Wallet.WalletRow where
  address := address
  publicKey := publicKeyHex
  encryptedPrivateKey := []
  keyVersion := 1

/-- The coin is split, and nothing waits. -/
def unspent : Blockchain :=
  (@Blockchain.ram ownersCrypto).run
    [.addBlock first ownersClock, .addBlock splitBlock ownersClock] start

def viewOf (chain : Blockchain) : WalletState where
  address := address
  confirmedBalance := chain.state.utxoSet.getBalance address
  utxos := chain.state.utxoSet.getUtxosForAddress address
  utxoCount := (chain.state.utxoSet.getUtxosForAddress address).size
  pending := chain.mempool.getTransactions

theorem viewOf_answer {chain : Blockchain} (h : Blockchain.ensureUsable chain = .ok ()) :
    chain.walletState address = .ok (viewOf chain) := by
  unfold Blockchain.walletState Blockchain.getAddressInfo
  rw [h]
  rfl

theorem ownerKey_sound : @Wallet.SoundKey ownersCrypto ownerKey := by
  refine @Wallet.SoundKey.mk ownersCrypto ownerKey ?_ ?_ ?_ ?_
  · decide +kernel
  · decide +kernel
  · exact tableSign_length _
  · intro message
    unfold verifySignature ownerKey
    simp only [Crypto.verify, true_and, true_or, decide_true]

theorem keystore_sound (key : Wallet.SigningKey)
    (h : keystore.decrypt wallet.encryptedPrivateKey = some key) :
    @Wallet.SoundKey ownersCrypto key := by
  rw [← Option.some.inj h]
  exact ownerKey_sound

theorem unspent_reachable : @Blockchain.Reachable ownersCrypto unspent :=
  ⟨ownersClock, none, none, start, _, start_created_owners, rfl⟩

theorem unspent_view : unspent.walletState address = .ok (viewOf unspent) :=
  viewOf_answer (@Blockchain.reachable_sound ownersCrypto unspent unspent_reachable).right

theorem unspent_contents :
    unspent.blocks = [genesis, first, splitBlock] ∧ unspent.mempool.getTransactions = [] ∧
      @Wallet.prepareTransaction ownersCrypto keystore wallet (viewOf unspent) other 10 1
        100000 1788652950 = .ok (payment, payment.encoding) := by
  decide +kernel

theorem unspent_identified :
    @CollisionFreeOn ownersCrypto (Blockchain.IdentifiedBy unspent payment) := by
  rcases unspent_contents with ⟨hblocks, hpool, _⟩
  apply @Blockchain.identified_free ownersCrypto unspent payment
    [coinbase, splitCoinbase, split, payment]
  · rw [hblocks, hpool]
    rfl
  · decide +kernel

end Sample

theorem Wallet.prepareTransaction_admissible_sample :
    @Wallet.prepareTransaction Sample.ownersCrypto Sample.keystore Sample.wallet
        (Sample.viewOf Sample.unspent) Sample.other 10 1 100000 1788652950 =
          .ok (Sample.payment, Sample.payment.encoding) ∧
      @Wallet.AdmissiblePayment Sample.ownersCrypto Sample.unspent Sample.address Sample.other
        10 1 Sample.payment := by
  have hspec := @Wallet.prepareTransaction_admissible Sample.ownersCrypto Sample.unspent
    Sample.keystore Sample.wallet _ Sample.other 10 1 100000 1788652950
    Sample.unspent_reachable Sample.unspent_view (by decide) (by decide)
    Sample.keystore_sound
  rcases Sample.unspent_contents with ⟨_, _, hprepared⟩
  exact ⟨hprepared, (hspec.left _ _ hprepared Sample.unspent_identified).left⟩

end PyChain
