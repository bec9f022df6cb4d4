import PyChain.Blockchain.Authorisation
import PyChain.Wallet.Payments

/-!
# The forecast of a summary

A block of all pending transactions removes the confirmed outputs that they spend and
adds the outputs that they leave.  What this does to the balance of an address is what
the summary of the wallet has added up.
-/

namespace PyChain

open Foundation

namespace Wallet

/-!
## Amounts of some coins
-/

theorem sum_amountTo (address : Str) (coins : List (OutPoint × TxOutput)) :
    (coins.map (fun item => amountTo address item.2)).sum =
      coinsTotal (coins.filter (fun item => item.2.recipientAddress = address)) := by
  unfold coinsTotal amountTo
  rw [List.sum_map_ite]
  simp

theorem coinsTotal_utxos (utxos : UTXOSet) (address : Str) :
    coinsTotal (utxos.getUtxosForAddress address).items = utxos.getBalance address := by
  rw [getBalance_eq_total]
  exact (sum_amountTo address utxos.items).symm

theorem coinsTotal_split (coins : List (OutPoint × TxOutput)) (taken : List OutPoint) :
    coinsTotal (coins.filter (fun item => item.1 ∉ taken)) +
        coinsTotal (coins.filter (fun item => item.1 ∈ taken)) = coinsTotal coins := by
  have hsplit := List.sum_map_filter_add_sum_map_filter_not
    (fun item : OutPoint × TxOutput => item.1 ∈ taken) (fun item => item.2.amount) coins
  rw [Int.add_comm]
  exact hsplit

section Summary

variable [Crypto] {casefold : Str -> Str} {wallet : WalletRow} {chain : Blockchain}
  {summary : WalletSummary}

theorem getWalletSummary_eq_ok
    (h : getWalletSummary casefold (some wallet) chain.walletState = .ok summary) :
    exists view, chain.walletState wallet.address = .ok view ∧
      summary = summarise casefold wallet view := by
  unfold getWalletSummary at h
  simp only [bind_eq_ok_iff] at h
  rcases h with ⟨view, hview, hsummary⟩
  exact ⟨view, Api.ask_eq_ok_iff.mp hview, (Except.ok.inj hsummary).symm⟩

theorem unspentIncoming_of_irrelevant {transaction : Transaction} {taken : List OutPoint}
    (h : forall output, output ∈ transaction.outputs ->
      output.recipientAddress ≠ wallet.address) :
    unspentIncoming wallet taken transaction = 0 := by
  have hnone : (UTXOSet.outputItems transaction).filter (fun item =>
      item.2.recipientAddress = wallet.address ∧ item.1 ∉ taken) = [] := by
    rw [List.filter_eq_nil_iff]
    intro item hitem hkeep
    rcases (Posting.mem_created (UTXOSet.posting transaction) item.1 item.2).mp hitem with
      ⟨_, i, _, houtput⟩
    exact h item.2 (List.mem_of_getElem? houtput) (of_decide_eq_true hkeep).left
  unfold unspentIncoming
  rw [hnone]
  rfl

theorem pendingIncoming_eq (pending : List Transaction) (taken : List OutPoint) :
    ((relevant casefold wallet pending).map (unspentIncoming wallet taken)).sum =
      (pending.map (unspentIncoming wallet taken)).sum := by
  induction pending with
  | nil => rfl
  | cons transaction rest ih =>
      unfold relevant at ih ⊢
      rw [List.filter_cons, List.map_cons, List.sum_cons]
      split
      · rw [List.map_cons, List.sum_cons, ih]
      · rename_i hirrelevant
        rw [ih, unspentIncoming_of_irrelevant, Int.zero_add]
        intro output houtput hpays
        apply hirrelevant
        rw [Bool.or_eq_true]
        exact Or.inr (List.any_eq_true.mpr ⟨output, houtput, decide_eq_true hpays⟩)

theorem unspentIncoming_eq (transaction : Transaction) (taken : List OutPoint) :
    unspentIncoming wallet taken transaction =
      (((UTXOSet.outputItems transaction).filter (fun item => item.1 ∉ taken)).map
        (fun item => amountTo wallet.address item.2)).sum := by
  rw [sum_amountTo, List.filter_filter]
  unfold unspentIncoming coinsTotal
  simp only [Bool.decide_and]

/-!
## The block of the whole pool
-/

section Pool

variable {block : Block} {state next : ChainState} {coinbase : Transaction}
  {regular pending : List Transaction} {fees : List Int} {working : UTXOSet}

theorem mem_spentBy_pool (h : BlockApplied block state coinbase regular fees working next)
    (hperm : regular.Perm pending) (outpoint : OutPoint) :
    outpoint ∈ OutputLedger.spentBy (postings block.ledgerOrder) <->
      outpoint ∈ reserved pending := by
  have hinputs : coinbase.spentOutpoints = [] := by
    unfold Transaction.spentOutpoints
    rw [validateCoinbaseTransaction_inputs h.coinbase_valid]
    rfl
  rw [h.ledgerOrder_eq, spentBy_postings, List.flatMap_append, List.flatMap_singleton,
    hinputs, List.append_nil]
  exact (hperm.flatMap_right Transaction.spentOutpoints).mem_iff

theorem created_pool (h : BlockApplied block state coinbase regular fees working next)
    (hperm : regular.Perm pending)
    (hcoinbase : forall output, output ∈ coinbase.outputs ->
      output.recipientAddress ≠ wallet.address) (taken : List OutPoint) :
    (((OutputLedger.createdBy (postings block.ledgerOrder)).filter
        (fun item => item.1 ∉ taken)).map (fun item => amountTo wallet.address item.2)).sum =
      (pending.map (unspentIncoming wallet taken)).sum := by
  rw [h.ledgerOrder_eq, createdBy_postings, List.filter_flatMap, Dict.sum_flatMap,
    List.map_append,
    List.sum_append]
  simp only [← unspentIncoming_eq]
  rw [List.map_singleton, List.sum_singleton, unspentIncoming_of_irrelevant hcoinbase,
    Int.add_zero]
  exact (hperm.map _).sum_eq

theorem getBalance_pool (h : BlockApplied block state coinbase regular fees working next)
    (hrecorded : RecordedOutputs state.utxoSet state.seenTxids)
    (hperm : regular.Perm pending)
    (hcoinbase : forall output, output ∈ coinbase.outputs ->
      output.recipientAddress ≠ wallet.address) :
    next.utxoSet.getBalance wallet.address =
      coinsTotal ((state.utxoSet.getUtxosForAddress wallet.address).items.filter
        (fun item => item.1 ∉ reserved pending)) +
      (pending.map (unspentIncoming wallet (reserved pending))).sum := by
  have hfresh := h.freshIdents hrecorded
  have hitems := (OutputLedger.replay_exact hfresh h.replay).items_perm hfresh
  simp only [mem_spentBy_pool h hperm] at hitems
  have hconfirmed : ((state.utxoSet.items.filter (fun item => item.1 ∉ reserved pending)).map
        (fun item => amountTo wallet.address item.2)).sum =
      coinsTotal ((state.utxoSet.getUtxosForAddress wallet.address).items.filter
        (fun item => item.1 ∉ reserved pending)) := by
    rw [sum_amountTo, List.filter_filter]
    change _ = coinsTotal ((state.utxoSet.items.filter _).filter _)
    rw [List.filter_filter]
    simp only [Bool.and_comm]
  rw [getBalance_eq_total]
  unfold Dict.total
  rw [(hitems.map _).sum_eq, List.filter_append, List.map_append, List.sum_append, hconfirmed,
    created_pool h hperm hcoinbase]

end Pool

/-- Available and reserved outputs are the confirmed ones, and a block of the whole pool
leaves what is available and what comes in. -/
theorem summary_forecasts (hreachable : chain.Reachable)
    (h : getWalletSummary casefold (some wallet) chain.walletState = .ok summary) :
    summary.availableBalance + summary.pendingOutgoing = summary.confirmedBalance ∧
      chain.getBalance wallet.address = .ok summary.confirmedBalance ∧
      forall (block : Block) (clock : Clock) (coinbase : Transaction)
        (body : List Transaction),
        block.transactions = coinbase :: body ->
        body.Perm chain.mempool.getTransactions ->
        (forall output, output ∈ coinbase.outputs ->
          output.recipientAddress ≠ wallet.address) ->
        (Blockchain.ram.step (.addBlock block clock) chain).1 = .ok true ->
        (Blockchain.ram.step (.addBlock block clock) chain).2.getBalance wallet.address =
          .ok (summary.availableBalance + summary.pendingIncoming) := by
  rcases getWalletSummary_eq_ok h with ⟨view, hview, hsummary⟩
  rcases walletState_view hview with ⟨hbalance, hutxos, hpending⟩
  have husable := Blockchain.reachable_sound hreachable
  rw [hsummary]
  unfold summarise available
  simp only
  rw [hbalance, hutxos, hpending, pendingIncoming_eq]
  refine ⟨?_, ?_, ?_⟩
  · rw [← coinsTotal_utxos]
    exact coinsTotal_split _ _
  · unfold Blockchain.getBalance
    rw [husable.right]
    rfl
  · intro block clock coinbase body htransactions hbody hcoinbase haccepted
    rcases addBlock_applied hreachable haccepted with
      ⟨hrecorded, first, regular, fees, working, happlied⟩
    have husable' := (Blockchain.ram_step_sound (.addBlock block clock) chain husable).right
    have hsame := happlied.transactions
    rw [htransactions] at hsame
    rcases List.cons.inj hsame with ⟨hfirst, hregular⟩
    rw [hfirst] at hcoinbase
    rw [hregular] at hbody
    unfold Blockchain.getBalance
    rw [husable']
    change Except.ok (ChainState.utxoSet _ |>.getBalance wallet.address) = _
    rw [getBalance_pool happlied hrecorded hbody hcoinbase]
    rfl

end Summary

end Wallet

/-!
## The sample network, with two payments in the pool
-/

namespace Sample

/-- The coin is reserved, and the change of the later payment comes in. -/
def ownersSummary : Wallet.WalletSummary where
  address := address
  publicKey := publicKeyHex
  confirmedBalance := 28
  availableBalance := 0
  pendingOutgoing := 28
  pendingIncoming := 11
  pendingCount := 2

theorem owners_forecast :
    @Wallet.summarise ownersCrypto id wallet (viewOf owners) = ownersSummary ∧
      ((@Blockchain.ram ownersCrypto).step (.addBlock paidBlock ownersClock) owners).1 =
        .ok true := by
  decide +kernel

theorem owners_summary :
    @Wallet.getWalletSummary ownersCrypto id (some wallet) owners.walletState =
      .ok ownersSummary := by
  have hview := viewOf_answer
    (@Blockchain.reachable_sound ownersCrypto owners owners_reachable).right
  rcases owners_forecast with ⟨hsummary, _⟩
  unfold Wallet.getWalletSummary
  rw [← hsummary]
  change (Api.ask (owners.walletState address) >>= _) = _
  rw [hview]
  rfl

end Sample

theorem Wallet.summary_forecasts_sample :
    ((@Blockchain.ram Sample.ownersCrypto).step (.addBlock Sample.paidBlock Sample.ownersClock)
      Sample.owners).2.getBalance Sample.address = .ok (0 + 11) := by
  have hspec := @Wallet.summary_forecasts Sample.ownersCrypto id Sample.wallet Sample.owners
    Sample.ownersSummary Sample.owners_reachable Sample.owners_summary
  rcases Sample.owners_contents with ⟨_, hpool, _⟩
  rcases Sample.owners_forecast with ⟨_, haccepted⟩
  apply hspec.right.right Sample.paidBlock Sample.ownersClock Sample.paidCoinbase
    [Sample.payment, Sample.later] rfl
  · rw [hpool]
  · decide +kernel
  · exact haccepted

end PyChain
