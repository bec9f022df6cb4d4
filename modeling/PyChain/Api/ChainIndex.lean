import Mathlib.Data.Finset.Card
import PyChain.Api.Explorer

/-!
# The index and the validator

The validator computed each fee against the outputs that were unspent at its turn.
The index computes it again from the outputs of the whole chain.  Outputs have
distinct outpoints, so both read the same ones.
-/

namespace PyChain

open Foundation
open OutputLedger (Replay)

namespace Api

section Index

variable [Crypto]

/-!
## Listed transactions
-/

omit [Crypto] in
theorem listed_perm (blocks : List Block) :
    (ChainView.listed blocks.zipIdx).Perm (chainHistory blocks) := by
  unfold ChainView.listed
  rw [numbered_transactions]
  exact chainTransactions_perm blocks

section Ledger

variable {blocks : List Block} {state : ChainState} {view : ChainView}

theorem listed_items_nodup (h : ChainLedger blocks state) :
    (((ChainView.listed blocks.zipIdx).flatMap UTXOSet.outputItems).map Prod.fst).Nodup := by
  have hkeys := OutputLedger.createdBy_keys_nodup h.freshIdents
  rw [createdBy_postings] at hkeys
  exact (((listed_perm blocks).flatMap_right _).map Prod.fst).nodup_iff.mpr hkeys

theorem listed_txids_nodup (h : ChainLedger blocks state) :
    ((ChainView.listed blocks.zipIdx).map Transaction.txid).Nodup :=
  ((listed_perm blocks).map Transaction.txid).nodup_iff.mpr h.txids_nodup

theorem outputs_get?_iff (h : ChainLedger blocks state)
    (hview : ChainView.Populated blocks view) (outpoint : OutPoint) (output : TxOutput) :
    view.outputsByOutpoint.get? outpoint = some output <->
      (outpoint, output) ∈ OutputLedger.createdBy (postings (chainHistory blocks)) := by
  rw [hview.outputs, Dict.get?_eq_some_iff,
    Dict.items_update_of_fresh _ _ (listed_items_nodup h) (fun _ _ hmem => by cases hmem),
    createdBy_postings]
  exact ((listed_perm blocks).flatMap_right UTXOSet.outputItems).mem_iff

theorem outputs_eq_source (h : ChainLedger blocks state)
    (hview : ChainView.Populated blocks view) (outpoint : OutPoint) :
    view.outputsByOutpoint.get? outpoint =
      OutputLedger.source Dict.empty (postings (chainHistory blocks)) outpoint := by
  apply Option.ext
  intro output
  rw [outputs_get?_iff h hview]
  constructor
  · intro hmem
    exact OutputLedger.source_of_created h.freshIdents hmem
  · intro hsource
    unfold OutputLedger.source at hsource
    rw [Dict.get?_empty, Option.none_or] at hsource
    exact Dict.mem_of_lookup_eq_some hsource

theorem mem_locations {items : List (Block × Nat)} {txid : Str}
    {location : Nat × Str × Transaction} :
    (txid, location) ∈ ChainView.locations items <->
      exists block transaction, (block, location.1) ∈ items ∧
        transaction ∈ block.transactions ∧ txid = transaction.txid ∧
        location = (location.1, block.hash, transaction) := by
  unfold ChainView.locations
  simp only [List.mem_flatMap, List.mem_map, Prod.exists]
  constructor
  · rintro ⟨block, height, hitem, transaction, htransaction, heq⟩
    cases heq
    exact ⟨block, transaction, hitem, htransaction, rfl, rfl⟩
  · rintro ⟨block, transaction, hitem, htransaction, rfl, hlocation⟩
    exact ⟨block, location.1, hitem, transaction, htransaction, by rw [← hlocation]⟩

theorem locations_keys (items : List (Block × Nat)) :
    (ChainView.locations items).map Prod.fst =
      (ChainView.listed items).map Transaction.txid := by
  unfold ChainView.locations ChainView.listed
  rw [List.map_flatMap, List.map_flatMap]
  apply List.flatMap_congr
  intro item _
  rw [List.map_map]
  rfl

theorem txById_get?_iff (h : ChainLedger blocks state)
    (hview : ChainView.Populated blocks view) (txid : Str)
    (location : Nat × Str × Transaction) :
    view.txById.get? txid = some location <->
      exists block, blocks[location.1]? = some block ∧
        location.2.2 ∈ block.transactions ∧ txid = location.2.2.txid ∧
        location.2.1 = block.hash := by
  have hkeys : ((ChainView.locations blocks.zipIdx).map Prod.fst).Nodup := by
    rw [locations_keys]
    exact listed_txids_nodup h
  rw [hview.txById, Dict.get?_eq_some_iff,
    Dict.items_update_of_fresh _ _ hkeys (fun _ _ hmem => by cases hmem)]
  change (txid, location) ∈ [] ++ ChainView.locations blocks.zipIdx <-> _
  rw [List.nil_append, mem_locations]
  rcases location with ⟨height, blockHash, transaction⟩
  constructor
  · rintro ⟨block, other, hitem, htransaction, htxid, heq⟩
    cases heq
    exact ⟨block, List.mk_mem_zipIdx_iff_getElem?.mp hitem, htransaction, htxid, rfl⟩
  · rintro ⟨block, hblock, htransaction, htxid, hhash⟩
    simp only at hblock htransaction htxid hhash
    refine ⟨block, transaction, List.mk_mem_zipIdx_iff_getElem?.mpr hblock, htransaction,
      htxid, ?_⟩
    rw [hhash]

theorem txFees_get? (h : ChainLedger blocks state)
    (hview : ChainView.Populated blocks view) {transaction : Transaction}
    (hmem : transaction ∈ chainHistory blocks) :
    view.txFees.get? transaction.txid =
      some (ChainView.clampedFee view.outputsByOutpoint transaction) := by
  have hkeys : (((ChainView.listed blocks.zipIdx).map (fun transaction =>
      (transaction.txid,
        ChainView.clampedFee view.outputsByOutpoint transaction))).map Prod.fst).Nodup := by
    rw [List.map_map]
    exact listed_txids_nodup h
  rw [hview.txFees, Dict.get?_eq_some_iff,
    Dict.items_update_of_fresh _ _ hkeys (fun _ _ hmem => by cases hmem)]
  exact List.mem_append_right _
    (List.mem_map_of_mem ((listed_perm blocks).mem_iff.mpr hmem))

/-!
## Fees
-/

omit [Crypto] in
theorem sum_spentOutputs (weight : TxOutput -> Int) (outputs : UTXOSet)
    (transaction : Transaction) :
    ((ChainView.spentOutputs outputs transaction).map weight).sum =
      (transaction.spentOutpoints.map (outputs.weightAt weight)).sum := by
  unfold ChainView.spentOutputs Transaction.spentOutpoints
  induction transaction.inputs with
  | nil => rfl
  | cons input rest ih =>
      rw [List.map_cons, List.map_cons, List.sum_cons, ← ih]
      cases hget : outputs.get? input.outpoint with
      | none =>
          simp only [List.filterMap_cons, hget, Dict.weightAt, Option.map_none,
            Option.getD_none, Int.zero_add]
      | some output =>
          simp only [List.filterMap_cons, hget, List.map_cons, List.sum_cons,
            Dict.weightAt_of_get? weight hget]

/-- A transaction at its place in the history of a chain, accepted by the set that the
history before it leaves. -/
structure ConfirmedAt (blocks : List Block) (transaction : Transaction) (working : UTXOSet)
    (fee : Int) : Prop where
  place : exists front back, chainHistory blocks = front ++ transaction :: back ∧
    Replay Dict.empty (postings front) working
  accepted : Accepted transaction working fee

theorem ConfirmedAt.reads {transaction : Transaction} {working : UTXOSet} {fee : Int}
    (hat : ConfirmedAt blocks transaction working fee) (h : ChainLedger blocks state)
    (hview : ChainView.Populated blocks view) {outpoint : OutPoint}
    (hspent : outpoint ∈ transaction.spentOutpoints) :
    exists output, working.get? outpoint = some output ∧
      view.outputsByOutpoint.get? outpoint = some output := by
  rcases hat.place with ⟨front, back, hplace, hreplay⟩
  rcases Dict.exists_get?_of_mem_keys (hat.accepted.spends_present hspent) with
    ⟨output, houtput⟩
  have hpostings : postings (chainHistory blocks) =
      postings front ++ postings (transaction :: back) := by
    rw [hplace]
    unfold postings
    rw [List.map_append]
  have hfresh := h.freshIdents
  rw [hpostings] at hfresh
  have hexact := OutputLedger.replay_exact hfresh.of_append_left hreplay
  refine ⟨output, houtput, ?_⟩
  rw [outputs_eq_source h hview, hpostings]
  exact OutputLedger.source_append
    (OutputLedger.source_of_get? hfresh.of_append_left hexact houtput)

theorem ConfirmedAt.fee_eq {transaction : Transaction} {working : UTXOSet} {fee : Int}
    (hat : ConfirmedAt blocks transaction working fee) (h : ChainLedger blocks state)
    (hview : ChainView.Populated blocks view) :
    ChainView.inAmount view.outputsByOutpoint transaction -
          ChainView.outAmount transaction = fee ∧
      ChainView.clampedFee view.outputsByOutpoint transaction = fee := by
  have hsame : transaction.spentOutpoints.map
        (view.outputsByOutpoint.weightAt TxOutput.amount) =
      transaction.spentOutpoints.map (working.weightAt TxOutput.amount) := by
    apply List.map_congr_left
    intro outpoint hspent
    rcases hat.reads h hview hspent with ⟨output, hworking, hindex⟩
    rw [Dict.weightAt_of_get? TxOutput.amount hworking,
      Dict.weightAt_of_get? TxOutput.amount hindex]
  have hdifference : ChainView.inAmount view.outputsByOutpoint transaction -
      ChainView.outAmount transaction = fee := by
    unfold ChainView.inAmount ChainView.outAmount
    rw [sum_spentOutputs, hsame, hat.accepted.fee_eq]
    rfl
  refine ⟨hdifference, ?_⟩
  have hinputs : ¬ transaction.inputs.isEmpty = true := by
    simpa using hat.accepted.inputs_ne_nil
  have hnonneg := hat.accepted.fee_nonneg
  unfold ChainView.clampedFee
  rw [if_neg hinputs, hdifference]
  omega

end Ledger

/-- The fee that `calculate_transaction_fee` computes for a transaction of a block, when
the blocks before it and the earlier transactions of its block are processed. -/
def confirmationFee (before : List Block) (earlier : List Transaction)
    (transaction : Transaction) : Except PyError Int := do
  let parent <- chainFees before
  let working <- earlier.foldlM recordFee ([], parent.2)
  calculateTransactionFee transaction working.2

omit [Crypto] in
theorem chainHistory_split {blocks before after : List Block} {block : Block}
    {coinbase transaction : Transaction} {xs ys : List Transaction}
    (hblocks : blocks = before ++ block :: after)
    (hbody : block.transactions = coinbase :: (xs ++ transaction :: ys)) :
    chainHistory blocks =
      (chainHistory before ++ xs) ++ transaction :: (ys ++ coinbase :: chainHistory after) := by
  have horder : block.ledgerOrder = (xs ++ transaction :: ys) ++ [coinbase] := by
    unfold Block.ledgerOrder
    rw [hbody]
  rw [hblocks, chainHistory_append]
  unfold chainHistory
  rw [List.flatMap_cons, horder]
  simp

theorem confirmedAt_of_applied {blocks before after : List Block} {block previous : Block}
    {parent next : ChainState} {coinbase transaction : Transaction}
    {xs ys : List Transaction} {fees : List Int} {final : UTXOSet}
    (hblocks : blocks = before ++ block :: after)
    (hparent : ValidChain before previous parent)
    (happlied : BlockApplied block parent coinbase (xs ++ transaction :: ys) fees final next) :
    exists working fee, fees[xs.length]? = some fee ∧
      Replay parent.utxoSet (postings xs) working ∧
      ConfirmedAt blocks transaction working fee := by
  rcases happlied.processes.accepted_at xs transaction ys rfl with
    ⟨working, fee, hfee, hreplay, haccepted, _⟩
  refine ⟨working, fee, hfee, hreplay, ⟨_, _, chainHistory_split hblocks happlied.transactions,
    ?_⟩, haccepted⟩
  unfold postings
  rw [List.map_append]
  exact OutputLedger.replay_append hparent.ledger.replay hreplay

theorem confirmedAt_of_place {blocks before after : List Block} {block tip : Block}
    {state : ChainState} (h : ValidChain blocks tip state)
    (hblocks : blocks = before ++ block :: after) {coinbase transaction : Transaction}
    {xs ys : List Transaction}
    (hbody : block.transactions = coinbase :: (xs ++ transaction :: ys)) :
    exists working fee, ConfirmedAt blocks transaction working fee ∧
      confirmationFee before xs transaction = .ok fee := by
  rcases h.block_inv hblocks (by rw [hbody]; simp) with
    ⟨previous, parent, next, coinbase', regular, fees, final, hparent, happlied⟩
  have hparts := happlied.transactions
  rw [hbody] at hparts
  rcases List.cons.inj hparts with ⟨hcoinbase, hregular⟩
  subst hcoinbase
  subst hregular
  rcases confirmedAt_of_applied hblocks hparent happlied with
    ⟨working, fee, hfee, hreplay, hat⟩
  rcases hparent.supply with ⟨collected, hcollected, _, _⟩
  have hlength : xs.length < fees.length := (List.getElem?_eq_some_iff.mp hfee).choose
  have hprocesses := happlied.processes
  rw [← List.take_append_drop xs.length fees] at hprocesses
  rcases hprocesses.append_split (by rw [List.length_take]; omega) with ⟨mid, hxs, _⟩
  have hmid : mid = working := OutputLedger.replay_deterministic hxs.replay hreplay
  subst hmid
  refine ⟨mid, fee, hat, ?_⟩
  unfold confirmationFee
  rw [hcollected]
  apply bind_eq_ok_iff.mpr
  refine ⟨_, rfl, ?_⟩
  apply bind_eq_ok_iff.mpr
  exact ⟨_, hxs.recordFee_fold [],
    (calculateTransactionFee_eq_ok_iff _ _ _).mpr hat.accepted⟩

/-!
## Block details
-/

theorem detail_totalFees (view : ChainView) (items : List (Transaction × Nat)) :
    forall detail : BlockDetail, (forall item, item ∈ items -> item.2 ≠ 0) ->
      (items.foldl (detailTransaction view) detail).totalFees =
        detail.totalFees +
          (items.map (fun item => enrichedFee view item.1 none)).sum := by
  induction items with
  | nil =>
      intro detail _
      exact (Int.add_zero _).symm
  | cons item rest ih =>
      intro detail hindices
      rw [List.foldl_cons, ih _ (fun other hother =>
        hindices other (List.mem_cons_of_mem _ hother)), List.map_cons, List.sum_cons]
      have hindex := hindices item List.mem_cons_self
      unfold detailTransaction
      simp only [hindex, false_and, if_false]
      unfold enrichTransaction
      simp only
      omega

theorem formatBlockDetail_totalFees {block : Block} {coinbase : Transaction}
    {regular : List Transaction} (hbody : block.transactions = coinbase :: regular)
    (hcoinbase : coinbase.inputs = []) (height : Nat) (view : ChainView) :
    (formatBlockDetail block height view).totalFees =
      (regular.map (fun transaction => enrichedFee view transaction none)).sum := by
  have hrest : forall item, item ∈ regular.zipIdx 1 -> item.2 ≠ 0 := by
    intro item hitem
    have hbound := List.le_snd_of_mem_zipIdx hitem
    omega
  unfold formatBlockDetail
  rw [hbody, List.zipIdx_cons, List.foldl_cons, detail_totalFees view _ _ hrest]
  unfold detailTransaction enrichTransaction
  simp only [hcoinbase, List.isEmpty_nil, and_self, if_true, Int.zero_add]
  rw [← List.zipIdx_map_fst 1 regular, List.map_map]
  simp only [List.zipIdx_map_fst]
  rfl

/-- The index agrees with the rebuilt state of a list of blocks. -/
structure IndexAgrees (blocks : List Block) (state : ChainState) (view : ChainView) :
    Prop where
  resolves : forall block, block ∈ blocks -> forall transaction,
    transaction ∈ block.transactions -> forall input, input ∈ transaction.inputs ->
      exists output, view.outputsByOutpoint.get? input.outpoint = some output
  fees : forall before block after coinbase xs transaction ys,
    blocks = before ++ block :: after ->
    block.transactions = coinbase :: (xs ++ transaction :: ys) ->
    exists fee, confirmationFee before xs transaction = .ok fee ∧
      view.txFees.get? transaction.txid = some fee ∧
      fee = ChainView.inAmount view.outputsByOutpoint transaction -
        ChainView.outAmount transaction
  reward : forall (height : Nat) block coinbase regular, blocks[height]? = some block ->
    block.transactions = coinbase :: regular ->
    (coinbase.outputs.map TxOutput.amount).sum ≤
      BLOCK_SUBSIDY + (formatBlockDetail block height view).totalFees
  located : forall txid (location : Nat × Str × Transaction),
    view.txById.get? txid = some location <->
      exists block, blocks[location.1]? = some block ∧
        location.2.2 ∈ block.transactions ∧ txid = location.2.2.txid ∧
        location.2.1 = block.hash
  total : view.totalConfirmedTransactions = state.seenTxids.card

theorem enrichedFee_confirmed {blocks : List Block} {state : ChainState} {view : ChainView}
    (h : ChainLedger blocks state) (hview : ChainView.Populated blocks view)
    {transaction : Transaction} {working : UTXOSet} {fee : Int}
    (hat : ConfirmedAt blocks transaction working fee)
    (hmem : transaction ∈ chainHistory blocks) :
    enrichedFee view transaction none = fee := by
  have hinputs : ¬ transaction.inputs.isEmpty = true := by
    simpa using hat.accepted.inputs_ne_nil
  unfold enrichedFee
  simp only [if_neg hinputs, txFees_get? h hview hmem]
  exact (hat.fee_eq h hview).right

theorem enrichedFees_eq {blocks before after : List Block} {block previous tip : Block}
    {state parent next : ChainState} {view : ChainView} {coinbase : Transaction}
    {regular : List Transaction} {fees : List Int} {final : UTXOSet}
    (hvalid : ValidChain blocks tip state) (hview : ChainView.Populated blocks view)
    (hblocks : blocks = before ++ block :: after)
    (hparent : ValidChain before previous parent)
    (happlied : BlockApplied block parent coinbase regular fees final next) :
    regular.map (fun transaction => enrichedFee view transaction none) = fees := by
  have hlength := happlied.processes.length_fees
  apply List.ext_getElem?
  intro i
  rw [List.getElem?_map]
  cases hget : regular[i]? with
  | none =>
      rw [List.getElem?_eq_none_iff] at hget
      exact (List.getElem?_eq_none_iff.mpr (by omega)).symm
  | some transaction =>
      rcases List.getElem?_eq_some_iff.mp hget with ⟨hlt, htransaction⟩
      have hsplit : regular = regular.take i ++ transaction :: regular.drop (i + 1) := by
        rw [← htransaction, List.getElem_cons_drop, List.take_append_drop]
      rw [hsplit] at happlied
      rcases confirmedAt_of_applied hblocks hparent happlied with
        ⟨working, fee, hfee, _, hat⟩
      rw [List.length_take, Nat.min_eq_left (Nat.le_of_lt hlt)] at hfee
      have hmem : transaction ∈ chainHistory blocks := by
        rw [chainHistory_split hblocks happlied.transactions]
        simp
      rw [hfee, Option.map_some, enrichedFee_confirmed hvalid.ledger hview hat hmem]

theorem confirmedAt_of_mem {blocks : List Block} {tip : Block} {state : ChainState}
    (h : ValidChain blocks tip state) {transaction : Transaction}
    (hmem : transaction ∈ chainHistory blocks) :
    transaction.inputs = [] ∨
      exists working fee, ConfirmedAt blocks transaction working fee := by
  rcases (mem_chainHistory _ _).mp hmem with ⟨block, hblock, htransaction⟩
  rcases List.append_of_mem hblock with ⟨before, after, hblocks⟩
  rcases h.block_inv hblocks (List.ne_nil_of_mem htransaction) with
    ⟨previous, parent, next, coinbase, regular, fees, final, hparent, happlied⟩
  rw [happlied.transactions] at htransaction
  rcases List.mem_cons.mp htransaction with hcoinbase | hregular
  · rw [hcoinbase]
    exact Or.inl happlied.coinbase_inputs
  · rcases List.append_of_mem hregular with ⟨xs, ys, hsplit⟩
    subst hsplit
    rcases confirmedAt_of_applied hblocks hparent happlied with
      ⟨working, fee, _, _, hat⟩
    exact Or.inr ⟨working, fee, hat⟩

theorem resolves_of_mem {blocks : List Block} {tip : Block} {state : ChainState}
    {view : ChainView} (h : ValidChain blocks tip state)
    (hview : ChainView.Populated blocks view) {transaction : Transaction}
    (hmem : transaction ∈ chainHistory blocks) {input : TxInput}
    (hinput : input ∈ transaction.inputs) :
    exists output, view.outputsByOutpoint.get? input.outpoint = some output := by
  rcases confirmedAt_of_mem h hmem with hnil | ⟨working, fee, hat⟩
  · rw [hnil] at hinput
    cases hinput
  · rcases hat.reads h.ledger hview (List.mem_map_of_mem hinput) with ⟨output, _, houtput⟩
    exact ⟨output, houtput⟩

theorem reward_le_shown {blocks : List Block} {tip : Block} {state : ChainState}
    {view : ChainView} (h : ValidChain blocks tip state)
    (hview : ChainView.Populated blocks view) {height : Nat} {block : Block}
    {coinbase : Transaction} {regular : List Transaction} (hblock : blocks[height]? = some block)
    (hbody : block.transactions = coinbase :: regular) :
    (coinbase.outputs.map TxOutput.amount).sum ≤
      BLOCK_SUBSIDY + (formatBlockDetail block height view).totalFees := by
  rcases List.append_of_mem (List.mem_of_getElem? hblock) with ⟨before, after, hblocks⟩
  rcases h.block_inv hblocks (by rw [hbody]; simp) with
    ⟨previous, parent, next, coinbase', regular', fees, final, hparent, happlied⟩
  have hparts := happlied.transactions
  rw [hbody] at hparts
  rcases List.cons.inj hparts with ⟨hcoinbase, hregular⟩
  subst hcoinbase
  subst hregular
  rcases happlied.coinbase_amount with ⟨output, houtputs, _, hcap⟩
  rw [formatBlockDetail_totalFees hbody happlied.coinbase_inputs,
    enrichedFees_eq h hview hblocks hparent happlied, houtputs]
  simpa using hcap

theorem total_eq_card {blocks : List Block} {state : ChainState} {view : ChainView}
    (h : ChainLedger blocks state) (hview : ChainView.Populated blocks view) :
    view.totalConfirmedTransactions = state.seenTxids.card := by
  have hseen : state.seenTxids = ((chainHistory blocks).map Transaction.txid).toFinset := by
    rw [h.seen]
    unfold seenAfter
    rw [Finset.empty_union]
  rw [hview.total, hseen, List.toFinset_card_of_nodup h.txids_nodup, List.length_map]
  exact (listed_perm blocks).length_eq

/-- The explorer agrees with the validator on every chain that can be rebuilt. -/
theorem populate_index_agrees {blocks : List Block} {clock : Clock} {state : ChainState}
    (h : rebuildChainState blocks clock = .ok (some state)) (tipHeight : Int)
    (tipHash : Str) :
    IndexAgrees blocks state ((ChainView.new tipHeight tipHash).populate blocks) := by
  rcases (rebuildChainState_eq_ok_some_iff _ _ _).mp h with ⟨now, tip, _, hvalid, _⟩
  have hview := ChainView.populate_populated blocks tipHeight tipHash
  constructor
  case resolves =>
    intro block hblock transaction htransaction input hinput
    exact resolves_of_mem hvalid hview
      ((mem_chainHistory _ _).mpr ⟨block, hblock, htransaction⟩) hinput
  case fees =>
    intro before block after coinbase xs transaction ys hblocks hbody
    rcases confirmedAt_of_place hvalid hblocks hbody with ⟨working, fee, hat, hfee⟩
    rcases hat.fee_eq hvalid.ledger hview with ⟨hdifference, hclamped⟩
    have hmem : transaction ∈ chainHistory blocks := by
      rw [chainHistory_split hblocks hbody]
      simp
    refine ⟨fee, hfee, ?_, hdifference.symm⟩
    rw [txFees_get? hvalid.ledger hview hmem, hclamped]
  case reward =>
    intro height block coinbase regular hblock hbody
    exact reward_le_shown hvalid hview hblock hbody
  case located =>
    intro txid location
    exact txById_get?_iff hvalid.ledger hview txid location
  case total =>
    exact total_eq_card hvalid.ledger hview

end Index

/-- The index of the chain on which two owners spend together. -/
theorem populate_index_agrees_sample :
    exists blocks state, blocks = Sample.jointly.blocks ∧ blocks.length = 4 ∧
      @IndexAgrees Sample.ownersCrypto blocks state
        (@ChainView.populate Sample.ownersCrypto (ChainView.new 3 Sample.jointHash) blocks) := by
  refine ⟨Sample.jointly.blocks, Sample.jointly.state, rfl, ?_, ?_⟩
  · rw [Sample.jointly_contents.left]
    rfl
  · exact @populate_index_agrees Sample.ownersCrypto _ _ _ Sample.jointly_rebuilt 3
      Sample.jointHash

end Api

end PyChain
