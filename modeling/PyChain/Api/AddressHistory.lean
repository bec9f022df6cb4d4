import Mathlib.Algebra.BigOperators.Group.List.Basic
import Mathlib.Algebra.Order.BigOperators.Group.List
import Mathlib.Algebra.Order.Group.Int
import PyChain.Api.ChainIndex

/-!
# Address histories and balances

Each confirmed transaction leaves at most one record with an address.  A record of a
sender counts the whole transaction, whoever paid for it, so the records add up to the
balance only as long as the address shares no transaction with another owner.
-/

namespace PyChain

open Foundation
open OutputLedger (Replay)

namespace Api

/-- What a record adds to the balance of its address. -/
def HistoryRecord.relativeAmount (record : HistoryRecord) : Int :=
  if record.direction = .sent then - (record.amount + record.fee) else record.amount

/-- The amounts of the mined and received records, less the amounts and fees of the sent
ones. -/
def historyBalance (records : List HistoryRecord) : Int :=
  ((records.filter (fun record => record.direction ≠ .sent)).map HistoryRecord.amount).sum -
    ((records.filter (fun record => record.direction = .sent)).map
      (fun record => record.amount + record.fee)).sum

theorem historyBalance_eq (records : List HistoryRecord) :
    historyBalance records = (records.map HistoryRecord.relativeAmount).sum := by
  unfold historyBalance
  induction records with
  | nil => rfl
  | cons record rest ih =>
      rw [List.map_cons, List.sum_cons, ← ih]
      unfold HistoryRecord.relativeAmount
      by_cases h : record.direction = .sent
      · simp only [h, ne_eq, not_true_eq_false, decide_false, Bool.false_eq_true,
          not_false_eq_true, List.filter_cons_of_neg, decide_true, List.filter_cons_of_pos,
          List.map_cons, List.sum_cons, if_true]
        omega
      · simp only [h, ne_eq, not_false_eq_true, decide_true, List.filter_cons_of_pos,
          List.map_cons, List.sum_cons, decide_false, Bool.false_eq_true,
          List.filter_cons_of_neg, if_false]
        omega

theorem amountPaid_split (address : Str) (outputs : List TxOutput) :
    amountPaidTo address outputs + amountPaidPast address outputs =
      (outputs.map TxOutput.amount).sum := by
  unfold amountPaidTo amountPaidPast
  induction outputs with
  | nil => rfl
  | cons output rest ih =>
      rw [List.map_cons, List.sum_cons, ← ih]
      by_cases h : output.recipientAddress = address
      · simp [h, Int.add_assoc]
      · simp [h]
        omega

theorem amountPaidTo_eq_zero {address : Str} {outputs : List TxOutput}
    (h : address ∉ outputs.map TxOutput.recipientAddress) : amountPaidTo address outputs = 0 := by
  have hnil : outputs.filter (fun output => output.recipientAddress = address) = [] := by
    rw [List.filter_eq_nil_iff]
    intro output houtput hpays
    apply h
    rw [← of_decide_eq_true hpays]
    exact List.mem_map_of_mem houtput
  unfold amountPaidTo
  rw [hnil]
  rfl

theorem amountPaidPast_eq_zero_iff (address : Str) {outputs : List TxOutput}
    (hpositive : forall output, output ∈ outputs -> 0 < output.amount) :
    0 ≤ amountPaidPast address outputs ∧
      (amountPaidPast address outputs = 0 <->
        forall output, output ∈ outputs -> output.recipientAddress = address) := by
  unfold amountPaidPast
  induction outputs with
  | nil => simp
  | cons output rest ih =>
      rcases ih (fun other hother => hpositive other (List.mem_cons_of_mem _ hother)) with
        ⟨hnonneg, hzero⟩
      have hamount := hpositive output List.mem_cons_self
      by_cases h : output.recipientAddress = address
      · rw [List.filter_cons_of_neg (by simpa using h), List.forall_mem_cons, hzero]
        exact ⟨hnonneg, fun hrest => ⟨h, hrest⟩, fun hall => hall.right⟩
      · rw [List.filter_cons_of_pos (by simpa using h), List.map_cons, List.sum_cons,
          List.forall_mem_cons]
        refine ⟨by omega, fun hsum => ?_, fun hall => absurd hall.left h⟩
        omega

section Records

variable [Crypto]

/-!
## The records of one transaction
-/

theorem valuesOf_recipientRecords (height : Nat) (transaction : Transaction)
    (direction : Direction) (fee : Int) (outputs : List TxOutput) (address : Str) :
    Dict.valuesOf (ChainView.recipientRecords height transaction direction fee outputs)
        address =
      if address ∈ outputs.map TxOutput.recipientAddress then
        [ChainView.confirmedRecord height transaction direction
          (amountPaidTo address outputs) fee]
      else [] := by
  unfold ChainView.recipientRecords
  rw [Dict.valuesOf_map_items _
      (fun amount => ChainView.confirmedRecord height transaction direction amount fee),
    Dict.get?_tally, List.map_map, Dict.valuesOf_map]
  by_cases h : address ∈ outputs.map TxOutput.recipientAddress
  · rw [if_pos h, if_pos (by exact h)]
    rfl
  · rw [if_neg h, if_neg (by exact h)]
    rfl

theorem valuesOf_recordsOf (outputs : UTXOSet) (height : Nat) (transaction : Transaction)
    (address : Str) :
    Dict.valuesOf (ChainView.recordsOf outputs height transaction) address =
      if transaction.inputs.isEmpty = true then
        if address ∈ transaction.outputs.map TxOutput.recipientAddress then
          [ChainView.confirmedRecord height transaction .mined
            (amountPaidTo address transaction.outputs) 0]
        else []
      else if address ∈ ChainView.senderAddresses outputs transaction then
        [ChainView.confirmedRecord height transaction .sent
          (amountPaidPast address transaction.outputs)
          (ChainView.clampedFee outputs transaction)]
      else if address ∈ transaction.outputs.map TxOutput.recipientAddress then
        [ChainView.confirmedRecord height transaction .received
          (amountPaidTo address transaction.outputs)
          (ChainView.clampedFee outputs transaction)]
      else [] := by
  unfold ChainView.recordsOf
  by_cases hempty : transaction.inputs.isEmpty = true
  · rw [if_pos hempty, if_pos hempty]
    exact valuesOf_recipientRecords height transaction .mined 0 transaction.outputs address
  · rw [if_neg hempty, if_neg hempty]
    have hsenders : (ChainView.senderAddresses outputs transaction).Nodup :=
      List.nodup_dedup _
    unfold ChainView.movedRecords
    rw [Dict.valuesOf_append, valuesOf_recipientRecords, Dict.valuesOf_map_keys hsenders]
    by_cases hsender : address ∈ ChainView.senderAddresses outputs transaction
    · have hnone : address ∉ (transaction.outputs.filter (fun output =>
          output.recipientAddress ∉ ChainView.senderAddresses outputs transaction)).map
            TxOutput.recipientAddress := by
        intro hmem
        rcases List.mem_map.mp hmem with ⟨output, houtput, hpays⟩
        rw [List.mem_filter, hpays] at houtput
        exact of_decide_eq_true houtput.right hsender
      rw [if_pos hsender, if_neg hnone, if_pos hsender]
      rfl
    · have hfilter : (transaction.outputs.filter (fun output =>
          output.recipientAddress ∉ ChainView.senderAddresses outputs transaction)).filter
            (fun output => output.recipientAddress = address) =
          transaction.outputs.filter (fun output => output.recipientAddress = address) := by
        rw [List.filter_filter]
        apply List.filter_congr
        intro output _
        by_cases hpays : output.recipientAddress = address
        · simp [hpays, hsender]
        · simp [hpays]
      have hpaid : amountPaidTo address (transaction.outputs.filter (fun output =>
          output.recipientAddress ∉ ChainView.senderAddresses outputs transaction)) =
          amountPaidTo address transaction.outputs := by
        unfold amountPaidTo
        rw [hfilter]
      have hmem : (address ∈ (transaction.outputs.filter (fun output =>
          output.recipientAddress ∉ ChainView.senderAddresses outputs transaction)).map
            TxOutput.recipientAddress) =
          (address ∈ transaction.outputs.map TxOutput.recipientAddress) := by
        apply propext
        simp only [List.mem_map, List.mem_filter, decide_eq_true_eq]
        constructor
        · rintro ⟨output, ⟨houtput, _⟩, hpays⟩
          exact ⟨output, houtput, hpays⟩
        · rintro ⟨output, houtput, hpays⟩
          exact ⟨output, ⟨houtput, by rw [hpays]; exact hsender⟩, hpays⟩
      rw [if_neg hsender, if_neg hsender, hpaid, List.nil_append]
      simp only [hmem]

theorem recordsOf_txid (outputs : UTXOSet) (height : Nat) (transaction : Transaction)
    (address : Str) :
    ((Dict.valuesOf (ChainView.recordsOf outputs height transaction) address).map
      HistoryRecord.txid).Sublist [transaction.txid] := by
  rw [valuesOf_recordsOf]
  split
  · split
    · exact List.Sublist.refl _
    · exact List.nil_sublist _
  · split
    · exact List.Sublist.refl _
    · split
      · exact List.Sublist.refl _
      · exact List.nil_sublist _

omit [Crypto] in
theorem mem_senderAddresses {outputs : UTXOSet} {transaction : Transaction} {address : Str} :
    address ∈ ChainView.senderAddresses outputs transaction <->
      address ∈ (ChainView.spentOutputs outputs transaction).map TxOutput.recipientAddress := by
  unfold ChainView.senderAddresses
  exact List.mem_dedup

omit [Crypto] in
/-- What other owners put into a transaction that an address shares with them. -/
def sharedInputs (outputs : UTXOSet) (address : Str) (transaction : Transaction) : Int :=
  if address ∈ ChainView.senderAddresses outputs transaction then
    amountPaidPast address (ChainView.spentOutputs outputs transaction)
  else 0

theorem relativeAmount_recordsOf (outputs : UTXOSet) (height : Nat)
    (transaction : Transaction) (address : Str)
    (hfee : transaction.inputs ≠ [] -> ChainView.clampedFee outputs transaction =
      ChainView.inAmount outputs transaction - ChainView.outAmount transaction) :
    amountPaidTo address transaction.outputs =
      ((Dict.valuesOf (ChainView.recordsOf outputs height transaction) address).map
          HistoryRecord.relativeAmount).sum +
        (sharedInputs outputs address transaction +
          amountPaidTo address (ChainView.spentOutputs outputs transaction)) := by
  have hout := amountPaid_split address transaction.outputs
  have hin := amountPaid_split address (ChainView.spentOutputs outputs transaction)
  have hunpaid : address ∉ transaction.outputs.map TxOutput.recipientAddress ->
      amountPaidTo address transaction.outputs = 0 := amountPaidTo_eq_zero
  have hnothing : address ∉ ChainView.senderAddresses outputs transaction ->
      amountPaidTo address (ChainView.spentOutputs outputs transaction) = 0 := by
    rw [mem_senderAddresses]
    exact amountPaidTo_eq_zero
  rw [valuesOf_recordsOf]
  unfold sharedInputs
  by_cases hempty : transaction.inputs.isEmpty = true
  · have hnil : transaction.inputs = [] := List.isEmpty_iff.mp hempty
    have hsender : address ∉ ChainView.senderAddresses outputs transaction := by
      simp [ChainView.senderAddresses, ChainView.spentOutputs, hnil]
    rw [if_pos hempty, if_neg hsender, hnothing hsender]
    by_cases hpaid : address ∈ transaction.outputs.map TxOutput.recipientAddress
    · rw [if_pos hpaid]
      simp [HistoryRecord.relativeAmount, ChainView.confirmedRecord]
    · rw [if_neg hpaid, hunpaid hpaid]
      rfl
  · have hclamped := hfee (fun hnil => hempty (List.isEmpty_iff.mpr hnil))
    unfold ChainView.inAmount ChainView.outAmount at hclamped
    rw [if_neg hempty]
    by_cases hsender : address ∈ ChainView.senderAddresses outputs transaction
    · rw [if_pos hsender, if_pos hsender]
      simp only [HistoryRecord.relativeAmount, ChainView.confirmedRecord, List.map_cons,
        List.map_nil, List.sum_cons, List.sum_nil, if_true]
      omega
    · rw [if_neg hsender, if_neg hsender, hnothing hsender]
      by_cases hpaid : address ∈ transaction.outputs.map TxOutput.recipientAddress
      · rw [if_pos hpaid]
        simp [HistoryRecord.relativeAmount, ChainView.confirmedRecord]
      · rw [if_neg hpaid, hunpaid hpaid]
        rfl

/-!
## The records of a chain
-/

section Chain

variable {blocks : List Block} {state : ChainState} {view : ChainView}

theorem listAt_perm (hview : ChainView.Populated blocks view) (address : Str) :
    (view.addressHistory.listAt address).Perm
      (blocks.zipIdx.flatMap (fun item => item.1.transactions.flatMap (fun transaction =>
        Dict.valuesOf (ChainView.recordsOf view.outputsByOutpoint item.2 transaction)
          address))) := by
  refine (hview.addressHistory address).trans (List.Perm.of_eq ?_)
  unfold ChainView.blockRecords
  rw [Dict.valuesOf_flatMap]
  apply List.flatMap_congr
  intro item _
  exact Dict.valuesOf_flatMap _ _ _

theorem getBalance_add_spent (h : ChainLedger blocks state)
    (hview : ChainView.Populated blocks view) (address : Str) :
    state.utxoSet.getBalance address +
        ((chainHistory blocks).map (fun transaction => amountPaidTo address
          (ChainView.spentOutputs view.outputsByOutpoint transaction))).sum =
      ((chainHistory blocks).map
        (fun transaction => amountPaidTo address transaction.outputs)).sum := by
  have hsources := OutputLedger.replay_sources (amountTo address) h.freshIdents h.replay
  have hspent : ((OutputLedger.spentBy (postings (chainHistory blocks))).map
      (OutputLedger.sourceWeight (amountTo address) Dict.empty
        (postings (chainHistory blocks)))).sum =
      ((chainHistory blocks).map (fun transaction => amountPaidTo address
        (ChainView.spentOutputs view.outputsByOutpoint transaction))).sum := by
    rw [spentBy_postings, Dict.sum_flatMap]
    congr 1
    apply List.map_congr_left
    intro transaction _
    unfold amountPaidTo
    rw [sum_filter_amount, sum_spentOutputs]
    congr 1
    apply List.map_congr_left
    intro outpoint _
    unfold OutputLedger.sourceWeight Dict.weightAt
    rw [← outputs_eq_source h hview]
  have hcreated : ((OutputLedger.createdBy (postings (chainHistory blocks))).map
      (fun entry => amountTo address entry.2)).sum =
      ((chainHistory blocks).map
        (fun transaction => amountPaidTo address transaction.outputs)).sum := by
    rw [createdBy_postings, Dict.sum_flatMap]
    congr 1
    apply List.map_congr_left
    intro transaction _
    unfold amountPaidTo
    rw [sum_filter_amount, ← UTXOSet.posting_created, Posting.created_weights]
    rfl
  have hempty : (Dict.empty : UTXOSet).total (amountTo address) = 0 := rfl
  rw [hspent, hcreated, hempty, Int.zero_add] at hsources
  rw [getBalance_eq_total]
  exact hsources

omit [Crypto] in
theorem mem_spentOutputs {outputs : UTXOSet} {transaction : Transaction} {output : TxOutput} :
    output ∈ ChainView.spentOutputs outputs transaction <->
      exists input, input ∈ transaction.inputs ∧ outputs.get? input.outpoint = some output := by
  unfold ChainView.spentOutputs
  exact List.mem_filterMap

theorem spentOutputs_positive (h : ChainLedger blocks state)
    (hview : ChainView.Populated blocks view) {transaction : Transaction} {working : UTXOSet}
    {fee : Int} (hat : ConfirmedAt blocks transaction working fee) {output : TxOutput}
    (hmem : output ∈ ChainView.spentOutputs view.outputsByOutpoint transaction) :
    0 < output.amount := by
  rcases mem_spentOutputs.mp hmem with ⟨input, hinput, houtput⟩
  rcases hat.reads h hview (List.mem_map_of_mem hinput) with ⟨found, hworking, hindex⟩
  rcases List.getElem?_of_mem hinput with ⟨i, hi⟩
  rcases hat.accepted.authorised i input hi with ⟨utxo, hutxo, hvalid, _⟩
  have hfound : found = output := Option.some.inj (hindex.symm.trans houtput)
  have hsame : utxo = output := by
    rw [← hfound]
    exact Option.some.inj (hutxo.symm.trans hworking)
  rw [hsame] at hvalid
  unfold isValidOutput at hvalid
  simp only [Bool.and_eq_true, decide_eq_true_eq] at hvalid
  exact hvalid.left

theorem sharedInputs_eq_zero_iff {tip : Block} (h : ValidChain blocks tip state)
    (hview : ChainView.Populated blocks view) {transaction : Transaction}
    (hmem : transaction ∈ chainHistory blocks) (address : Str) :
    0 ≤ sharedInputs view.outputsByOutpoint address transaction ∧
      (sharedInputs view.outputsByOutpoint address transaction = 0 <->
        (address ∈ ChainView.senderAddresses view.outputsByOutpoint transaction ->
          forall output,
            output ∈ ChainView.spentOutputs view.outputsByOutpoint transaction ->
              output.recipientAddress = address)) := by
  have hpositive : forall output,
      output ∈ ChainView.spentOutputs view.outputsByOutpoint transaction ->
        0 < output.amount := by
    intro output houtput
    rcases confirmedAt_of_mem h hmem with hnil | ⟨working, fee, hat⟩
    · rcases mem_spentOutputs.mp houtput with ⟨input, hinput, _⟩
      rw [hnil] at hinput
      cases hinput
    · exact spentOutputs_positive h.ledger hview hat houtput
  rcases amountPaidPast_eq_zero_iff address hpositive with ⟨hnonneg, hzero⟩
  unfold sharedInputs
  by_cases hsender : address ∈ ChainView.senderAddresses view.outputsByOutpoint transaction
  · rw [if_pos hsender, hzero]
    exact ⟨hnonneg, fun hall _ => hall, fun hall => hall hsender⟩
  · rw [if_neg hsender]
    exact ⟨Int.le_refl 0, fun _ hother => absurd hother hsender, fun _ => rfl⟩

/-- A balance exceeds its history by what others put into the transactions of the
address. -/
theorem getBalance_eq_history {tip : Block} (h : ValidChain blocks tip state)
    (hview : ChainView.Populated blocks view) (address : Str) :
    state.utxoSet.getBalance address =
      historyBalance (view.addressHistory.listAt address) +
        ((chainHistory blocks).map
          (sharedInputs view.outputsByOutpoint address)).sum := by
  let spent : Transaction -> Int := fun transaction =>
    amountPaidTo address (ChainView.spentOutputs view.outputsByOutpoint transaction)
  let shared : Transaction -> Int := sharedInputs view.outputsByOutpoint address
  let recorded : Transaction -> Int := fun transaction =>
    amountPaidTo address transaction.outputs - (shared transaction + spent transaction)
  have hrecords : forall (height : Nat) transaction, transaction ∈ chainHistory blocks ->
      ((Dict.valuesOf (ChainView.recordsOf view.outputsByOutpoint height transaction)
        address).map HistoryRecord.relativeAmount).sum = recorded transaction := by
    intro height transaction hmem
    have hrelative := relativeAmount_recordsOf view.outputsByOutpoint height transaction
      address (by
        intro hinputs
        rcases confirmedAt_of_mem h hmem with hnil | ⟨working, fee, hat⟩
        · exact absurd hnil hinputs
        · rcases hat.fee_eq h.ledger hview with ⟨hdifference, hclamped⟩
          rw [hclamped, hdifference])
    change _ = amountPaidTo address transaction.outputs - (_ + _)
    rw [hrelative]
    exact (Int.add_sub_cancel _ _).symm
  have hhistory : historyBalance (view.addressHistory.listAt address) =
      ((chainHistory blocks).map recorded).sum := by
    rw [historyBalance_eq, ((listAt_perm hview address).map _).sum_eq,
      ← ((listed_perm blocks).map recorded).sum_eq, Dict.sum_flatMap]
    unfold ChainView.listed
    rw [Dict.sum_flatMap]
    congr 1
    apply List.map_congr_left
    intro item hitem
    rw [Dict.sum_flatMap]
    congr 1
    apply List.map_congr_left
    intro transaction htransaction
    apply hrecords
    rw [mem_chainHistory]
    exact ⟨item.1, List.fst_mem_of_mem_zipIdx hitem, htransaction⟩
  have hpaid : ((chainHistory blocks).map
      (fun transaction => amountPaidTo address transaction.outputs)).sum =
      ((chainHistory blocks).map recorded).sum +
        (((chainHistory blocks).map shared).sum + ((chainHistory blocks).map spent).sum) := by
    rw [← List.sum_map_add, ← List.sum_map_add]
    congr 1
    apply List.map_congr_left
    intro transaction _
    exact (Int.sub_add_cancel _ _).symm
  have hbalance := getBalance_add_spent h.ledger hview address
  rw [hpaid] at hbalance
  rw [hhistory]
  change _ + ((chainHistory blocks).map spent).sum = _ at hbalance
  change _ = _ + ((chainHistory blocks).map shared).sum
  omega

theorem listAt_txids_nodup (h : ChainLedger blocks state)
    (hview : ChainView.Populated blocks view) (address : Str) :
    ((view.addressHistory.listAt address).map HistoryRecord.txid).Nodup := by
  rw [((listAt_perm hview address).map HistoryRecord.txid).nodup_iff]
  refine List.Sublist.nodup ?_ (listed_txids_nodup h)
  unfold ChainView.listed
  rw [List.map_flatMap, List.map_flatMap]
  apply Dict.flatMap_sublist
  intro item
  rw [List.map_flatMap, ← List.flatMap_singleton' (item.1.transactions.map Transaction.txid),
    List.flatMap_map]
  exact Dict.flatMap_sublist (fun transaction => recordsOf_txid _ _ transaction address) _

/-- An output that a transaction of the blocks made. -/
def MadeAt (blocks : List Block) (outpoint : OutPoint) (output : TxOutput) : Prop :=
  exists block transaction, block ∈ blocks ∧ transaction ∈ block.transactions ∧
    (outpoint, output) ∈ UTXOSet.outputItems transaction

/-- A transaction that spends an output of the address spends outputs of it only. -/
def SpendsAlone (blocks : List Block) (address : Str) : Prop :=
  forall block, block ∈ blocks -> forall transaction, transaction ∈ block.transactions ->
    forall input output, input ∈ transaction.inputs ->
      MadeAt blocks input.outpoint output -> output.recipientAddress = address ->
        forall input' output', input' ∈ transaction.inputs ->
          MadeAt blocks input'.outpoint output' -> output'.recipientAddress = address

theorem madeAt_iff (h : ChainLedger blocks state) (hview : ChainView.Populated blocks view)
    (outpoint : OutPoint) (output : TxOutput) :
    MadeAt blocks outpoint output <->
      view.outputsByOutpoint.get? outpoint = some output := by
  rw [outputs_get?_iff h hview, mem_createdBy_iff]
  unfold MadeAt
  simp only [mem_chainHistory]
  constructor
  · rintro ⟨block, transaction, hblock, htransaction, hitem⟩
    exact ⟨transaction, ⟨block, hblock, htransaction⟩, hitem⟩
  · rintro ⟨transaction, ⟨block, hblock, htransaction⟩, hitem⟩
    exact ⟨block, transaction, hblock, htransaction, hitem⟩

theorem spendsAlone_iff (h : ChainLedger blocks state)
    (hview : ChainView.Populated blocks view) (address : Str) :
    SpendsAlone blocks address <->
      forall transaction, transaction ∈ chainHistory blocks ->
        address ∈ ChainView.senderAddresses view.outputsByOutpoint transaction ->
          forall output,
            output ∈ ChainView.spentOutputs view.outputsByOutpoint transaction ->
              output.recipientAddress = address := by
  unfold SpendsAlone
  simp only [madeAt_iff h hview, mem_senderAddresses, List.mem_map, mem_spentOutputs,
    mem_chainHistory]
  constructor
  · rintro halone transaction ⟨block, hblock, htransaction⟩
      ⟨output, ⟨input, hinput, hget⟩, hpays⟩ output' ⟨input', hinput', hget'⟩
    exact halone block hblock transaction htransaction input output hinput hget hpays
      input' output' hinput' hget'
  · intro halone block hblock transaction htransaction input output hinput hget hpays
      input' output' hinput' hget'
    exact halone transaction ⟨block, hblock, htransaction⟩
      ⟨output, ⟨input, hinput, hget⟩, hpays⟩ output' ⟨input', hinput', hget'⟩

end Chain

/-- The history of an address reconciles with its balance exactly when the address never
spends together with another one. -/
theorem address_history_reconciles_iff {blocks : List Block} {clock : Clock}
    {state : ChainState} (h : rebuildChainState blocks clock = .ok (some state))
    (tipHeight : Int) (tipHash : Str) (address : Str) :
    (state.utxoSet.getBalance address =
          historyBalance (((ChainView.new tipHeight tipHash).populate
            blocks).addressHistory.listAt address) ∧
        ((((ChainView.new tipHeight tipHash).populate blocks).addressHistory.listAt
          address).map HistoryRecord.txid).Nodup) <->
      SpendsAlone blocks address := by
  rcases (rebuildChainState_eq_ok_some_iff _ _ _).mp h with ⟨now, tip, _, hvalid, _⟩
  have hview := ChainView.populate_populated blocks tipHeight tipHash
  have hbalance := getBalance_eq_history hvalid hview address
  rw [spendsAlone_iff hvalid.ledger hview]
  constructor
  · rintro ⟨hreconciles, _⟩ transaction hmem
    have hsum : ((chainHistory blocks).map (sharedInputs
        ((ChainView.new tipHeight tipHash).populate blocks).outputsByOutpoint
        address)).sum = 0 := by
      omega
    refine (sharedInputs_eq_zero_iff hvalid hview hmem address).right.mp ?_
    refine List.all_zero_of_le_zero_le_of_sum_eq_zero ?_ hsum (List.mem_map_of_mem hmem)
    intro amount hamount
    rcases List.mem_map.mp hamount with ⟨other, hother, rfl⟩
    exact (sharedInputs_eq_zero_iff hvalid hview hother address).left
  · intro halone
    refine ⟨?_, listAt_txids_nodup hvalid.ledger hview address⟩
    rw [hbalance, List.sum_eq_zero, Int.add_zero]
    intro amount hamount
    rcases List.mem_map.mp hamount with ⟨transaction, hmem, rfl⟩
    exact (sharedInputs_eq_zero_iff hvalid hview hmem address).right.mpr
      (halone transaction hmem)

end Records

theorem joint_history :
    historyBalance ((@ChainView.populate Sample.ownersCrypto (ChainView.new 3 Sample.jointHash)
      [Sample.genesis, Sample.first, Sample.splitBlock, Sample.jointBlock]).addressHistory.listAt
        Sample.address) = -20 := by
  decide +kernel

/-- When both owners spend together, the first one is charged what the second put in. -/
theorem address_history_joint :
    exists blocks clock state, @rebuildChainState Sample.ownersCrypto blocks clock =
        .ok (some state) ∧
      exists address, state.utxoSet.getBalance address = 0 ∧
        historyBalance ((@ChainView.populate Sample.ownersCrypto
          (ChainView.new 3 Sample.jointHash) blocks).addressHistory.listAt address) = -20 := by
  refine ⟨Sample.jointly.blocks, Sample.ownersClock, Sample.jointly.state,
    Sample.jointly_rebuilt, Sample.address, Sample.jointly_contents.right, ?_⟩
  rw [Sample.jointly_contents.left]
  exact joint_history

/-- The first owner does not spend alone on that chain. -/
theorem address_history_reconciles_iff_sample :
    ¬ @SpendsAlone Sample.ownersCrypto Sample.jointly.blocks Sample.address := by
  rw [← @address_history_reconciles_iff Sample.ownersCrypto _ _ _ Sample.jointly_rebuilt 3
    Sample.jointHash, Sample.jointly_contents.left]
  rintro ⟨hbalance, _⟩
  rw [joint_history, Sample.jointly_contents.right] at hbalance
  exact absurd hbalance (by decide)

end Api

end PyChain
