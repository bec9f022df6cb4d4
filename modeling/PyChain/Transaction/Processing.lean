import Mathlib.Data.Finset.Basic
import PyChain.Transaction.Validation

/-!
# Sequential transaction processing

A batch validates each transaction against the working set left by the earlier
ones, records its identifier and applies it.
-/

namespace PyChain

open Foundation
open OutputLedger (Replay Applies post)

structure TransactionBatch where
  utxoSet : UTXOSet
  seenTxids : Finset Str
  totalFees : Int

variable [Crypto]

/-- One iteration of the processing loop. -/
def applyTransaction (batch : TransactionBatch) (transaction : Transaction) :
    Except PyError TransactionBatch := do
  let fee <- calculateTransactionFee transaction batch.utxoSet
  let txid := transaction.txid
  if txid ∈ batch.seenTxids then
    .error (.valueError "Transaction ID has already been confirmed")
  else
    match batch.utxoSet.applyValidTransaction transaction with
    | .error _ => .error (.valueError "Transaction cannot be applied")
    | .ok working =>
        .ok
          { utxoSet := working
            seenTxids := insert txid batch.seenTxids
            totalFees := batch.totalFees + fee }

def applyTransactions (transactions : List Transaction) (utxoSet : UTXOSet)
    (seenTxids : Finset Str) : Except PyError TransactionBatch :=
  transactions.foldlM applyTransaction
    { utxoSet := utxoSet, seenTxids := seenTxids, totalFees := 0 }

/-- The confirmed identifiers after a list of transactions. -/
def seenAfter (seenTxids : Finset Str) (transactions : List Transaction) : Finset Str :=
  seenTxids ∪ (transactions.map Transaction.txid).toFinset

theorem seenAfter_nil (seenTxids : Finset Str) : seenAfter seenTxids [] = seenTxids := by
  simp [seenAfter]

theorem seenAfter_append (seenTxids : Finset Str) (xs ys : List Transaction) :
    seenAfter seenTxids (xs ++ ys) = seenAfter (seenAfter seenTxids xs) ys := by
  ext txid
  simp only [seenAfter, Finset.mem_union, List.mem_toFinset, List.map_append,
    List.mem_append]
  rw [or_assoc]

theorem seenAfter_cons (seenTxids : Finset Str) (transaction : Transaction)
    (rest : List Transaction) :
    seenAfter seenTxids (transaction :: rest) =
      seenAfter (insert transaction.txid seenTxids) rest := by
  ext txid
  simp only [seenAfter, Finset.mem_union, Finset.mem_insert, List.mem_toFinset,
    List.map_cons, List.mem_cons]
  rw [or_left_comm, or_assoc]

/-- A transaction at its turn: accepted by the working set, new, and applied. -/
structure Processed (working : UTXOSet) (seenTxids : Finset Str)
    (transaction : Transaction) (fee : Int) : Prop where
  accepted : Accepted transaction working fee
  new : transaction.txid ∉ seenTxids
  applies : Applies working (UTXOSet.posting transaction)

theorem applyTransaction_eq_ok_iff (batch next : TransactionBatch)
    (transaction : Transaction) :
    applyTransaction batch transaction = .ok next <->
      exists fee, Processed batch.utxoSet batch.seenTxids transaction fee ∧
        next =
          { utxoSet := post batch.utxoSet (UTXOSet.posting transaction)
            seenTxids := insert transaction.txid batch.seenTxids
            totalFees := batch.totalFees + fee } := by
  unfold applyTransaction
  constructor
  · intro h
    rcases bind_eq_ok_iff.mp h with ⟨fee, hfee, h⟩
    by_cases hnew : transaction.txid ∈ batch.seenTxids
    · simp only [if_pos hnew] at h
      cases h
    · simp only [if_neg hnew] at h
      cases happly : batch.utxoSet.applyValidTransaction transaction with
      | error e =>
          rw [happly] at h
          cases h
      | ok working =>
          rw [happly] at h
          rcases (UTXOSet.applyValidTransaction_eq_ok_iff _ _ _).mp happly with
            ⟨happlies, hworking⟩
          exists fee
          constructor
          · exact ⟨(calculateTransactionFee_eq_ok_iff _ _ _).mp hfee, hnew, happlies⟩
          · rw [← hworking]
            exact (Except.ok.inj h).symm
  · intro h
    rcases h with ⟨fee, hprocessed, hnext⟩
    apply bind_eq_ok_iff.mpr
    refine ⟨fee, (calculateTransactionFee_eq_ok_iff _ _ _).mpr hprocessed.accepted, ?_⟩
    simp only [if_neg hprocessed.new]
    rw [(UTXOSet.applyValidTransaction_eq_ok_iff _ _ _).mpr ⟨hprocessed.applies, rfl⟩,
      hnext]

/-- What a successful batch did, transaction by transaction. -/
inductive Processes : UTXOSet -> Finset Str -> List Transaction -> List Int ->
    UTXOSet -> Prop where
  | nil (utxos : UTXOSet) (seen : Finset Str) : Processes utxos seen [] [] utxos
  | cons {utxos final : UTXOSet} {seen : Finset Str} {transaction : Transaction}
      {rest : List Transaction} {fee : Int} {fees : List Int} :
      Processed utxos seen transaction fee ->
      Processes (post utxos (UTXOSet.posting transaction))
        (insert transaction.txid seen) rest fees final ->
      Processes utxos seen (transaction :: rest) (fee :: fees) final

theorem Processes.nil_inv {utxos final : UTXOSet} {seen : Finset Str} {fees : List Int}
    (h : Processes utxos seen [] fees final) : final = utxos := by
  cases h
  rfl

theorem Processes.length_fees {utxos final : UTXOSet} {seen : Finset Str}
    {transactions : List Transaction} {fees : List Int}
    (h : Processes utxos seen transactions fees final) :
    transactions.length = fees.length := by
  induction h with
  | nil utxos seen => rfl
  | cons _ _ ih => rw [List.length_cons, List.length_cons, ih]

theorem foldlM_applyTransaction_eq_ok_iff (transactions : List Transaction) :
    forall (batch final : TransactionBatch),
      transactions.foldlM applyTransaction batch = .ok final <->
        exists fees, Processes batch.utxoSet batch.seenTxids transactions fees
            final.utxoSet ∧
          final.seenTxids = seenAfter batch.seenTxids transactions ∧
          final.totalFees = batch.totalFees + fees.sum := by
  induction transactions with
  | nil =>
      intro batch final
      constructor
      · intro h
        cases h
        refine ⟨[], Processes.nil _ _, ?_, ?_⟩
        · rw [seenAfter_nil]
        · rw [List.sum_nil, Int.add_zero]
      · intro h
        rcases h with ⟨fees, hprocesses, hseen, htotal⟩
        cases batch with
        | mk utxoSet seenTxids totalFees =>
            cases final with
            | mk utxoSet' seenTxids' totalFees' =>
                cases hprocesses
                simp only [seenAfter_nil, List.sum_nil, Int.add_zero] at hseen htotal
                subst hseen
                subst htotal
                rfl
  | cons transaction rest ih =>
      intro batch final
      constructor
      · intro h
        rcases foldlM_cons_eq_ok_iff.mp h with ⟨next, hnext, hrest⟩
        rcases (applyTransaction_eq_ok_iff _ _ _).mp hnext with ⟨fee, hprocessed, heq⟩
        subst heq
        rcases (ih _ _).mp hrest with ⟨fees, hprocesses, hseen, htotal⟩
        refine ⟨fee :: fees, Processes.cons hprocessed hprocesses, ?_, ?_⟩
        · rw [seenAfter_cons]
          exact hseen
        · rw [htotal, List.sum_cons]
          simp only
          omega
      · intro h
        rcases h with ⟨fees, hprocesses, hseen, htotal⟩
        cases hprocesses with
        | cons hprocessed hrest =>
            apply foldlM_cons_eq_ok_iff.mpr
            refine ⟨_, (applyTransaction_eq_ok_iff _ _ _).mpr ⟨_, hprocessed, rfl⟩, ?_⟩
            apply (ih _ _).mpr
            refine ⟨_, hrest, ?_, ?_⟩
            · rw [hseen, seenAfter_cons]
            · rw [htotal, List.sum_cons]
              simp only
              omega

theorem applyTransactions_eq_ok_iff (transactions : List Transaction)
    (utxoSet : UTXOSet) (seenTxids : Finset Str) (final : TransactionBatch) :
    applyTransactions transactions utxoSet seenTxids = .ok final <->
      exists fees, Processes utxoSet seenTxids transactions fees final.utxoSet ∧
        final.seenTxids = seenAfter seenTxids transactions ∧
        final.totalFees = fees.sum := by
  unfold applyTransactions
  rw [foldlM_applyTransaction_eq_ok_iff]
  simp only [Int.zero_add]

/-!
## Batches as ledger histories
-/

def postings (transactions : List Transaction) : List (Posting Str TxOutput) :=
  transactions.map UTXOSet.posting

theorem createdBy_postings (transactions : List Transaction) :
    OutputLedger.createdBy (postings transactions) =
      transactions.flatMap UTXOSet.outputItems := by
  unfold OutputLedger.createdBy postings
  rw [List.flatMap_map]
  rfl

theorem mem_createdBy_iff (transactions : List Transaction) (outpoint : OutPoint)
    (output : TxOutput) :
    (outpoint, output) ∈ OutputLedger.createdBy (postings transactions) <->
      exists transaction, transaction ∈ transactions ∧
        (outpoint, output) ∈ UTXOSet.outputItems transaction := by
  rw [createdBy_postings, List.mem_flatMap]

theorem spentBy_postings (transactions : List Transaction) :
    OutputLedger.spentBy (postings transactions) =
      transactions.flatMap Transaction.spentOutpoints := by
  unfold OutputLedger.spentBy postings
  rw [List.flatMap_map]
  rfl

theorem outputItems_txid {transaction : Transaction} {outpoint : OutPoint}
    {output : TxOutput} (h : (outpoint, output) ∈ UTXOSet.outputItems transaction) :
    outpoint.1 = transaction.txid := by
  rw [← UTXOSet.posting_created] at h
  exact Posting.created_ident h

theorem Processes.replay {utxos final : UTXOSet} {seen : Finset Str}
    {transactions : List Transaction} {fees : List Int}
    (h : Processes utxos seen transactions fees final) :
    Replay utxos (postings transactions) final := by
  induction h with
  | nil utxos seen => exact Replay.nil utxos
  | cons hprocessed _ ih => exact Replay.cons hprocessed.applies ih

theorem foldlM_applyValidTransaction_eq_ok_iff (transactions : List Transaction) :
    forall (utxos final : UTXOSet),
      transactions.foldlM UTXOSet.applyValidTransaction utxos = .ok final <->
        Replay utxos (postings transactions) final := by
  induction transactions with
  | nil =>
      intro utxos final
      constructor
      · intro h
        cases h
        exact Replay.nil _
      · intro h
        cases h
        rfl
  | cons transaction rest ih =>
      intro utxos final
      rw [foldlM_cons_eq_ok_iff]
      constructor
      · intro h
        rcases h with ⟨next, hnext, hrest⟩
        rcases (UTXOSet.applyValidTransaction_eq_ok_iff _ _ _).mp hnext with
          ⟨happlies, heq⟩
        subst heq
        exact Replay.cons happlies ((ih _ _).mp hrest)
      · intro h
        cases h with
        | cons happlies hrest =>
            exact ⟨_, (UTXOSet.applyValidTransaction_eq_ok_iff _ _ _).mpr ⟨happlies, rfl⟩,
              (ih _ _).mpr hrest⟩

theorem Processes.snoc {utxos working : UTXOSet} {seen : Finset Str}
    {transactions : List Transaction} {fees : List Int} {transaction : Transaction}
    {fee : Int} (h : Processes utxos seen transactions fees working)
    (hlast : Processed working (seenAfter seen transactions) transaction fee) :
    Processes utxos seen (transactions ++ [transaction]) (fees ++ [fee])
      (post working (UTXOSet.posting transaction)) := by
  induction h with
  | nil utxos seen =>
      rw [seenAfter_nil] at hlast
      exact Processes.cons hlast (Processes.nil _ _)
  | cons hprocessed _ ih =>
      rw [seenAfter_cons] at hlast
      exact Processes.cons hprocessed (ih hlast)

theorem Processes.fees_eq {utxos final : UTXOSet} {seen : Finset Str}
    {transactions : List Transaction} {fees : List Int}
    (h : Processes utxos seen transactions fees final) :
    fees = OutputLedger.fees TxOutput.amount (postings transactions) utxos := by
  induction h with
  | nil utxos seen => rfl
  | cons hprocessed _ ih =>
      rw [ih, hprocessed.accepted.fee_eq]
      rfl

theorem Processes.fees_nonneg {utxos final : UTXOSet} {seen : Finset Str}
    {transactions : List Transaction} {fees : List Int}
    (h : Processes utxos seen transactions fees final) : 0 ≤ fees.sum := by
  induction h with
  | nil utxos seen => exact Int.le_refl 0
  | cons hprocessed _ ih =>
      have hfee := hprocessed.accepted.fee_nonneg
      rw [List.sum_cons]
      omega

theorem Processes.txids_new {utxos final : UTXOSet} {seen : Finset Str}
    {transactions : List Transaction} {fees : List Int}
    (h : Processes utxos seen transactions fees final) :
    (transactions.map Transaction.txid).Nodup ∧
      forall transaction, transaction ∈ transactions -> transaction.txid ∉ seen := by
  induction h with
  | nil utxos seen =>
      constructor
      · exact List.nodup_nil
      · intro transaction hmem
        cases hmem
  | @cons utxos final seen transaction rest fee fees hprocessed _ ih =>
      rcases ih with ⟨hnodup, hfresh⟩
      constructor
      · rw [List.map_cons, List.nodup_cons]
        constructor
        · intro hmem
          rcases List.mem_map.mp hmem with ⟨other, hother, heq⟩
          apply hfresh other hother
          rw [heq]
          exact Finset.mem_insert_self _ _
        · exact hnodup
      · intro other hother
        rcases List.mem_cons.mp hother with heq | hrest
        · rw [heq]
          exact hprocessed.new
        · intro hseen
          exact hfresh other hrest (Finset.mem_insert_of_mem hseen)

omit [Crypto] in
/-- Unspent outputs belong to recorded transactions. -/
def RecordedOutputs (utxoSet : UTXOSet) (seenTxids : Finset Str) : Prop :=
  forall outpoint, outpoint ∈ utxoSet.keys -> outpoint.1 ∈ seenTxids

theorem Processes.freshIdents {utxos final : UTXOSet} {seen : Finset Str}
    {transactions : List Transaction} {fees : List Int}
    (h : Processes utxos seen transactions fees final)
    (hrecorded : RecordedOutputs utxos seen) :
    OutputLedger.FreshIdents utxos (postings transactions) where
  nodup := by
    have hnodup := h.txids_new.left
    unfold postings
    rw [List.map_map]
    exact hnodup
  fresh := by
    intro p hp k hk heq
    rcases List.mem_map.mp hp with ⟨transaction, hmem, hposting⟩
    subst hposting
    apply h.txids_new.right transaction hmem
    rw [show transaction.txid = k.1 from heq.symm]
    exact hrecorded k hk

theorem Processes.recorded {utxos final : UTXOSet} {seen : Finset Str}
    {transactions : List Transaction} {fees : List Int}
    (h : Processes utxos seen transactions fees final)
    (hrecorded : RecordedOutputs utxos seen) :
    RecordedOutputs final (seenAfter seen transactions) := by
  intro outpoint hmem
  have hexact := OutputLedger.replay_exact (h.freshIdents hrecorded) h.replay
  rcases Dict.exists_get?_of_mem_keys hmem with ⟨output, hget⟩
  rcases ((hexact.get?_iff outpoint output).mp hget).left with hbase | hcreated
  · exact Finset.mem_union_left _ (hrecorded outpoint (Dict.mem_keys_of_get? hbase))
  · rcases List.mem_flatMap.mp hcreated with ⟨posting, hposting, hitem⟩
    rcases List.mem_map.mp hposting with ⟨transaction, htransaction, heq⟩
    rw [← heq] at hitem
    have hident : outpoint.1 = transaction.txid := Posting.created_ident hitem
    rw [hident]
    exact Finset.mem_union_right _
      (List.mem_toFinset.mpr (List.mem_map_of_mem htransaction))

theorem Processes.accepted_at {utxos final : UTXOSet} {seen : Finset Str}
    {transactions : List Transaction} {fees : List Int}
    (h : Processes utxos seen transactions fees final) :
    forall before transaction after,
      transactions = before ++ transaction :: after ->
      exists working fee, fees[before.length]? = some fee ∧
        Replay utxos (postings before) working ∧
        Accepted transaction working fee ∧
        Applies working (UTXOSet.posting transaction) := by
  induction h with
  | nil utxos seen =>
      intro before transaction after hsplit
      simp at hsplit
  | @cons utxos final seen first rest fee fees hprocessed _ ih =>
      intro before transaction after hsplit
      cases before with
      | nil =>
          rcases List.cons.inj hsplit with ⟨hfirst, _⟩
          subst hfirst
          exact ⟨utxos, fee, rfl, Replay.nil utxos, hprocessed.accepted,
            hprocessed.applies⟩
      | cons head tail =>
          rcases List.cons.inj hsplit with ⟨hhead, htail⟩
          subst hhead
          rcases ih tail transaction after htail with
            ⟨working, fee', hfee, hreplay, haccepted, happlies⟩
          refine ⟨working, fee', ?_, Replay.cons hprocessed.applies hreplay, haccepted,
            happlies⟩
          simpa using hfee

/-!
## Other orders and larger sets
-/

theorem Processes.append_split {utxos final : UTXOSet} {seen : Finset Str}
    {xs ys : List Transaction} {xfees yfees : List Int}
    (h : Processes utxos seen (xs ++ ys) (xfees ++ yfees) final)
    (hlength : xs.length = xfees.length) :
    exists working, Processes utxos seen xs xfees working ∧
      Processes working (seenAfter seen xs) ys yfees final := by
  induction xs generalizing utxos seen xfees with
  | nil =>
      rw [List.length_eq_zero_iff.mp hlength.symm] at h ⊢
      rw [seenAfter_nil]
      exact ⟨utxos, Processes.nil _ _, h⟩
  | cons transaction rest ih =>
      cases xfees with
      | nil => cases hlength
      | cons fee fees =>
          cases h with
          | cons hprocessed hrest =>
              rcases ih hrest (Nat.succ.inj hlength) with ⟨working, hfirst, hsecond⟩
              rw [seenAfter_cons]
              exact ⟨working, Processes.cons hprocessed hfirst, hsecond⟩

theorem Processes.accepted_reading {utxos final : UTXOSet} {seen : Finset Str}
    {transactions : List Transaction} {fees : List Int}
    (h : Processes utxos seen transactions fees final)
    (hrecorded : RecordedOutputs utxos seen) {i : Nat} {transaction : Transaction} {fee : Int}
    (htransaction : transactions[i]? = some transaction) (hfee : fees[i]? = some fee)
    {working : UTXOSet}
    (hreads : forall outpoint, outpoint ∈ transaction.spentOutpoints -> exists output,
      working.get? outpoint = some output ∧
        OutputLedger.source utxos (postings transactions) outpoint = some output) :
    Accepted transaction working fee := by
  rcases List.getElem?_eq_some_iff.mp htransaction with ⟨hlt, hget⟩
  have hsplit : transactions = transactions.take i ++ transaction :: transactions.drop (i + 1) := by
    rw [← hget, List.getElem_cons_drop, List.take_append_drop]
  rcases h.accepted_at _ _ _ hsplit with ⟨before, fee', hfee', hreplay, haccepted, _⟩
  rw [List.length_take, Nat.min_eq_left (Nat.le_of_lt hlt), hfee] at hfee'
  cases hfee'
  have hpostings : postings transactions = postings (transactions.take i) ++
      postings (transaction :: transactions.drop (i + 1)) := by
    unfold postings
    rw [← List.map_append, ← hsplit]
  have hfresh := h.freshIdents hrecorded
  rw [hpostings] at hfresh
  have hexact := OutputLedger.replay_exact hfresh.of_append_left hreplay
  apply haccepted.congr
  intro outpoint hspent
  rcases hreads outpoint hspent with ⟨output, hworking, hsource⟩
  rcases Dict.exists_get?_of_mem_keys (haccepted.spends_present hspent) with ⟨other, hother⟩
  have hold : OutputLedger.source utxos (postings (transactions.take i) ++
      postings (transaction :: transactions.drop (i + 1))) outpoint = some other :=
    OutputLedger.source_append
      (OutputLedger.source_of_get? hfresh.of_append_left hexact hother)
  rw [← hpostings, hsource] at hold
  rw [hworking, hother, Option.some.inj hold]

/-- Some transactions of a batch process in every order in which each one comes
after its parents, with the fees they had. -/
theorem Processes.rearrange {utxos final : UTXOSet} {seen : Finset Str}
    {transactions : List Transaction} {fees : List Int}
    (h : Processes utxos seen transactions fees final)
    (hrecorded : RecordedOutputs utxos seen) (order : List (Transaction × Int))
    (hfees : forall item, item ∈ order -> exists i : Nat,
      transactions[i]? = some item.1 ∧ fees[i]? = some item.2)
    (horder : OutputLedger.Rearranges utxos (postings transactions)
      (postings (order.map Prod.fst))) :
    exists working,
      Processes utxos seen (order.map Prod.fst) (order.map Prod.snd) working := by
  have hfresh := h.freshIdents hrecorded
  have hwhole := OutputLedger.replay_exact hfresh h.replay
  induction order using List.reverseRecOn with
  | nil => exact ⟨utxos, Processes.nil _ _⟩
  | append_singleton front item ih =>
      have hpostings : postings ((front ++ [item]).map Prod.fst) =
          postings (front.map Prod.fst) ++ [UTXOSet.posting item.1] := by
        unfold postings
        rw [List.map_append, List.map_append]
        rfl
      rw [hpostings] at horder
      rcases ih (fun other hother => hfees other (List.mem_append_left _ hother))
        horder.of_append_left with ⟨working, hfront⟩
      have hexact := OutputLedger.replay_exact (horder.of_append_left.freshIdents hfresh)
        hfront.replay
      rcases horder.applies hfresh hwhole hexact with ⟨happlies, hreads⟩
      rcases hfees item (List.mem_append_right _ List.mem_cons_self) with
        ⟨i, htransaction, hfee⟩
      have haccepted := h.accepted_reading hrecorded htransaction hfee hreads
      have hnew : item.1.txid ∉ seenAfter seen (front.map Prod.fst) := by
        unfold seenAfter
        rw [Finset.mem_union, List.mem_toFinset, not_or]
        constructor
        · exact h.txids_new.right item.1 (List.mem_of_getElem? htransaction)
        · have hidents := horder.idents
          rw [List.map_append, List.nodup_append] at hidents
          intro hmem
          have hident : item.1.txid ∈
              (postings (front.map Prod.fst)).map Posting.ident := by
            unfold postings
            rw [List.map_map]
            exact hmem
          exact hidents.right.right _ hident item.1.txid (by simp [UTXOSet.posting]) rfl
      rw [List.map_append, List.map_append]
      exact ⟨_, hfront.snoc ⟨haccepted, hnew, happlies⟩⟩

/-- A set that has the same outputs as another one, apart from outputs of one
transaction which the other one does not know. -/
structure ExtendsBy (txid : Str) (utxos other : UTXOSet) : Prop where
  unknown : forall outpoint, outpoint ∈ utxos.keys -> outpoint.1 ≠ txid
  same : forall outpoint, outpoint.1 ≠ txid -> other.get? outpoint = utxos.get? outpoint

omit [Crypto] in
theorem ExtendsBy.mem_keys_iff {txid : Str} {utxos other : UTXOSet}
    (h : ExtendsBy txid utxos other) {outpoint : OutPoint} (hne : outpoint.1 ≠ txid) :
    outpoint ∈ other.keys <-> outpoint ∈ utxos.keys := by
  rw [← not_iff_not, ← Dict.get?_eq_none_iff, ← Dict.get?_eq_none_iff, h.same outpoint hne]

theorem ExtendsBy.applies {txid : Str} {utxos other : UTXOSet} (h : ExtendsBy txid utxos other)
    {transaction : Transaction} (hne : transaction.txid ≠ txid)
    (happlies : Applies utxos (UTXOSet.posting transaction)) :
    Applies other (UTXOSet.posting transaction) ∧
      ExtendsBy txid (post utxos (UTXOSet.posting transaction))
        (post other (UTXOSet.posting transaction)) := by
  have hother : Applies other (UTXOSet.posting transaction) := by
    refine ⟨happlies.left, ?_, ?_⟩
    · intro outpoint hspent
      have hmem := happlies.right.left outpoint hspent
      exact (h.mem_keys_iff (h.unknown outpoint hmem)).mpr hmem
    · intro entry hentry hmem
      have hident : entry.1.1 = transaction.txid := Posting.created_ident hentry
      apply happlies.right.right entry hentry
      exact (h.mem_keys_iff (by rw [hident]; exact hne)).mp hmem
  refine ⟨hother, ?_, ?_⟩
  · intro outpoint hmem
    rcases Dict.exists_get?_of_mem_keys hmem with ⟨output, houtput⟩
    rcases (OutputLedger.post_get? happlies outpoint output).mp houtput with
      hcreated | ⟨hold, _⟩
    · have hident : outpoint.1 = transaction.txid := Posting.created_ident hcreated
      rw [hident]
      exact hne
    · exact h.unknown outpoint (Dict.mem_keys_of_get? hold)
  · intro outpoint houtpoint
    apply Option.ext
    intro output
    rw [OutputLedger.post_get? hother, OutputLedger.post_get? happlies,
      h.same outpoint houtpoint]

theorem Processes.extend {txid : Str} {utxos final : UTXOSet} {seen : Finset Str}
    {transactions : List Transaction} {fees : List Int}
    (h : Processes utxos seen transactions fees final) {other : UTXOSet}
    (hextends : ExtendsBy txid utxos other)
    (hne : forall transaction, transaction ∈ transactions -> transaction.txid ≠ txid) :
    exists working, Processes other (insert txid seen) transactions fees working := by
  induction h generalizing other with
  | nil utxos seen => exact ⟨other, Processes.nil _ _⟩
  | @cons utxos final seen transaction rest fee fees hprocessed _ ih =>
      rw [List.forall_mem_cons] at hne
      rcases hextends.applies hne.left hprocessed.applies with ⟨happlies, hnext⟩
      rcases ih hnext hne.right with ⟨working, hrest⟩
      rw [Finset.insert_comm] at hrest
      refine ⟨working, Processes.cons ⟨?_, ?_, happlies⟩ hrest⟩
      · apply hprocessed.accepted.congr
        intro outpoint hspent
        exact hextends.same outpoint
          (hextends.unknown outpoint (hprocessed.accepted.spends_present hspent))
      · rw [Finset.mem_insert, not_or]
        exact ⟨hne.left, hprocessed.new⟩

end PyChain
