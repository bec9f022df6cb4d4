import PyChain.Transaction.GreedyOrder
import PyChain.Transaction.Survivors

/-!
# The arrival order of pending transactions

Two orders in which a pool admits the same transactions compute the fees against
different working sets.  Both read the same outputs, so the pools agree, and a
selection cannot tell them apart.
-/

namespace PyChain

open Foundation

namespace Mempool

section Orders

variable [Crypto] {pool other : Mempool}

theorem Coherent.read_at (h : pool.Coherent)
    (hrecorded : RecordedOutputs pool.confirmedUtxos pool.seenTxids)
    {item : Str × MempoolEntry} (hitem : item ∈ pool.entries.items) :
    exists working, Accepted item.2.transaction working item.2.fee ∧
      forall outpoint, outpoint ∈ item.2.transaction.spentOutpoints ->
        exists output, working.get? outpoint = some output ∧
          pool.knownOutput outpoint = some output := by
  rcases List.append_of_mem hitem with ⟨before, after, hsplit⟩
  have htransactions : pool.getTransactions =
      before.map (fun item => item.2.transaction) ++
        item.2.transaction :: after.map (fun item => item.2.transaction) := by
    rw [getTransactions_eq, hsplit, List.map_append, List.map_cons]
  rcases h.processes.accepted_at _ _ _ htransactions with
    ⟨working, fee, hfee, hreplay, haccepted, _⟩
  have hentryFee : fee = item.2.fee := by
    unfold Dict.values at hfee
    rw [hsplit] at hfee
    simpa using hfee.symm
  rw [hentryFee] at haccepted
  refine ⟨working, haccepted, ?_⟩
  intro outpoint hspent
  rcases Dict.exists_get?_of_mem_keys (haccepted.spends_present hspent) with
    ⟨output, houtput⟩
  refine ⟨output, houtput, ?_⟩
  have hfresh := h.processes.freshIdents hrecorded
  have hpostings : postings pool.getTransactions =
      postings (before.map (fun item => item.2.transaction)) ++
        postings (item.2.transaction :: after.map (fun item => item.2.transaction)) := by
    unfold postings
    rw [htransactions, List.map_append]
  unfold knownOutput
  rw [hpostings] at hfresh ⊢
  exact OutputLedger.source_append (OutputLedger.source_of_get? hfresh.of_append_left
    (OutputLedger.replay_exact hfresh.of_append_left hreplay) houtput)

/-!
## Pools over the same state with the same transactions
-/

/-- Coherent pools over one confirmed state that hold the same transactions. -/
structure SameTransactions (pool other : Mempool) : Prop where
  coherent : pool.Coherent
  coherent' : other.Coherent
  recorded : RecordedOutputs pool.confirmedUtxos pool.seenTxids
  base : SameBase pool other
  transactions : forall transaction,
    transaction ∈ pool.getTransactions <-> transaction ∈ other.getTransactions

theorem SameTransactions.recorded' (h : SameTransactions pool other) :
    RecordedOutputs other.confirmedUtxos other.seenTxids := by
  rw [h.base.confirmedUtxos, h.base.seenTxids]
  exact h.recorded

theorem SameTransactions.symm (h : SameTransactions pool other) :
    SameTransactions other pool where
  coherent := h.coherent'
  coherent' := h.coherent
  recorded := h.recorded'
  base := ⟨h.base.limits.symm, h.base.confirmedUtxos.symm, h.base.seenTxids.symm⟩
  transactions := fun transaction => (h.transactions transaction).symm

theorem SameTransactions.known_eq (h : SameTransactions pool other) (outpoint : OutPoint) :
    pool.knownOutput outpoint = other.knownOutput outpoint := by
  apply Option.ext
  intro output
  rw [h.coherent.known_iff h.recorded, h.coherent'.known_iff h.recorded',
    h.base.confirmedUtxos]
  simp only [h.transactions]

theorem SameTransactions.item_mem (h : SameTransactions pool other)
    {item : Str × MempoolEntry} (hitem : item ∈ pool.entries.items) :
    item ∈ other.entries.items := by
  have htransaction : item.2.transaction ∈ other.getTransactions := by
    rw [← h.transactions, getTransactions_eq]
    exact List.mem_map_of_mem hitem
  rw [getTransactions_eq] at htransaction
  rcases List.mem_map.mp htransaction with ⟨twin, htwin, hsame⟩
  rcases h.coherent'.read_at h.recorded' htwin with ⟨working, haccepted, hreads⟩
  rw [hsame] at haccepted hreads
  have hagain : Accepted item.2.transaction working item.2.fee := by
    apply h.coherent.accepted_reading h.recorded hitem
    intro outpoint hspent
    rw [h.known_eq]
    exact hreads outpoint hspent
  have hfee : item.2.fee = twin.2.fee := by
    rw [hagain.fee_eq, haccepted.fee_eq]
  rcases h.coherent.keyed item.1 item.2 hitem with ⟨hkey, hsize⟩
  rcases h.coherent'.keyed twin.1 twin.2 htwin with ⟨hkey', hsize'⟩
  have heq : item = twin := by
    apply Prod.ext
    · rw [hkey, hkey', hsame]
    · rcases item with ⟨txid, transaction, fee, sizeBytes⟩
      rcases twin with ⟨txid', transaction', fee', sizeBytes'⟩
      simp only at hsame hfee hsize hsize' ⊢
      rw [hsame, hfee, hsize, hsize', hsame]
  rw [heq]
  exact htwin

theorem SameTransactions.entries_eq (h : SameTransactions pool other) (txid : Str) :
    pool.entries.get? txid = other.entries.get? txid := by
  apply Dict.get?_congr_of_mem_items
  intro key entry
  exact ⟨fun hmem => h.item_mem hmem, fun hmem => h.symm.item_mem hmem⟩

theorem SameTransactions.working_eq (h : SameTransactions pool other) (outpoint : OutPoint) :
    pool.workingUtxos.get? outpoint = other.workingUtxos.get? outpoint := by
  apply Option.ext
  intro output
  rw [h.coherent.working_iff h.recorded, h.coherent'.working_iff h.recorded',
    h.base.confirmedUtxos, List.mem_flatMap, List.mem_flatMap]
  have hitems : forall item, item ∈ pool.entries.items <-> item ∈ other.entries.items :=
    fun item => ⟨fun hmem => h.item_mem hmem, fun hmem => h.symm.item_mem hmem⟩
  simp only [hitems]

omit [Crypto] in
theorem selectTransactions_congr
    (hentries : forall txid, pool.entries.get? txid = other.entries.get? txid)
    (maxTransactions maxBytes : Int) :
    pool.selectTransactions maxTransactions maxBytes =
      other.selectTransactions maxTransactions maxBytes := by
  have hperm := Dict.perm_of_get?_eq hentries
  have hranked : pool.ranked = other.ranked := by
    apply List.Perm.eq_of_pairwise
    · intro item twin hitem htwin hbefore hback
      have htwin' : twin ∈ pool.entries.items :=
        hperm.mem_iff.mpr (mem_ranked.mp htwin)
      exact item_unique (mem_ranked.mp hitem) htwin' (ranksBefore_antisymm hbefore hback)
    · exact pool.ranked_sorted
    · exact other.ranked_sorted
    · exact ((List.perm_insertionSort _ _).trans hperm).trans
        (List.perm_insertionSort _ _).symm
  have hparents : forall entry, pool.parents entry = other.parents entry := by
    intro entry
    unfold parents Dict.contains
    simp only [hentries]
  have hselectable : forall selected totalBytes,
      pool.selectable maxBytes selected totalBytes =
        other.selectable maxBytes selected totalBytes := by
    intro selected totalBytes
    funext item
    unfold selectable
    rw [hparents]
  have hloop : forall room selected totalBytes,
      pool.selectLoop maxBytes room selected totalBytes =
        other.selectLoop maxBytes room selected totalBytes := by
    intro room
    induction room with
    | zero =>
        intro selected totalBytes
        rfl
    | succ room ih =>
        intro selected totalBytes
        unfold selectLoop
        rw [hranked, hselectable]
        cases other.ranked.find? (other.selectable maxBytes selected totalBytes) with
        | none => rfl
        | some item => exact ih _ _
  unfold selectTransactions selectedEntries
  rw [hloop]

/-- Two orders in which a pool over a recorded state admits the same transactions
lead to the same fees, sizes, working outputs, bytes and selections. -/
theorem admitsAll_orderFree {limits : MempoolLimits} {utxoSet : UTXOSet}
    {seenTxids : Finset Str} (hrecorded : RecordedOutputs utxoSet seenTxids)
    {transactions order : List Transaction}
    (hsame : forall transaction, transaction ∈ transactions <-> transaction ∈ order)
    (hpool : AdmitsAll (fresh limits utxoSet seenTxids) transactions pool)
    (hother : AdmitsAll (fresh limits utxoSet seenTxids) order other) :
    (forall txid, pool.entries.get? txid = other.entries.get? txid) ∧
      pool.workingUtxos.sameMap other.workingUtxos = true ∧
      pool.totalBytes = other.totalBytes ∧
      (forall maxTransactions maxBytes,
        pool.selectTransactions maxTransactions maxBytes =
          other.selectTransactions maxTransactions maxBytes) := by
  rcases hpool.spec with ⟨hcoherent, hbase, htransactions⟩
  rcases hother.spec with ⟨hcoherent', hbase', htransactions'⟩
  have h : SameTransactions pool other := by
    refine ⟨hcoherent (fresh_coherent _ _ _), hcoherent' (fresh_coherent _ _ _), ?_, ?_, ?_⟩
    · rw [hbase.confirmedUtxos, hbase.seenTxids]
      exact hrecorded
    · exact ⟨hbase'.limits.trans hbase.limits.symm,
        hbase'.confirmedUtxos.trans hbase.confirmedUtxos.symm,
        hbase'.seenTxids.trans hbase.seenTxids.symm⟩
    · intro transaction
      rw [htransactions, htransactions']
      exact hsame transaction
  refine ⟨h.entries_eq, (Dict.sameMap_iff _ _).mpr h.working_eq, ?_,
    selectTransactions_congr h.entries_eq⟩
  rw [h.coherent.totalBytes_eq, h.coherent'.totalBytes_eq]
  unfold Dict.values
  rw [List.map_map, List.map_map]
  exact ((Dict.perm_of_get?_eq h.entries_eq).map _).sum_eq

end Orders

end Mempool

namespace Sample

/-- Whether a pool accepts each of a list of payments in turn. -/
def accepts (pool : Mempool) : List Transaction -> Bool
  | [] => true
  | transaction :: rest =>
      let added := @Mempool.addTransaction familyCrypto pool transaction
      added.1 && accepts added.2 rest

theorem admitsAll_of_accepts {transactions : List Transaction} :
    forall {pool : Mempool}, accepts pool transactions = true ->
      @Mempool.AdmitsAll familyCrypto pool transactions
        (transactions.foldl (fun pool transaction =>
          (@Mempool.addTransaction familyCrypto pool transaction).2) pool) := by
  induction transactions with
  | nil => exact fun _ => @Mempool.AdmitsAll.nil familyCrypto _
  | cons transaction rest ih =>
      intro pool haccepts
      unfold accepts at haccepts
      rcases (Bool.and_eq_true _ _).mp haccepts with ⟨hadded, hrest⟩
      exact @Mempool.AdmitsAll.cons familyCrypto _ _ _ _ _ (Prod.ext hadded rfl) (ih hrest)

/-- The pool of the same payments in another order of arrival. -/
def reordered : Mempool :=
  payments [spare, parent, child]

theorem family_orders :
    accepts (Mempool.fresh limits settled settledTxids) [parent, child, spare] = true ∧
      accepts (Mempool.fresh limits settled settledTxids) [spare, parent, child] = true ∧
      family.entries.keys = [parentTxid, childTxid, spareTxid] ∧
      reordered.entries.keys = [spareTxid, parentTxid, childTxid] := by
  decide +kernel

theorem family_admitted :
    @Mempool.AdmitsAll familyCrypto (Mempool.fresh limits settled settledTxids)
        [parent, child, spare] family ∧
      @Mempool.AdmitsAll familyCrypto (Mempool.fresh limits settled settledTxids)
        [spare, parent, child] reordered :=
  ⟨admitsAll_of_accepts family_orders.left, admitsAll_of_accepts family_orders.right.left⟩

end Sample

theorem Mempool.admitsAll_orderFree_family :
    Sample.family.entries.keys = [Sample.parentTxid, Sample.childTxid, Sample.spareTxid] ∧
      Sample.reordered.entries.keys =
        [Sample.spareTxid, Sample.parentTxid, Sample.childTxid] ∧
      (forall txid, Sample.family.entries.get? txid = Sample.reordered.entries.get? txid) ∧
      Sample.family.workingUtxos.sameMap Sample.reordered.workingUtxos = true ∧
      Sample.family.totalBytes = Sample.reordered.totalBytes ∧
      forall maxTransactions maxBytes,
        Sample.family.selectTransactions maxTransactions maxBytes =
          Sample.reordered.selectTransactions maxTransactions maxBytes := by
  rcases Sample.family_orders with ⟨_, _, hkeys, hkeys'⟩
  rcases Sample.family_admitted with ⟨hpool, hother⟩
  have hsame : forall transaction, transaction ∈ [Sample.parent, Sample.child, Sample.spare] <->
      transaction ∈ [Sample.spare, Sample.parent, Sample.child] :=
    fun _ => (@List.perm_append_comm _ [Sample.parent, Sample.child] [Sample.spare]).mem_iff
  exact ⟨hkeys, hkeys', @Mempool.admitsAll_orderFree Sample.familyCrypto _ _ Sample.limits
    Sample.settled Sample.settledTxids Sample.settled_recorded _ _ hsame hpool hother⟩

end PyChain
