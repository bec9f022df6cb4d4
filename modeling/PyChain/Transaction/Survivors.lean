import Mathlib.Data.List.Flatten
import PyChain.Transaction.ClosedForm
import PyChain.Transaction.Selection

/-!
# The entries that survive a replay

Removal and revalidation both admit some entries of a pool again, over the same
confirmed state or a later one, and let validation drop the rest.  What is left
is a recursion over the insertion order: an entry survives when every input is
confirmed or made by an earlier survivor.
-/

namespace PyChain

open Foundation
open OutputLedger (Applies)

namespace Mempool

section Replays

variable [Crypto]

/-- The outpoints that some entries create. -/
def madeBy (items : List (Str × MempoolEntry)) : List OutPoint :=
  items.flatMap (fun item => (UTXOSet.outputItems item.2.transaction).map Prod.fst)

/-- Every input is confirmed or made by a kept entry. -/
def Funded (base : UTXOSet) (kept : List (Str × MempoolEntry)) (item : Str × MempoolEntry) :
    Prop :=
  forall outpoint, outpoint ∈ item.2.transaction.spentOutpoints ->
    outpoint ∈ base.keys ∨ outpoint ∈ madeBy kept

instance (base : UTXOSet) (kept : List (Str × MempoolEntry)) (item : Str × MempoolEntry) :
    Decidable (Funded base kept item) :=
  inferInstanceAs (Decidable (forall outpoint,
    outpoint ∈ item.2.transaction.spentOutpoints -> _))

def survivorsAfter (base : UTXOSet) :
    List (Str × MempoolEntry) -> List (Str × MempoolEntry) -> List (Str × MempoolEntry)
  | kept, [] => kept
  | kept, item :: rest =>
      if Funded base kept item then survivorsAfter base (kept ++ [item]) rest
      else survivorsAfter base kept rest

/-- The survivors of a list of entries over a confirmed state, in their order. -/
def survivors (base : UTXOSet) (items : List (Str × MempoolEntry)) :
    List (Str × MempoolEntry) :=
  survivorsAfter base [] items

theorem survivorsAfter_sublist (base : UTXOSet) (rest : List (Str × MempoolEntry)) :
    forall kept, (survivorsAfter base kept rest).Sublist (kept ++ rest) := by
  induction rest with
  | nil =>
      intro kept
      rw [List.append_nil]
      exact List.Sublist.refl _
  | cons item rest ih =>
      intro kept
      unfold survivorsAfter
      by_cases hfunded : Funded base kept item
      · rw [if_pos hfunded]
        have hnext := ih (kept ++ [item])
        rw [List.append_assoc] at hnext
        exact hnext
      · rw [if_neg hfunded]
        exact (ih kept).trans
          ((List.Sublist.refl kept).append (List.sublist_cons_self item rest))

theorem survivors_sublist (base : UTXOSet) (items : List (Str × MempoolEntry)) :
    (survivors base items).Sublist items :=
  survivorsAfter_sublist base items []

theorem survivorsAfter_append (base : UTXOSet) (items rest : List (Str × MempoolEntry)) :
    forall kept, survivorsAfter base kept (items ++ rest) =
      survivorsAfter base (survivorsAfter base kept items) rest := by
  induction items with
  | nil =>
      intro kept
      rfl
  | cons item items ih =>
      intro kept
      rw [List.cons_append]
      simp only [survivorsAfter]
      by_cases hfunded : Funded base kept item
      · rw [if_pos hfunded, if_pos hfunded, ih]
      · rw [if_neg hfunded, if_neg hfunded, ih]

theorem survivors_snoc (base : UTXOSet) (items : List (Str × MempoolEntry))
    (item : Str × MempoolEntry) :
    survivors base (items ++ [item]) =
      if Funded base (survivors base items) item then survivors base items ++ [item]
      else survivors base items := by
  unfold survivors
  rw [survivorsAfter_append]
  simp only [survivorsAfter]

theorem survivors_cases (base : UTXOSet) {items : List (Str × MempoolEntry)}
    {P : Str × MempoolEntry -> Prop}
    (hdropped : forall done item rest, items = done ++ item :: rest ->
      (forall other, other ∈ done -> other ∈ survivors base done ∨ P other) ->
      ¬ Funded base (survivors base done) item -> P item) :
    forall item, item ∈ items -> item ∈ survivors base items ∨ P item := by
  have hprefixes : forall done : List (Str × MempoolEntry), done <+: items ->
      forall item, item ∈ done -> item ∈ survivors base done ∨ P item := by
    intro done
    induction done using List.reverseRecOn with
    | nil =>
        intro _ item hitem
        cases hitem
    | append_singleton done last ih =>
        intro hdone item hitem
        have hearlier := ih ((List.prefix_append done [last]).trans hdone)
        rw [survivors_snoc]
        by_cases hfunded : Funded base (survivors base done) last
        · rw [if_pos hfunded]
          rcases List.mem_append.mp hitem with hold | hlast
          · rcases hearlier item hold with hkept | hlost
            · exact Or.inl (List.mem_append_left _ hkept)
            · exact Or.inr hlost
          · exact Or.inl (List.mem_append_right _ hlast)
        · rw [if_neg hfunded]
          rcases List.mem_append.mp hitem with hold | hlast
          · exact hearlier item hold
          · rw [List.mem_singleton.mp hlast]
            rcases hdone with ⟨rest, hrest⟩
            apply Or.inr
            refine hdropped done last rest ?_ hearlier hfunded
            rw [← hrest, List.append_assoc]
            rfl
  exact hprefixes items List.prefix_rfl

/-!
## What an entry of a pool read
-/

/-- The output that an outpoint names in the history of a pool. -/
def knownOutput (pool : Mempool) (outpoint : OutPoint) : Option TxOutput :=
  OutputLedger.source pool.confirmedUtxos (postings pool.getTransactions) outpoint

theorem mem_madeBy {items : List (Str × MempoolEntry)} {outpoint : OutPoint} :
    outpoint ∈ madeBy items <-> exists item output, item ∈ items ∧
      (outpoint, output) ∈ UTXOSet.outputItems item.2.transaction := by
  unfold madeBy
  rw [List.mem_flatMap]
  constructor
  · intro h
    rcases h with ⟨item, hitem, hmem⟩
    rcases List.mem_map.mp hmem with ⟨entry, hentry, heq⟩
    subst heq
    exact ⟨item, entry.2, hitem, hentry⟩
  · intro h
    rcases h with ⟨item, output, hitem, hentry⟩
    exact ⟨item, hitem, List.mem_map.mpr ⟨_, hentry, rfl⟩⟩

variable {pool : Mempool}

theorem Coherent.working_iff (h : pool.Coherent)
    (hrecorded : RecordedOutputs pool.confirmedUtxos pool.seenTxids) (outpoint : OutPoint)
    (output : TxOutput) :
    pool.workingUtxos.get? outpoint = some output <->
      (pool.confirmedUtxos.get? outpoint = some output ∨
          exists item, item ∈ pool.entries.items ∧
            (outpoint, output) ∈ UTXOSet.outputItems item.2.transaction) ∧
        outpoint ∉
          pool.entries.items.flatMap (fun item => item.2.transaction.spentOutpoints) := by
  have hexact := OutputLedger.replay_exact (h.processes.freshIdents hrecorded)
    h.processes.replay
  rw [hexact.get?_iff, createdBy_postings, spentBy_postings, getTransactions_eq]
  rw [List.flatMap_map, List.flatMap_map, List.mem_flatMap]

theorem Coherent.known_iff (h : pool.Coherent)
    (hrecorded : RecordedOutputs pool.confirmedUtxos pool.seenTxids) (outpoint : OutPoint)
    (output : TxOutput) :
    pool.knownOutput outpoint = some output <->
      pool.confirmedUtxos.get? outpoint = some output ∨
        exists transaction, transaction ∈ pool.getTransactions ∧
          (outpoint, output) ∈ UTXOSet.outputItems transaction := by
  rw [← mem_createdBy_iff]
  constructor
  · intro hknown
    unfold knownOutput OutputLedger.source at hknown
    cases hbase : pool.confirmedUtxos.get? outpoint with
    | some value =>
        rw [hbase] at hknown
        exact Or.inl hknown
    | none =>
        rw [hbase, Option.none_or] at hknown
        exact Or.inr (Dict.mem_of_lookup_eq_some hknown)
  · intro horigin
    rcases horigin with hbase | hcreated
    · exact OutputLedger.source_of_base hbase
    · exact OutputLedger.source_of_created (h.processes.freshIdents hrecorded) hcreated

theorem Coherent.known_of_made (h : pool.Coherent)
    (hrecorded : RecordedOutputs pool.confirmedUtxos pool.seenTxids)
    {item : Str × MempoolEntry} (hitem : item ∈ pool.entries.items) {outpoint : OutPoint}
    {output : TxOutput}
    (hmade : (outpoint, output) ∈ UTXOSet.outputItems item.2.transaction) :
    pool.knownOutput outpoint = some output := by
  apply (h.known_iff hrecorded outpoint output).mpr
  refine Or.inr ⟨item.2.transaction, ?_, hmade⟩
  rw [getTransactions_eq]
  exact List.mem_map_of_mem hitem

theorem Coherent.accepted_reading (h : pool.Coherent)
    (hrecorded : RecordedOutputs pool.confirmedUtxos pool.seenTxids)
    {item : Str × MempoolEntry} (hitem : item ∈ pool.entries.items) {working : UTXOSet}
    (hreads : forall outpoint, outpoint ∈ item.2.transaction.spentOutpoints ->
      exists output, working.get? outpoint = some output ∧
        pool.knownOutput outpoint = some output) :
    Accepted item.2.transaction working item.2.fee := by
  rcases List.getElem?_of_mem hitem with ⟨i, hi⟩
  have htransaction : pool.getTransactions[i]? = some item.2.transaction := by
    rw [getTransactions_eq, List.getElem?_map, hi]
    rfl
  have hfee : (pool.entries.values.map MempoolEntry.fee)[i]? = some item.2.fee := by
    unfold Dict.values
    rw [List.map_map, List.getElem?_map, hi]
    rfl
  exact h.processes.accepted_reading hrecorded htransaction hfee hreads

theorem Coherent.known_input (h : pool.Coherent)
    (hrecorded : RecordedOutputs pool.confirmedUtxos pool.seenTxids)
    {item : Str × MempoolEntry} (hitem : item ∈ pool.entries.items) {outpoint : OutPoint}
    (hspent : outpoint ∈ item.2.transaction.spentOutpoints) :
    exists output, pool.knownOutput outpoint = some output := by
  rcases List.append_of_mem hitem with ⟨before, after, hsplit⟩
  rcases (h.representation hrecorded).provenance before item.1 item.2 after hsplit outpoint
    hspent with hbase | ⟨earlier, output, hearlier, hmade⟩
  · rcases Dict.exists_get?_of_mem_keys hbase with ⟨output, houtput⟩
    exact ⟨output, OutputLedger.source_of_base houtput⟩
  · refine ⟨output, h.known_of_made hrecorded ?_ hmade⟩
    rw [hsplit]
    exact List.mem_append_left _ hearlier

theorem Coherent.spends_nodup (h : pool.Coherent)
    (hrecorded : RecordedOutputs pool.confirmedUtxos pool.seenTxids) :
    (pool.entries.items.flatMap (fun item => item.2.transaction.spentOutpoints)).Nodup := by
  have hnodup := (h.representation hrecorded).spends_nodup
  rw [getTransactions_eq, List.flatMap_map] at hnodup
  exact hnodup

/-!
## Replaying
-/

/-- A confirmed state over which the entries of a pool may be replayed: they are
new to it, and it does not give another output to an outpoint that they spend. -/
structure Replays (pool : Mempool) (base : UTXOSet) (seenTxids : Finset Str)
    (items : List (Str × MempoolEntry)) : Prop where
  sublist : items.Sublist pool.entries.items
  recorded : RecordedOutputs base seenTxids
  new : forall item, item ∈ items -> item.1 ∉ seenTxids
  agrees : forall item, item ∈ items ->
    forall outpoint, outpoint ∈ item.2.transaction.spentOutpoints ->
      forall output, base.get? outpoint = some output ->
        pool.knownOutput outpoint = some output

section Steps

variable {base : UTXOSet} {seenTxids : Finset Str} {items kept rest : List (Str × MempoolEntry)}
  {item : Str × MempoolEntry} {start : Mempool}

theorem Replays.working_iff (h : Replays pool base seenTxids items) (hstart : start.Coherent)
    (hbase : SameBase (fresh pool.limits base seenTxids) start)
    (hkept : start.entries.items = kept) (outpoint : OutPoint) (output : TxOutput) :
    start.workingUtxos.get? outpoint = some output <->
      (base.get? outpoint = some output ∨ exists item, item ∈ kept ∧
          (outpoint, output) ∈ UTXOSet.outputItems item.2.transaction) ∧
        outpoint ∉ kept.flatMap (fun item => item.2.transaction.spentOutpoints) := by
  have hutxos : start.confirmedUtxos = base := hbase.confirmedUtxos
  have hseen : start.seenTxids = seenTxids := hbase.seenTxids
  rw [hstart.working_iff (by rw [hutxos, hseen]; exact h.recorded), hutxos, hkept]

theorem Replays.step_funded (h : Replays pool base seenTxids items) (hpool : pool.Coherent)
    (hrecorded : RecordedOutputs pool.confirmedUtxos pool.seenTxids)
    (hstart : start.Coherent) (hbase : SameBase (fresh pool.limits base seenTxids) start)
    (hkept : start.entries.items = kept) (hsublist : (kept ++ item :: rest).Sublist items)
    (hfunded : Funded base kept item) :
    exists next, start.addTransaction item.2.transaction = (true, next) ∧
      next.entries.items = kept ++ [item] := by
  have hall : (kept ++ item :: rest).Sublist pool.entries.items :=
    hsublist.trans h.sublist
  have hmem : item ∈ kept ++ item :: rest :=
    List.mem_append_right _ List.mem_cons_self
  have hitem : item ∈ pool.entries.items := hall.subset hmem
  have hlimits : start.limits = pool.limits := hbase.limits
  have hseen : start.seenTxids = seenTxids := hbase.seenTxids
  have hkeyed := hpool.keyed item.1 item.2 hitem
  have hkeys : (kept.map Prod.fst ++ item.1 :: rest.map Prod.fst).Nodup := by
    have hnodup := (hall.map Prod.fst).nodup pool.entries.nodupKeys
    rw [List.map_append, List.map_cons] at hnodup
    exact hnodup
  have hspends : forall outpoint, outpoint ∈ item.2.transaction.spentOutpoints ->
      outpoint ∉ kept.flatMap (fun item => item.2.transaction.spentOutpoints) := by
    have hnodup := (hall.flatMap (fun item : Str × MempoolEntry =>
      item.2.transaction.spentOutpoints)).nodup (hpool.spends_nodup hrecorded)
    rw [List.flatMap_append, List.flatMap_cons, List.nodup_append] at hnodup
    intro outpoint hspent hused
    exact hnodup.right.right outpoint hused outpoint (List.mem_append_left _ hspent) rfl
  have hworking := h.working_iff hstart hbase hkept
  have hreads : forall outpoint, outpoint ∈ item.2.transaction.spentOutpoints ->
      exists output, start.workingUtxos.get? outpoint = some output ∧
        pool.knownOutput outpoint = some output := by
    intro outpoint hspent
    rcases hfunded outpoint hspent with hconfirmed | hmade
    · rcases Dict.exists_get?_of_mem_keys hconfirmed with ⟨output, houtput⟩
      exact ⟨output, (hworking outpoint output).mpr ⟨Or.inl houtput, hspends outpoint hspent⟩,
        h.agrees item (hsublist.subset hmem) outpoint hspent output houtput⟩
    · rcases mem_madeBy.mp hmade with ⟨parent, output, hparent, houtput⟩
      refine ⟨output, (hworking outpoint output).mpr
        ⟨Or.inr ⟨parent, hparent, houtput⟩, hspends outpoint hspent⟩, ?_⟩
      exact hpool.known_of_made hrecorded (hall.subset (List.mem_append_left _ hparent))
        houtput
  have haccepted := hpool.accepted_reading hrecorded hitem hreads
  have hnewKey : item.1 ∉ kept.map Prod.fst := by
    intro hold
    exact (List.nodup_append.mp hkeys).right.right item.1 hold item.1 List.mem_cons_self rfl
  have hnew : item.2.transaction.txid ∉
      start.seenTxids ∪ start.entries.keys.toFinset := by
    unfold Dict.keys
    rw [hseen, hkept, Finset.mem_union, List.mem_toFinset, not_or, ← hkeyed.left]
    exact ⟨h.new item (hsublist.subset hmem), hnewKey⟩
  have happlies : Applies start.workingUtxos (UTXOSet.posting item.2.transaction) := by
    refine ⟨haccepted.spends_nodup, fun outpoint hspent => haccepted.spends_present hspent, ?_⟩
    intro entry hentry hused
    have hident : entry.1.1 = item.1 := by
      rw [hkeyed.left]
      exact Posting.created_ident hentry
    rcases Dict.exists_get?_of_mem_keys hused with ⟨output, houtput⟩
    rcases ((hworking entry.1 output).mp houtput).left with hconfirmed | ⟨other, hother, hmade⟩
    · apply h.new item (hsublist.subset hmem)
      rw [← hident]
      exact h.recorded entry.1 (Dict.mem_keys_of_get? hconfirmed)
    · apply hnewKey
      rw [← hident, outputItems_txid hmade,
        ← (hpool.keyed other.1 other.2 (hall.subset (List.mem_append_left _ hother))).left]
      exact List.mem_map_of_mem hother
  have hroom : (start.size : Int) < start.limits.maxTransactions := by
    have hlength := hall.length_le
    have hsize := hpool.size_le
    unfold size Dict.size at *
    rw [List.length_append, List.length_cons] at hlength
    rw [hkept, hlimits]
    omega
  have hbytes : (start.totalBytes + item.2.transaction.encoding.length : Int) ≤
      start.limits.maxBytes := by
    have hsum := (hall.map (fun item : Str × MempoolEntry => item.2.sizeBytes)).sum_le_sum
      (fun size _ => Nat.zero_le size)
    have htotal := hstart.totalBytes_eq
    have hpoolTotal := hpool.totalBytes_eq
    have hpoolBytes := hpool.bytes_le
    unfold Dict.values at htotal hpoolTotal
    rw [List.map_map, hkept] at htotal
    rw [List.map_map] at hpoolTotal
    rw [List.map_append, List.map_cons, List.sum_append, List.sum_cons, hkeyed.right] at hsum
    change start.totalBytes = (kept.map (fun item => item.2.sizeBytes)).sum at htotal
    change pool.totalBytes = (pool.entries.items.map (fun item => item.2.sizeBytes)).sum
      at hpoolTotal
    rw [hlimits]
    omega
  have hadmitted : Admitted start item.2.transaction item.2.fee _ :=
    ⟨hroom, ⟨haccepted, hnew, happlies⟩, hbytes, rfl⟩
  refine ⟨_, addTransaction_of_admitted hadmitted, ?_⟩
  rw [hadmitted.items_eq, hkept, ← hkeyed.left, ← hkeyed.right]

theorem Replays.step_unfunded (h : Replays pool base seenTxids items)
    (hstart : start.Coherent) (hbase : SameBase (fresh pool.limits base seenTxids) start)
    (hkept : start.entries.items = kept) (hfunded : ¬ Funded base kept item) :
    start.addTransaction item.2.transaction = (false, start) := by
  rcases addTransaction_cases start item.2.transaction with hsame | ⟨fee, next, _, hadmitted⟩
  · exact hsame
  · apply absurd _ hfunded
    intro outpoint hspent
    rcases Dict.exists_get?_of_mem_keys
      (hadmitted.processed.accepted.spends_present hspent) with ⟨output, houtput⟩
    rcases ((h.working_iff hstart hbase hkept outpoint output).mp houtput).left with
      hconfirmed | ⟨parent, hparent, hmade⟩
    · exact Or.inl (Dict.mem_keys_of_get? hconfirmed)
    · exact Or.inr (mem_madeBy.mpr ⟨parent, output, hparent, hmade⟩)

end Steps

theorem Replays.replayEntries_items {base : UTXOSet} {seenTxids : Finset Str}
    {items : List (Str × MempoolEntry)} (h : Replays pool base seenTxids items)
    (hpool : pool.Coherent)
    (hrecorded : RecordedOutputs pool.confirmedUtxos pool.seenTxids) :
    ((fresh pool.limits base seenTxids).replayEntries items).entries.items =
      survivors base items := by
  have hloop : forall rest kept start, start.Coherent ->
      SameBase (fresh pool.limits base seenTxids) start -> start.entries.items = kept ->
      (kept ++ rest).Sublist items ->
      (start.replayEntries rest).entries.items = survivorsAfter base kept rest := by
    intro rest
    induction rest with
    | nil =>
        intro kept start _ _ hkept _
        exact hkept
    | cons item rest ih =>
        intro kept start hstart hbase hkept hsublist
        have hnextCoherent := addTransaction_coherent hstart item.2.transaction
        have hnextBase := addTransaction_sameBase start item.2.transaction
        have hstep : start.replayEntries (item :: rest) =
          (start.addTransaction item.2.transaction).2.replayEntries rest := rfl
        rw [hstep]
        unfold survivorsAfter
        by_cases hfunded : Funded base kept item
        · rw [if_pos hfunded]
          rcases h.step_funded hpool hrecorded hstart hbase hkept hsublist hfunded with
            ⟨next, hadd, hitems⟩
          rw [hadd] at hnextCoherent hnextBase ⊢
          apply ih (kept ++ [item]) next hnextCoherent
          · exact ⟨hnextBase.limits.trans hbase.limits,
              hnextBase.confirmedUtxos.trans hbase.confirmedUtxos,
              hnextBase.seenTxids.trans hbase.seenTxids⟩
          · exact hitems
          · rw [List.append_assoc]
            exact hsublist
        · rw [if_neg hfunded, h.step_unfunded hstart hbase hkept hfunded]
          exact ih kept start hstart hbase hkept
            (((List.Sublist.refl kept).append (List.sublist_cons_self item rest)).trans
              hsublist)
  exact hloop items [] _ (fresh_coherent _ _ _) ⟨rfl, rfl, rfl⟩ rfl (List.Sublist.refl _)

end Replays

end Mempool

end PyChain
