import PyChain.Blockchain.Block

/-!
# The pending pool

First-seen transactions validated against the confirmed outputs and the outputs
of earlier pending transactions.  The pool caches a working set and a byte
count.  The representation invariant says that both are exactly what replaying
the entries gives, and every operation keeps it.
-/

namespace PyChain

open Foundation
open OutputLedger (Replay Applies post)

def DEFAULT_MEMPOOL_MAX_TRANSACTIONS : Int := 1000

def DEFAULT_MEMPOOL_MAX_BYTES : Int := 1000000

structure MempoolEntry where
  transaction : Transaction
  fee : Int
  sizeBytes : Nat
deriving DecidableEq, Repr

/-- Positive capacities, as checked by the constructor of the pool. -/
structure MempoolLimits where
  maxTransactions : Int
  maxBytes : Int
  maxTransactions_pos : 1 ≤ maxTransactions
  maxBytes_pos : 1 ≤ maxBytes
deriving DecidableEq

structure Mempool where
  limits : MempoolLimits
  confirmedUtxos : UTXOSet
  seenTxids : Finset Str
  workingUtxos : UTXOSet
  entries : Dict Str MempoolEntry
  totalBytes : Nat
deriving DecidableEq

/-- The message of `_check_limit` for a limit that must be positive. -/
def limitMessage (name : String) : String :=
  name ++ " must be a positive integer"

def checkLimits (maxTransactions maxBytes : Int) : Except PyError MempoolLimits :=
  if hcount : 1 ≤ maxTransactions then
    if hbytes : 1 ≤ maxBytes then
      .ok ⟨maxTransactions, maxBytes, hcount, hbytes⟩
    else .error (.valueError (limitMessage "max_bytes"))
  else .error (.valueError (limitMessage "max_transactions"))

namespace Mempool

section Pools

/-- An empty pool over a confirmed state. -/
def fresh (limits : MempoolLimits) (utxoSet : UTXOSet) (seenTxids : Finset Str) :
    Mempool :=
  { limits := limits
    confirmedUtxos := utxoSet
    seenTxids := seenTxids
    workingUtxos := utxoSet
    entries := Dict.empty
    totalBytes := 0 }

def create (utxoSet : Option UTXOSet) (seenTxids : Option (Finset Str))
    (maxTransactions maxBytes : Int) : Except PyError Mempool := do
  let limits <- checkLimits maxTransactions maxBytes
  match utxoSet, seenTxids with
  | none, none => .ok (fresh limits Dict.empty ∅)
  | some utxos, some seen => .ok (fresh limits utxos seen)
  | _, _ => .error (.valueError "utxo_set and seen_txids must be supplied together")

def size (pool : Mempool) : Nat :=
  pool.entries.size

def copy (pool : Mempool) : Mempool :=
  { fresh pool.limits pool.confirmedUtxos pool.seenTxids with
    workingUtxos := pool.workingUtxos
    entries := pool.entries
    totalBytes := pool.totalBytes }

def hasTransaction (pool : Mempool) (txid : Str) : Bool :=
  pool.entries.contains txid

def getEntry (pool : Mempool) (txid : Str) : Option MempoolEntry :=
  pool.entries.get? txid

def getTransaction (pool : Mempool) (txid : Str) : Option Transaction :=
  (pool.getEntry txid).map MempoolEntry.transaction

def getTransactions (pool : Mempool) : List Transaction :=
  pool.entries.values.map MempoolEntry.transaction

variable [Crypto]

/-- Every exception of the body is caught and means rejection. -/
def addTransaction (pool : Mempool) (transaction : Transaction) : Bool × Mempool :=
  if pool.limits.maxTransactions ≤ pool.size then (false, pool)
  else
    match calculateTransactionFee transaction pool.workingUtxos with
    | .error _ => (false, pool)
    | .ok fee =>
        if transaction.txid ∈ pool.seenTxids ∨
            pool.entries.contains transaction.txid = true then (false, pool)
        else if pool.limits.maxBytes < pool.totalBytes + transaction.encoding.length then
          (false, pool)
        else
          match pool.workingUtxos.applyValidTransaction transaction with
          | .error _ => (false, pool)
          | .ok updatedUtxos =>
              (true,
                { pool with
                  entries := pool.entries.set transaction.txid
                    ⟨transaction, fee, transaction.encoding.length⟩
                  workingUtxos := updatedUtxos
                  totalBytes := pool.totalBytes + transaction.encoding.length })

/-- Replay entries through `add_transaction`, dropping those it rejects. -/
def replayEntries (pool : Mempool) (items : List (Str × MempoolEntry)) : Mempool :=
  items.foldl (fun rebuilt item => (rebuilt.addTransaction item.2.transaction).2) pool

def removeTransaction (pool : Mempool) (txid : Str) : Bool × Mempool :=
  if pool.hasTransaction txid = false then (false, pool)
  else
    let rebuilt := (fresh pool.limits pool.confirmedUtxos pool.seenTxids).replayEntries
      (pool.entries.items.filter (fun item => item.1 ≠ txid))
    (true,
      { pool with
        entries := rebuilt.entries
        workingUtxos := rebuilt.workingUtxos
        totalBytes := rebuilt.totalBytes })

def revalidated (pool : Mempool) (utxoSet : UTXOSet) (seenTxids : Finset Str) : Mempool :=
  (fresh pool.limits utxoSet seenTxids).replayEntries
    (pool.entries.items.filter (fun item => item.1 ∉ seenTxids))

/-!
## The operations
-/

structure Admitted (pool : Mempool) (transaction : Transaction) (fee : Int)
    (next : Mempool) : Prop where
  room : pool.size < pool.limits.maxTransactions
  processed : Processed pool.workingUtxos
    (pool.seenTxids ∪ pool.entries.keys.toFinset) transaction fee
  bytes : (pool.totalBytes + transaction.encoding.length : Int) ≤ pool.limits.maxBytes
  next_eq : next =
    { pool with
      entries := pool.entries.set transaction.txid
        ⟨transaction, fee, transaction.encoding.length⟩
      workingUtxos := post pool.workingUtxos (UTXOSet.posting transaction)
      totalBytes := pool.totalBytes + transaction.encoding.length }

theorem addTransaction_cases (pool : Mempool) (transaction : Transaction) :
    pool.addTransaction transaction = (false, pool) ∨
      exists fee next, pool.addTransaction transaction = (true, next) ∧
        Admitted pool transaction fee next := by
  unfold addTransaction
  by_cases hroom : pool.limits.maxTransactions ≤ pool.size
  · rw [if_pos hroom]
    exact Or.inl rfl
  rw [if_neg hroom]
  cases hfee : calculateTransactionFee transaction pool.workingUtxos with
  | error e =>
      exact Or.inl rfl
  | ok fee =>
      simp only
      by_cases hknown : transaction.txid ∈ pool.seenTxids ∨
          pool.entries.contains transaction.txid = true
      · rw [if_pos hknown]
        exact Or.inl rfl
      rw [if_neg hknown]
      by_cases hbytes :
          pool.limits.maxBytes < pool.totalBytes + transaction.encoding.length
      · rw [if_pos hbytes]
        exact Or.inl rfl
      rw [if_neg hbytes]
      cases happly : pool.workingUtxos.applyValidTransaction transaction with
      | error e =>
          exact Or.inl rfl
      | ok updated =>
          rcases (UTXOSet.applyValidTransaction_eq_ok_iff _ _ _).mp happly with
            ⟨happlies, hupdated⟩
          apply Or.inr
          refine ⟨fee, _, rfl, ?_⟩
          rw [not_or] at hknown
          constructor
          · omega
          · refine ⟨(calculateTransactionFee_eq_ok_iff _ _ _).mp hfee, ?_, happlies⟩
            rw [Finset.mem_union, List.mem_toFinset, not_or, ← Dict.contains_iff]
            exact hknown
          · omega
          · rw [hupdated]

theorem addTransaction_of_admitted {pool next : Mempool} {transaction : Transaction}
    {fee : Int} (h : Admitted pool transaction fee next) :
    pool.addTransaction transaction = (true, next) := by
  have hknown : ¬ (transaction.txid ∈ pool.seenTxids ∨
      pool.entries.contains transaction.txid = true) := by
    have hnew := h.processed.new
    rw [Finset.mem_union, List.mem_toFinset, ← Dict.contains_iff] at hnew
    exact hnew
  have hroom := h.room
  have hbytes := h.bytes
  unfold addTransaction
  rw [if_neg (by omega),
    (calculateTransactionFee_eq_ok_iff _ _ _).mpr h.processed.accepted]
  simp only
  rw [if_neg hknown, if_neg (by omega),
    (UTXOSet.applyValidTransaction_eq_ok_iff _ _ _).mpr ⟨h.processed.applies, rfl⟩,
    h.next_eq]

/-!
## The representation invariant

The core of the invariant is that the entries, replayed in insertion order,
process successfully from the confirmed state to the working set.
-/

structure Coherent (pool : Mempool) : Prop where
  processes : Processes pool.confirmedUtxos pool.seenTxids pool.getTransactions
    (pool.entries.values.map MempoolEntry.fee) pool.workingUtxos
  keyed : forall txid entry, (txid, entry) ∈ pool.entries.items ->
    txid = entry.transaction.txid ∧
      entry.sizeBytes = entry.transaction.encoding.length
  totalBytes_eq : pool.totalBytes = (pool.entries.values.map MempoolEntry.sizeBytes).sum
  size_le : (pool.size : Int) ≤ pool.limits.maxTransactions
  bytes_le : (pool.totalBytes : Int) ≤ pool.limits.maxBytes

theorem fresh_coherent (limits : MempoolLimits) (utxoSet : UTXOSet)
    (seenTxids : Finset Str) : (fresh limits utxoSet seenTxids).Coherent where
  processes := Processes.nil _ _
  keyed := by
    intro txid entry hmem
    cases hmem
  totalBytes_eq := rfl
  size_le := by
    have hpos := limits.maxTransactions_pos
    change ((0 : Nat) : Int) ≤ limits.maxTransactions
    omega
  bytes_le := by
    have hpos := limits.maxBytes_pos
    change ((0 : Nat) : Int) ≤ limits.maxBytes
    omega

theorem Coherent.keys_eq {pool : Mempool} (h : pool.Coherent) :
    pool.entries.keys = pool.getTransactions.map Transaction.txid := by
  unfold getTransactions Dict.keys Dict.values
  rw [List.map_map, List.map_map]
  apply List.map_congr_left
  intro item hitem
  exact (h.keyed item.1 item.2 hitem).left

theorem Coherent.txid_mem_keys {pool : Mempool} (h : pool.Coherent)
    {item : Str × MempoolEntry} (hitem : item ∈ pool.entries.items) :
    item.2.transaction.txid ∈ pool.entries.keys :=
  List.mem_map.mpr ⟨item, hitem, (h.keyed item.1 item.2 hitem).left⟩

theorem addTransaction_coherent {pool : Mempool} (h : pool.Coherent)
    (transaction : Transaction) : (pool.addTransaction transaction).2.Coherent := by
  rcases addTransaction_cases pool transaction with hsame | ⟨fee, next, heq, hadmitted⟩
  · rw [hsame]
    exact h
  rw [heq, hadmitted.next_eq]
  have hnew : transaction.txid ∉ pool.entries.keys := by
    intro hmem
    apply hadmitted.processed.new
    exact Finset.mem_union_right _ (List.mem_toFinset.mpr hmem)
  have hitems := Dict.items_set_of_not_mem
    (⟨transaction, fee, transaction.encoding.length⟩ : MempoolEntry) hnew
  have hseen : seenAfter pool.seenTxids pool.getTransactions =
      pool.seenTxids ∪ pool.entries.keys.toFinset := by
    unfold seenAfter
    rw [h.keys_eq]
  constructor
  · have hprocessed := hadmitted.processed
    rw [← hseen] at hprocessed
    have hsnoc := h.processes.snoc hprocessed
    simpa [getTransactions, Dict.values, hitems] using hsnoc
  · intro txid entry hmem
    simp only [hitems, List.mem_append, List.mem_singleton, Prod.mk.injEq] at hmem
    rcases hmem with hold | ⟨htxid, hentry⟩
    · exact h.keyed txid entry hold
    · rw [htxid, hentry]
      exact ⟨rfl, rfl⟩
  · have htotal := h.totalBytes_eq
    unfold Dict.values at htotal
    simp [Dict.values, hitems, htotal]
  · have hroom := hadmitted.room
    have hlength : (pool.entries.set transaction.txid
        ⟨transaction, fee, transaction.encoding.length⟩).size = pool.size + 1 := by
      simp [Dict.size, size, hitems]
    simp only [size, hlength]
    unfold size at hroom
    omega
  · have hbytes := hadmitted.bytes
    simp only
    omega

/-!
## Replaying entries
-/

/-- A pool keeps its confirmed state and its limits. -/
structure SameBase (pool other : Mempool) : Prop where
  limits : other.limits = pool.limits
  confirmedUtxos : other.confirmedUtxos = pool.confirmedUtxos
  seenTxids : other.seenTxids = pool.seenTxids

theorem addTransaction_sameBase (pool : Mempool) (transaction : Transaction) :
    SameBase pool (pool.addTransaction transaction).2 := by
  rcases addTransaction_cases pool transaction with hsame | ⟨fee, next, heq, hadmitted⟩
  · rw [hsame]
    exact ⟨rfl, rfl, rfl⟩
  · rw [heq, hadmitted.next_eq]
    exact ⟨rfl, rfl, rfl⟩

theorem replayEntries_invariant {P : Mempool -> Prop}
    (hstep : forall pool transaction, P pool -> P (pool.addTransaction transaction).2)
    (items : List (Str × MempoolEntry)) :
    forall pool : Mempool, P pool -> P (pool.replayEntries items) := by
  induction items with
  | nil =>
      intro pool h
      exact h
  | cons item rest ih =>
      intro pool h
      exact ih _ (hstep pool item.2.transaction h)

theorem replayEntries_coherent {pool : Mempool} (h : pool.Coherent)
    (items : List (Str × MempoolEntry)) : (pool.replayEntries items).Coherent :=
  replayEntries_invariant (P := Coherent)
    (fun _ transaction hpool => addTransaction_coherent hpool transaction) items pool h

theorem replayEntries_sameBase (pool : Mempool) (items : List (Str × MempoolEntry)) :
    SameBase pool (pool.replayEntries items) := by
  apply replayEntries_invariant (P := SameBase pool)
  · intro other transaction h
    rcases addTransaction_sameBase other transaction with ⟨hlimits, hutxos, hseen⟩
    exact ⟨hlimits.trans h.limits, hutxos.trans h.confirmedUtxos, hseen.trans h.seenTxids⟩
  · exact ⟨rfl, rfl, rfl⟩

theorem removeTransaction_cases (pool : Mempool) (txid : Str) :
    pool.removeTransaction txid = (false, pool) ∨
      (txid ∈ pool.entries.keys ∧
        pool.removeTransaction txid =
          (true, (fresh pool.limits pool.confirmedUtxos pool.seenTxids).replayEntries
            (pool.entries.items.filter (fun item => item.1 ≠ txid)))) := by
  unfold removeTransaction
  by_cases hknown : pool.hasTransaction txid = false
  · rw [if_pos hknown]
    exact Or.inl rfl
  · rw [if_neg hknown]
    apply Or.inr
    constructor
    · rw [← Dict.contains_iff]
      simpa [hasTransaction] using hknown
    · have hbase := replayEntries_sameBase
        (fresh pool.limits pool.confirmedUtxos pool.seenTxids)
        (pool.entries.items.filter (fun item => item.1 ≠ txid))
      generalize (fresh pool.limits pool.confirmedUtxos pool.seenTxids).replayEntries
        (pool.entries.items.filter (fun item => item.1 ≠ txid)) = rebuilt at hbase
      rcases hbase with ⟨hlimits, hutxos, hseen⟩
      cases rebuilt
      simp only [fresh] at hlimits hutxos hseen
      subst hlimits
      subst hutxos
      subst hseen
      rfl

theorem removeTransaction_coherent {pool : Mempool} (h : pool.Coherent) (txid : Str) :
    (pool.removeTransaction txid).2.Coherent := by
  rcases removeTransaction_cases pool txid with hsame | ⟨_, hremoved⟩
  · rw [hsame]
    exact h
  · rw [hremoved]
    exact replayEntries_coherent (fresh_coherent _ _ _) _

theorem removeTransaction_sameBase (pool : Mempool) (txid : Str) :
    SameBase pool (pool.removeTransaction txid).2 := by
  rcases removeTransaction_cases pool txid with hsame | ⟨_, hremoved⟩
  · rw [hsame]
    exact ⟨rfl, rfl, rfl⟩
  · rw [hremoved]
    rcases replayEntries_sameBase (fresh pool.limits pool.confirmedUtxos pool.seenTxids)
      (pool.entries.items.filter (fun item => item.1 ≠ txid)) with ⟨hlimits, hutxos, hseen⟩
    exact ⟨hlimits, hutxos, hseen⟩

theorem revalidated_coherent (pool : Mempool) (utxoSet : UTXOSet)
    (seenTxids : Finset Str) : (pool.revalidated utxoSet seenTxids).Coherent :=
  replayEntries_coherent (fresh_coherent _ _ _) _

theorem revalidated_sameBase (pool : Mempool) (utxoSet : UTXOSet)
    (seenTxids : Finset Str) :
    SameBase (fresh pool.limits utxoSet seenTxids) (pool.revalidated utxoSet seenTxids) :=
  replayEntries_sameBase _ _

/-!
## Admitting a list

A coherent pool is what admitting its own transactions one by one, from an
empty pool over the same state, gives back.
-/

/-- Admissions of a list of transactions that all succeed. -/
inductive AdmitsAll : Mempool -> List Transaction -> Mempool -> Prop where
  | nil (pool : Mempool) : AdmitsAll pool [] pool
  | cons {pool middle next : Mempool} {transaction : Transaction}
      {rest : List Transaction} :
      pool.addTransaction transaction = (true, middle) -> AdmitsAll middle rest next ->
      AdmitsAll pool (transaction :: rest) next

theorem AdmitsAll.nil_inv {pool next : Mempool} (h : AdmitsAll pool [] next) :
    next = pool := by
  cases h
  rfl

theorem AdmitsAll.cons_inv {pool next : Mempool} {transaction : Transaction}
    {rest : List Transaction} (h : AdmitsAll pool (transaction :: rest) next) :
    exists middle, pool.addTransaction transaction = (true, middle) ∧
      AdmitsAll middle rest next := by
  cases h with
  | cons hadd hrest => exact ⟨_, hadd, hrest⟩

theorem Admitted.items_eq {pool next : Mempool} {transaction : Transaction} {fee : Int}
    (h : Admitted pool transaction fee next) :
    next.entries.items = pool.entries.items ++
      [(transaction.txid, ⟨transaction, fee, transaction.encoding.length⟩)] := by
  have hnew : transaction.txid ∉ pool.entries.keys := by
    intro hmem
    apply h.processed.new
    exact Finset.mem_union_right _ (List.mem_toFinset.mpr hmem)
  rw [h.next_eq]
  exact Dict.items_set_of_not_mem _ hnew

theorem addTransaction_size_le (pool : Mempool) (transaction : Transaction) :
    (pool.addTransaction transaction).2.size ≤ pool.size + 1 := by
  rcases addTransaction_cases pool transaction with hsame | ⟨fee, next, heq, hadmitted⟩
  · rw [hsame]
    exact Nat.le_succ _
  · rw [heq]
    unfold size Dict.size
    rw [hadmitted.items_eq, List.length_append]
    exact Nat.le_refl _

theorem replayEntries_size_le (items : List (Str × MempoolEntry)) :
    forall pool : Mempool, (pool.replayEntries items).size ≤ pool.size + items.length := by
  induction items with
  | nil =>
      intro pool
      exact Nat.le_refl _
  | cons item rest ih =>
      intro pool
      have hfirst := addTransaction_size_le pool item.2.transaction
      have hrest := ih (pool.addTransaction item.2.transaction).2
      rw [List.length_cons]
      change ((pool.addTransaction item.2.transaction).2.replayEntries rest).size ≤ _
      omega

theorem replay_filter_size_le (limits : MempoolLimits) (utxoSet : UTXOSet)
    (seenTxids : Finset Str) (pool : Mempool) (p : Str × MempoolEntry -> Bool) :
    ((fresh limits utxoSet seenTxids).replayEntries (pool.entries.items.filter p)).size ≤
      pool.size := by
  have hsize := replayEntries_size_le (pool.entries.items.filter p)
    (fresh limits utxoSet seenTxids)
  have hfilter : (pool.entries.items.filter p).length ≤ pool.size :=
    List.length_filter_le p pool.entries.items
  have hempty : (fresh limits utxoSet seenTxids).size = 0 := rfl
  omega

theorem admitted_of_addTransaction {pool next : Mempool} {transaction : Transaction}
    (h : pool.addTransaction transaction = (true, next)) :
    exists fee, Admitted pool transaction fee next := by
  rcases addTransaction_cases pool transaction with hsame | ⟨fee, other, heq, hadmitted⟩
  · rw [hsame] at h
    cases h
  · rw [heq] at h
    cases h
    exact ⟨fee, hadmitted⟩

theorem AdmitsAll.spec {pool next : Mempool} {transactions : List Transaction}
    (h : AdmitsAll pool transactions next) :
    (pool.Coherent -> next.Coherent) ∧ SameBase pool next ∧
      next.getTransactions = pool.getTransactions ++ transactions := by
  induction h with
  | nil pool =>
      refine ⟨id, ⟨rfl, rfl, rfl⟩, ?_⟩
      rw [List.append_nil]
  | @cons pool middle next transaction rest hadd _ ih =>
      rcases ih with ⟨hcoherent, hbase, htransactions⟩
      have hfirst := addTransaction_sameBase pool transaction
      rw [hadd] at hfirst
      refine ⟨?_, ?_, ?_⟩
      · intro hpool
        have hmiddle := addTransaction_coherent hpool transaction
        rw [hadd] at hmiddle
        exact hcoherent hmiddle
      · exact ⟨hbase.limits.trans hfirst.limits,
          hbase.confirmedUtxos.trans hfirst.confirmedUtxos,
          hbase.seenTxids.trans hfirst.seenTxids⟩
      · rcases admitted_of_addTransaction hadd with ⟨fee, hadmitted⟩
        rw [htransactions]
        unfold getTransactions Dict.values
        rw [hadmitted.items_eq]
        simp

theorem AdmitsAll.of_entries (entries : List (Str × MempoolEntry)) :
    forall (pool next : Mempool),
      Processes pool.workingUtxos (pool.seenTxids ∪ pool.entries.keys.toFinset)
        (entries.map (fun item => item.2.transaction))
        (entries.map (fun item => item.2.fee)) next.workingUtxos ->
      (forall item, item ∈ entries -> item.1 = item.2.transaction.txid ∧
        item.2.sizeBytes = item.2.transaction.encoding.length) ->
      SameBase pool next ->
      next.entries.items = pool.entries.items ++ entries ->
      next.totalBytes =
        pool.totalBytes + (entries.map (fun item => item.2.sizeBytes)).sum ->
      (next.size : Int) ≤ next.limits.maxTransactions ->
      (next.totalBytes : Int) ≤ next.limits.maxBytes ->
      AdmitsAll pool (entries.map (fun item => item.2.transaction)) next := by
  induction entries with
  | nil =>
      intro pool next hprocesses _ hbase hitems htotal _ _
      have hworking : next.workingUtxos = pool.workingUtxos := hprocesses.nil_inv
      have hentries : next.entries = pool.entries :=
        Dict.ext_items (by rw [hitems, List.append_nil])
      have heq : next = pool := by
        rcases hbase with ⟨hlimits, hutxos, hseen⟩
        cases pool
        cases next
        simp only [Mempool.mk.injEq]
        exact ⟨hlimits, hutxos, hseen, hworking, hentries, htotal⟩
      rw [heq]
      exact AdmitsAll.nil pool
  | cons item rest ih =>
      intro pool next hprocesses hkeyed hbase hitems htotal hsize hbytes
      rcases item with ⟨txid, entry⟩
      rcases List.forall_mem_cons.mp hkeyed with ⟨⟨hkey, hentrySize⟩, hrestKeyed⟩
      simp only at hkey hentrySize
      simp only [List.map_cons, List.sum_cons] at hprocesses htotal ⊢
      cases hprocesses with
      | cons hprocessed hrest =>
          have hadmitted : Admitted pool entry.transaction entry.fee
              { pool with
                entries := pool.entries.set entry.transaction.txid
                  ⟨entry.transaction, entry.fee, entry.transaction.encoding.length⟩
                workingUtxos := post pool.workingUtxos (UTXOSet.posting entry.transaction)
                totalBytes := pool.totalBytes + entry.transaction.encoding.length } := by
            refine ⟨?_, hprocessed, ?_, rfl⟩
            · unfold size Dict.size at hsize
              unfold size Dict.size
              rw [hitems, List.length_append, List.length_cons, hbase.limits] at hsize
              omega
            · rw [htotal, hbase.limits] at hbytes
              omega
          have hentry : ((entry.transaction.txid,
              (⟨entry.transaction, entry.fee, entry.transaction.encoding.length⟩ :
                MempoolEntry)) : Str × MempoolEntry) = (txid, entry) := by
            rw [hkey, ← hentrySize]
          have hmiddleItems := hadmitted.items_eq
          rw [hentry] at hmiddleItems
          refine AdmitsAll.cons (addTransaction_of_admitted hadmitted) (ih _ next ?_
            hrestKeyed ⟨hbase.limits, hbase.confirmedUtxos, hbase.seenTxids⟩ ?_ ?_ hsize
            hbytes)
          · have hseen : pool.seenTxids ∪ (pool.entries.set entry.transaction.txid
                ⟨entry.transaction, entry.fee,
                  entry.transaction.encoding.length⟩).keys.toFinset =
                insert entry.transaction.txid
                  (pool.seenTxids ∪ pool.entries.keys.toFinset) := by
              ext other
              unfold Dict.keys
              rw [hmiddleItems]
              simp only [Finset.mem_union, List.mem_toFinset, List.map_append,
                List.mem_append, List.map_cons, List.map_nil, List.mem_singleton,
                Finset.mem_insert, hkey]
              rw [← or_assoc]
              exact or_comm
            simp only [hseen]
            exact hrest
          · rw [hmiddleItems, hitems, List.append_assoc]
            rfl
          · rw [htotal, hentrySize]
            simp only
            omega

theorem Coherent.admitsAll {pool : Mempool} (h : pool.Coherent) :
    AdmitsAll (fresh pool.limits pool.confirmedUtxos pool.seenTxids) pool.getTransactions
      pool := by
  have htransactions : pool.getTransactions =
      pool.entries.items.map (fun item => item.2.transaction) := by
    unfold getTransactions Dict.values
    rw [List.map_map]
    rfl
  have hprocesses := h.processes
  have htotal := h.totalBytes_eq
  rw [htransactions] at hprocesses
  unfold Dict.values at hprocesses htotal
  rw [List.map_map] at hprocesses htotal
  rw [htransactions]
  apply AdmitsAll.of_entries
  · have hseen : pool.seenTxids ∪ (Dict.empty : Dict Str MempoolEntry).keys.toFinset =
        pool.seenTxids := by
      simp
    simp only [fresh, hseen]
    exact hprocesses
  · intro item hitem
    exact h.keyed item.1 item.2 hitem
  · exact ⟨rfl, rfl, rfl⟩
  · rfl
  · simp only [fresh, Nat.zero_add]
    exact htotal
  · exact h.size_le
  · exact h.bytes_le

/-!
## What the invariant says

Over a confirmed state whose outputs belong to recorded transactions, a coherent
pool never spends an output twice, and every input of an entry is
confirmed or made by an earlier entry.
-/

/-- The representation invariant of the pool, field by field. -/
structure Representation (pool : Mempool) : Prop where
  working : pool.getTransactions.foldlM UTXOSet.applyValidTransaction
    pool.confirmedUtxos = .ok pool.workingUtxos
  keyed : forall txid entry, (txid, entry) ∈ pool.entries.items ->
    txid = entry.transaction.txid ∧ txid ∉ pool.seenTxids
  spends_nodup : (pool.getTransactions.flatMap Transaction.spentOutpoints).Nodup
  provenance : forall before txid entry after,
    pool.entries.items = before ++ (txid, entry) :: after ->
    forall outpoint, outpoint ∈ entry.transaction.spentOutpoints ->
      outpoint ∈ pool.confirmedUtxos.keys ∨
        exists earlier output, earlier ∈ before ∧
          (outpoint, output) ∈ UTXOSet.outputItems earlier.2.transaction
  fees : forall before txid entry after,
    pool.entries.items = before ++ (txid, entry) :: after ->
    exists working,
      (before.map (fun item => item.2.transaction)).foldlM
          UTXOSet.applyValidTransaction pool.confirmedUtxos = .ok working ∧
        calculateTransactionFee entry.transaction working = .ok entry.fee
  sizes : forall txid entry, (txid, entry) ∈ pool.entries.items ->
    entry.sizeBytes = (Json.serialize (entry.transaction.toDict true)).length
  totalBytes_eq : pool.totalBytes = (pool.entries.values.map MempoolEntry.sizeBytes).sum
  size_le : (pool.size : Int) ≤ pool.limits.maxTransactions
  bytes_le : (pool.totalBytes : Int) ≤ pool.limits.maxBytes

theorem Coherent.representation {pool : Mempool} (h : pool.Coherent)
    (hrecorded : RecordedOutputs pool.confirmedUtxos pool.seenTxids) :
    pool.Representation := by
  have hexact := OutputLedger.replay_exact (h.processes.freshIdents hrecorded)
    h.processes.replay
  have hsplit : forall before txid entry after,
      pool.entries.items = before ++ (txid, entry) :: after ->
      pool.getTransactions = before.map (fun item => item.2.transaction) ++
        entry.transaction :: after.map (fun item => item.2.transaction) := by
    intro before txid entry after hitems
    unfold getTransactions Dict.values
    rw [List.map_map, hitems, List.map_append, List.map_cons]
    rfl
  constructor
  · exact (foldlM_applyValidTransaction_eq_ok_iff _ _ _).mpr h.processes.replay
  · intro txid entry hmem
    have hkey := (h.keyed txid entry hmem).left
    refine ⟨hkey, ?_⟩
    rw [hkey]
    apply h.processes.txids_new.right
    unfold getTransactions Dict.values
    rw [List.map_map]
    exact List.mem_map.mpr ⟨(txid, entry), hmem, rfl⟩
  · have hnodup := hexact.spends_nodup
    unfold OutputLedger.spentBy postings at hnodup
    rw [List.flatMap_map] at hnodup
    exact hnodup
  · intro before txid entry after hitems outpoint hspent
    have hhistory : postings pool.getTransactions =
        postings (before.map (fun item => item.2.transaction)) ++
          UTXOSet.posting entry.transaction ::
            postings (after.map (fun item => item.2.transaction)) := by
      rw [hsplit before txid entry after hitems]
      unfold postings
      rw [List.map_append, List.map_cons]
    rcases hexact.provenance _ _ _ hhistory outpoint hspent with hbase | ⟨output, hcreated⟩
    · exact Or.inl hbase
    · apply Or.inr
      rcases List.mem_flatMap.mp hcreated with ⟨p, hp, hmem⟩
      rcases List.mem_map.mp hp with ⟨transaction, htransaction, hposting⟩
      rcases List.mem_map.mp htransaction with ⟨earlier, hearlier, heq⟩
      subst hposting
      subst heq
      exact ⟨earlier, output, hearlier, hmem⟩
  · intro before txid entry after hitems
    rcases h.processes.accepted_at _ _ _ (hsplit before txid entry after hitems) with
      ⟨working, fee, hfee, hreplay, haccepted, _⟩
    refine ⟨working, (foldlM_applyValidTransaction_eq_ok_iff _ _ _).mpr hreplay, ?_⟩
    have hentryFee : fee = entry.fee := by
      unfold Dict.values at hfee
      rw [hitems] at hfee
      simpa using hfee.symm
    rw [← hentryFee]
    exact (calculateTransactionFee_eq_ok_iff _ _ _).mpr haccepted
  · intro txid entry hmem
    exact (h.keyed txid entry hmem).right
  · exact h.totalBytes_eq
  · exact h.size_le
  · exact h.bytes_le

/-!
## Every reachable pool
-/

/-- Pools built by the constructor and the four operations, always over
confirmed states whose outputs are recorded. -/
inductive Reachable : Mempool -> Prop where
  | create {utxoSet : UTXOSet} {seenTxids : Finset Str} {maxTransactions maxBytes : Int}
      {pool : Mempool} : RecordedOutputs utxoSet seenTxids ->
      create (some utxoSet) (some seenTxids) maxTransactions maxBytes = .ok pool ->
      Reachable pool
  | createEmpty {maxTransactions maxBytes : Int} {pool : Mempool} :
      create none none maxTransactions maxBytes = .ok pool -> Reachable pool
  | addTransaction {pool : Mempool} (transaction : Transaction) :
      Reachable pool -> Reachable (pool.addTransaction transaction).2
  | removeTransaction {pool : Mempool} (txid : Str) :
      Reachable pool -> Reachable (pool.removeTransaction txid).2
  | copy {pool : Mempool} : Reachable pool -> Reachable pool.copy
  | revalidated {pool : Mempool} {utxoSet : UTXOSet} {seenTxids : Finset Str} :
      RecordedOutputs utxoSet seenTxids -> Reachable pool ->
      Reachable (pool.revalidated utxoSet seenTxids)

omit [Crypto] in
theorem create_fresh {utxoSet : Option UTXOSet} {seenTxids : Option (Finset Str)}
    {maxTransactions maxBytes : Int} {pool : Mempool}
    (h : create utxoSet seenTxids maxTransactions maxBytes = .ok pool) :
    exists limits, pool = fresh limits (utxoSet.getD Dict.empty) (seenTxids.getD ∅) := by
  unfold create at h
  rcases bind_eq_ok_iff.mp h with ⟨limits, _, h⟩
  exists limits
  match utxoSet, seenTxids with
  | none, none => exact (Except.ok.inj h).symm
  | some utxos, some seen => exact (Except.ok.inj h).symm

theorem reachable_coherent {pool : Mempool} (h : Reachable pool) :
    pool.Coherent ∧ RecordedOutputs pool.confirmedUtxos pool.seenTxids := by
  induction h with
  | create hrecorded hcreate =>
      rcases create_fresh hcreate with ⟨limits, hpool⟩
      subst hpool
      exact ⟨fresh_coherent _ _ _, hrecorded⟩
  | createEmpty hcreate =>
      rcases create_fresh hcreate with ⟨limits, hpool⟩
      subst hpool
      refine ⟨fresh_coherent _ _ _, ?_⟩
      intro outpoint hmem
      cases hmem
  | @addTransaction pool transaction _ ih =>
      rcases addTransaction_sameBase pool transaction with ⟨_, hutxos, hseen⟩
      refine ⟨addTransaction_coherent ih.left transaction, ?_⟩
      rw [hutxos, hseen]
      exact ih.right
  | @removeTransaction pool txid _ ih =>
      rcases removeTransaction_sameBase pool txid with ⟨_, hutxos, hseen⟩
      refine ⟨removeTransaction_coherent ih.left txid, ?_⟩
      rw [hutxos, hseen]
      exact ih.right
  | copy _ ih =>
      exact ih
  | @revalidated pool utxoSet seenTxids hrecorded _ _ =>
      rcases revalidated_sameBase pool utxoSet seenTxids with ⟨_, hutxos, hseen⟩
      refine ⟨revalidated_coherent pool utxoSet seenTxids, ?_⟩
      rw [hutxos, hseen]
      exact hrecorded

/-- Every reachable pool satisfies its representation invariant, and a call
that answers false changes nothing. -/
theorem reachable_representation {pool : Mempool} (h : Reachable pool) :
    pool.Representation ∧
      (forall transaction, (pool.addTransaction transaction).1 = false ->
        (pool.addTransaction transaction).2 = pool) ∧
      (forall txid, (pool.removeTransaction txid).1 = false ->
        (pool.removeTransaction txid).2 = pool) := by
  rcases reachable_coherent h with ⟨hcoherent, hrecorded⟩
  refine ⟨hcoherent.representation hrecorded, ?_, ?_⟩
  · intro transaction hfalse
    rcases addTransaction_cases pool transaction with hsame | ⟨fee, next, heq, _⟩
    · rw [hsame]
    · rw [heq] at hfalse
      cases hfalse
  · intro txid hfalse
    rcases removeTransaction_cases pool txid with hsame | ⟨_, hremoved⟩
    · rw [hsame]
    · rw [hremoved] at hfalse
      cases hfalse

end Pools

end Mempool

namespace Sample

def limits : MempoolLimits :=
  ⟨DEFAULT_MEMPOOL_MAX_TRANSACTIONS, DEFAULT_MEMPOOL_MAX_BYTES, by decide, by decide⟩

/-- The confirmed state after the second block. -/
def settled : UTXOSet :=
  { items := [((secondCoinbaseTxid, 0), ⟨70, address⟩), ((transferTxid, 0), ⟨30, address⟩)]
    nodupKeys := by decide +kernel }

def settledTxids : Finset Str :=
  {coinbaseTxid, secondCoinbaseTxid, transferTxid}

/-- The pool of that state with a list of payments. -/
def payments (transactions : List Transaction) : Mempool :=
  transactions.foldl (fun pool transaction => (@Mempool.addTransaction familyCrypto pool
    transaction).2) (Mempool.fresh limits settled settledTxids)

/-- A parent, its child, and a payment that needs neither. -/
def family : Mempool :=
  payments [parent, child, spare]

theorem settled_recorded : RecordedOutputs settled settledTxids := by
  intro outpoint hmem
  rcases List.mem_cons.mp hmem with hcoinbase | htransfer
  · rw [hcoinbase]
    exact Finset.mem_insert_of_mem (Finset.mem_insert_self _ _)
  · rw [List.mem_singleton.mp htransfer]
    exact Finset.mem_insert_of_mem (Finset.mem_insert_of_mem (Finset.mem_singleton_self _))

theorem payments_reachable (transactions : List Transaction) :
    @Mempool.Reachable familyCrypto (payments transactions) := by
  have hcreate : Mempool.create (some settled) (some settledTxids)
      DEFAULT_MEMPOOL_MAX_TRANSACTIONS DEFAULT_MEMPOOL_MAX_BYTES =
        .ok (Mempool.fresh limits settled settledTxids) := rfl
  have hfold : forall pool, @Mempool.Reachable familyCrypto pool ->
      @Mempool.Reachable familyCrypto (transactions.foldl (fun pool transaction =>
        (@Mempool.addTransaction familyCrypto pool transaction).2) pool) := by
    induction transactions with
    | nil => exact fun pool h => h
    | cons transaction rest ih =>
        exact fun pool h => ih _ (@Mempool.Reachable.addTransaction familyCrypto _ _ h)
  exact hfold _ (@Mempool.Reachable.create familyCrypto _ _ _ _ _ settled_recorded hcreate)

/-- The spare payment and its heir are gone again. -/
def pruned : Mempool :=
  (@Mempool.removeTransaction familyCrypto (payments [parent, spare, heir, child])
    spareTxid).2

theorem pruned_reachable : @Mempool.Reachable familyCrypto pruned :=
  @Mempool.Reachable.removeTransaction familyCrypto _ _ (payments_reachable _)

theorem pruned_contents :
    (payments [parent, spare, heir, child]).entries.keys =
        [parentTxid, spareTxid, heirTxid, childTxid] ∧
      pruned.entries.keys = [parentTxid, childTxid] := by
  decide +kernel

end Sample

/-- A parent and its child remain when another payment is removed with its heir. -/
theorem Mempool.reachable_representation_pruned :
    @Mempool.Reachable Sample.familyCrypto Sample.pruned ∧
      Sample.pruned.entries.keys = [Sample.parentTxid, Sample.childTxid] ∧
      @Mempool.Representation Sample.familyCrypto Sample.pruned :=
  ⟨Sample.pruned_reachable, Sample.pruned_contents.right,
    (@Mempool.reachable_representation Sample.familyCrypto _ Sample.pruned_reachable).left⟩

end PyChain
