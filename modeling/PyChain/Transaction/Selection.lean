import Mathlib.Algebra.Order.BigOperators.Group.List
import Mathlib.Algebra.Order.Group.Nat
import Mathlib.Data.List.Sort
import Mathlib.Data.Rat.Init
import PyChain.Transaction.Mempool

/-!
# Selecting pending transactions

A miner takes pending transactions by descending fee rate, each one after its
pending parents.  The selection reorders the pool, and this module shows that
every such order processes from the confirmed state with the cached fees.
-/

namespace PyChain

open Foundation
open OutputLedger (Replay Applies Rearranges post)

def DEFAULT_BLOCK_MAX_TRANSACTIONS : Int := 100

def DEFAULT_BLOCK_MAX_BYTES : Int := 100000

namespace Mempool

def feeRate (entry : MempoolEntry) : Rat :=
  mkRat entry.fee entry.sizeBytes

/-- The sort key is the negated fee rate and then the identifier. -/
def RanksBefore (item other : Str × MempoolEntry) : Prop :=
  feeRate other.2 < feeRate item.2 ∨
    (feeRate item.2 = feeRate other.2 ∧ item.1 ≤ other.1)

instance : DecidableRel RanksBefore :=
  fun _ _ => inferInstanceAs (Decidable (_ ∨ _))

def ranked (pool : Mempool) : List (Str × MempoolEntry) :=
  pool.entries.items.insertionSort RanksBefore

/-- The pending parents of an entry. -/
def parents (pool : Mempool) (entry : MempoolEntry) : List Str :=
  (entry.transaction.inputs.map TxInput.previousTxId).filter
    (fun txid => pool.entries.contains txid)

/-- Whether the loop takes an entry next. -/
def selectable (pool : Mempool) (maxBytes : Int) (selected : List (Str × MempoolEntry))
    (totalBytes : Nat) (item : Str × MempoolEntry) : Bool :=
  !(selected.map Prod.fst).contains item.1 &&
    (pool.parents item.2).all (fun txid => (selected.map Prod.fst).contains txid) &&
    decide ((totalBytes + item.2.sizeBytes : Int) ≤ maxBytes)

/-- The selection loop; its first argument is the room left. -/
def selectLoop (pool : Mempool) (maxBytes : Int) :
    Nat -> List (Str × MempoolEntry) -> Nat -> List (Str × MempoolEntry)
  | 0, selected, _ => selected
  | room + 1, selected, totalBytes =>
      match pool.ranked.find? (pool.selectable maxBytes selected totalBytes) with
      | none => selected
      | some item =>
          selectLoop pool maxBytes room (selected ++ [item])
            (totalBytes + item.2.sizeBytes)

/-- The entries that are selected, in the order of selection. -/
def selectedEntries (pool : Mempool) (maxTransactions maxBytes : Int) :
    List (Str × MempoolEntry) :=
  pool.selectLoop maxBytes maxTransactions.toNat [] 0

/-- The message of `_check_limit` for a limit that may be zero. -/
def checkSelectionLimit (value : Int) (name : String) : Except PyError Unit :=
  require (0 ≤ value) (PyError.valueError (name ++ " must be a non-negative integer"))

def selectTransactions (pool : Mempool) (maxTransactions maxBytes : Int) :
    Except PyError (List Transaction) := do
  checkSelectionLimit maxTransactions "max_transactions"
  checkSelectionLimit maxBytes "max_bytes"
  return (pool.selectedEntries maxTransactions maxBytes).map (fun item => item.2.transaction)

/-!
## What the loop selects
-/

/-- Distinct entries of the pool, each after its pending parents. -/
structure Selects (pool : Mempool) (selected : List (Str × MempoolEntry)) : Prop where
  nodup : (selected.map Prod.fst).Nodup
  subset : forall item, item ∈ selected -> item ∈ pool.entries.items
  ready : forall before item after, selected = before ++ item :: after ->
    forall txid, txid ∈ pool.parents item.2 -> txid ∈ before.map Prod.fst

theorem selects_nil (pool : Mempool) : Selects pool [] where
  nodup := List.nodup_nil
  subset := by
    intro item hitem
    cases hitem
  ready := by
    intro before item after heq
    simp at heq

theorem Selects.snoc {pool : Mempool} {selected : List (Str × MempoolEntry)}
    (h : Selects pool selected) {item : Str × MempoolEntry} (hmem : item ∈ pool.entries.items)
    (hnew : item.1 ∉ selected.map Prod.fst)
    (hparents : forall txid, txid ∈ pool.parents item.2 -> txid ∈ selected.map Prod.fst) :
    Selects pool (selected ++ [item]) where
  nodup := by
    rw [List.map_append, List.nodup_append]
    refine ⟨h.nodup, List.nodup_singleton _, ?_⟩
    intro a ha b hb heq
    rw [List.mem_singleton.mp hb] at heq
    rw [heq] at ha
    exact hnew ha
  subset := by
    intro other hother
    rcases List.mem_append.mp hother with hold | hlast
    · exact h.subset other hold
    · rw [List.mem_singleton.mp hlast]
      exact hmem
  ready := by
    intro before other after heq txid htxid
    rcases List.append_eq_append_iff.mp heq with ⟨more, hbefore, hrest⟩ | ⟨more, hselected, hrest⟩
    · cases more with
      | nil =>
          rw [List.append_nil] at hbefore
          rw [List.nil_append] at hrest
          rw [(List.cons.inj hrest).left.symm] at htxid
          rw [hbefore]
          exact hparents txid htxid
      | cons first others =>
          have hlength := congrArg List.length hrest
          simp at hlength
    · cases more with
      | nil =>
          rw [List.append_nil] at hselected
          rw [List.nil_append] at hrest
          rw [(List.cons.inj hrest).left] at htxid
          rw [← hselected]
          exact hparents txid htxid
      | cons first others =>
          rw [List.cons_append] at hrest
          rcases List.cons.inj hrest with ⟨hfirst, _⟩
          rw [← hfirst] at hselected
          exact h.ready before other others hselected txid htxid

theorem selectLoop_selects (pool : Mempool) (maxBytes : Int) (room : Nat) :
    forall selected totalBytes, Selects pool selected ->
      Selects pool (pool.selectLoop maxBytes room selected totalBytes) := by
  induction room with
  | zero =>
      intro selected totalBytes h
      exact h
  | succ room ih =>
      intro selected totalBytes h
      unfold selectLoop
      cases hfind : pool.ranked.find? (pool.selectable maxBytes selected totalBytes) with
      | none => exact h
      | some item =>
          have hselectable := List.find?_some hfind
          unfold selectable at hselectable
          simp only [Bool.and_eq_true, List.all_eq_true, Bool.not_eq_true',
            List.contains_eq_mem, decide_eq_false_iff_not, decide_eq_true_eq] at hselectable
          have hmem : item ∈ pool.entries.items :=
            (List.mem_insertionSort _).mp (List.mem_of_find?_eq_some hfind)
          exact ih _ _ (h.snoc hmem hselectable.left.left hselectable.left.right)

theorem selectedEntries_selects (pool : Mempool) (maxTransactions maxBytes : Int) :
    Selects pool (pool.selectedEntries maxTransactions maxBytes) :=
  selectLoop_selects pool maxBytes _ [] 0 (selects_nil pool)

theorem selectTransactions_ok (pool : Mempool) {maxTransactions maxBytes : Int}
    (hcount : 0 ≤ maxTransactions) (hbytes : 0 ≤ maxBytes) :
    pool.selectTransactions maxTransactions maxBytes =
      .ok ((pool.selectedEntries maxTransactions maxBytes).map
        (fun item => item.2.transaction)) :=
  bind_eq_ok_iff.mpr ⟨(), require_eq_ok_iff.mpr hcount,
    bind_eq_ok_iff.mpr ⟨(), require_eq_ok_iff.mpr hbytes, rfl⟩⟩

/-!
## A selection processes
-/

/-- The entries that are left over. -/
def unselected (pool : Mempool) (selected : List (Str × MempoolEntry)) :
    List (Str × MempoolEntry) :=
  pool.entries.items.filter (fun item => item.1 ∉ selected.map Prod.fst)

theorem item_unique {pool : Mempool} {item other : Str × MempoolEntry}
    (hitem : item ∈ pool.entries.items) (hother : other ∈ pool.entries.items)
    (heq : item.1 = other.1) : item = other :=
  List.inj_on_of_nodup_map pool.entries.nodupKeys hitem hother heq

section Orders

variable {pool : Mempool} {selected : List (Str × MempoolEntry)}

theorem Selects.mem_of_txid (h : Selects pool selected) {item : Str × MempoolEntry}
    (hitem : item ∈ pool.entries.items) {before after : List (Str × MempoolEntry)}
    (hsplit : selected = before ++ after) (htxid : item.1 ∈ before.map Prod.fst) :
    item ∈ before := by
  rcases List.mem_map.mp htxid with ⟨other, hother, heq⟩
  have hmem : other ∈ pool.entries.items := by
    apply h.subset
    rw [hsplit]
    exact List.mem_append_left _ hother
  rw [item_unique hitem hmem heq.symm]
  exact hother

theorem unselected_front {pre post more after : List (Str × MempoolEntry)}
    {item : Str × MempoolEntry} (hpool : pool.entries.items = pre ++ item :: post)
    (hrest : pool.unselected selected = more ++ item :: after) :
    more = pre.filter (fun item => item.1 ∉ selected.map Prod.fst) := by
  have hitem : item.1 ∉ selected.map Prod.fst := by
    have hin : item ∈ pool.unselected selected := by
      rw [hrest]
      exact List.mem_append_right _ List.mem_cons_self
    simpa using (List.mem_filter.mp hin).right
  have hfiltered : pool.unselected selected =
      pre.filter (fun item => item.1 ∉ selected.map Prod.fst) ++
        item :: post.filter (fun item => item.1 ∉ selected.map Prod.fst) := by
    unfold unselected
    rw [hpool, List.filter_append, List.filter_cons_of_pos (by simpa using hitem)]
  have hnodup : (pool.unselected selected).Nodup :=
    (List.filter_sublist).nodup pool.entries.nodupKeys.of_map
  rw [hrest] at hfiltered hnodup
  rw [List.nodup_append, List.nodup_cons] at hnodup
  refine ((List.append_cons_inj_of_notMem ?_ ?_).mp hfiltered).left
  · intro hmem
    exact hnodup.right.right item hmem item List.mem_cons_self rfl
  · exact hnodup.right.left.left

/-- Among all entries, selected ones first, each comes after those that were in
the pool before it and whose outputs it spends. -/
theorem Selects.parent_before (h : Selects pool selected)
    {before after pre post : List (Str × MempoolEntry)} {item parent : Str × MempoolEntry}
    (hsplit : selected ++ pool.unselected selected = before ++ item :: after)
    (hpool : pool.entries.items = pre ++ item :: post) (hparent : parent ∈ pre)
    (hspends : parent.1 ∈ item.2.transaction.inputs.map TxInput.previousTxId) :
    parent ∈ before := by
  have hmem : parent ∈ pool.entries.items := by
    rw [hpool]
    exact List.mem_append_left _ hparent
  have hpending : parent.1 ∈ pool.parents item.2 := by
    apply List.mem_filter.mpr
    refine ⟨hspends, ?_⟩
    rw [Dict.contains_iff]
    exact List.mem_map.mpr ⟨parent, hmem, rfl⟩
  have hunselectedCase : forall more, before = selected ++ more ->
      pool.unselected selected = more ++ item :: after -> parent ∈ before := by
    intro more hbefore hrest
    rw [hbefore, List.mem_append]
    by_cases hchosen : parent.1 ∈ selected.map Prod.fst
    · exact Or.inl (h.mem_of_txid hmem (List.append_nil _).symm hchosen)
    · rw [unselected_front hpool hrest]
      exact Or.inr (List.mem_filter.mpr ⟨hparent, by simpa using hchosen⟩)
  rcases List.append_eq_append_iff.mp hsplit with ⟨more, hbefore, hrest⟩ | ⟨more, heq, hrest⟩
  · exact hunselectedCase more hbefore hrest
  · cases more with
    | nil =>
        rw [List.append_nil] at heq
        exact hunselectedCase [] (by rw [heq, List.append_nil]) hrest.symm
    | cons first others =>
        rw [List.cons_append] at hrest
        rw [← (List.cons.inj hrest).left] at heq
        exact h.mem_of_txid hmem heq (h.ready before item others heq _ hpending)

variable [Crypto]

def itemPostings (items : List (Str × MempoolEntry)) : List (Posting Str TxOutput) :=
  postings (items.map (fun item => item.2.transaction))

omit [Crypto] in
theorem getTransactions_eq (pool : Mempool) :
    pool.getTransactions = pool.entries.items.map (fun item => item.2.transaction) := by
  unfold getTransactions Dict.values
  rw [List.map_map]
  rfl

theorem Selects.rearranges (h : Selects pool selected) (hcoherent : pool.Coherent)
    (hrecorded : RecordedOutputs pool.confirmedUtxos pool.seenTxids) :
    Rearranges pool.confirmedUtxos (itemPostings pool.entries.items)
      (itemPostings (selected ++ pool.unselected selected)) := by
  have hsubset : forall item, item ∈ selected ++ pool.unselected selected ->
      item ∈ pool.entries.items := by
    intro item hitem
    rcases List.mem_append.mp hitem with hchosen | hrest
    · exact h.subset item hchosen
    · exact (List.mem_filter.mp hrest).left
  have hprovenance := (hcoherent.representation hrecorded).provenance
  constructor
  · have hidents : (itemPostings (selected ++ pool.unselected selected)).map Posting.ident =
        (selected ++ pool.unselected selected).map Prod.fst := by
      unfold itemPostings postings
      rw [List.map_map, List.map_map]
      apply List.map_congr_left
      intro item hitem
      exact (hcoherent.keyed item.1 item.2 (hsubset item hitem)).left.symm
    rw [hidents, List.map_append, List.nodup_append]
    refine ⟨h.nodup, (List.filter_sublist.map Prod.fst).nodup pool.entries.nodupKeys, ?_⟩
    intro txid hchosen other hrest heq
    rcases List.mem_map.mp hrest with ⟨item, hitem, hkey⟩
    have hnot := (List.mem_filter.mp hitem).right
    rw [← heq] at hkey
    rw [hkey] at hnot
    simp only [decide_eq_true_eq] at hnot
    exact hnot hchosen
  · intro posting hposting
    unfold itemPostings postings at *
    rw [List.map_map] at *
    rcases List.mem_map.mp hposting with ⟨item, hitem, heq⟩
    exact List.mem_map.mpr ⟨item, hsubset item hitem, heq⟩
  · intro before posting after hsplit outpoint hspent
    unfold itemPostings postings at hsplit
    rw [List.map_map] at hsplit
    rcases List.map_eq_append_iff.mp hsplit with ⟨front, back, hitems, hfront, hback⟩
    rcases List.map_eq_cons_iff.mp hback with ⟨item, others, hback', hposting, _⟩
    rw [hback'] at hitems
    have hitem : item ∈ pool.entries.items := by
      apply hsubset
      rw [hitems]
      exact List.mem_append_right _ List.mem_cons_self
    rcases List.append_of_mem hitem with ⟨pre, post, hpool⟩
    have hspent' : outpoint ∈ item.2.transaction.spentOutpoints := by
      rw [← hposting] at hspent
      exact hspent
    rcases hprovenance pre item.1 item.2 post hpool outpoint hspent' with
      hbase | ⟨parent, output, hparent, hcreated⟩
    · exact Or.inl hbase
    · apply Or.inr
      refine ⟨output, ?_⟩
      have hmem : parent ∈ pool.entries.items := by
        rw [hpool]
        exact List.mem_append_left _ hparent
      have hcreated' : (outpoint, output) ∈
          (UTXOSet.posting parent.2.transaction).created := hcreated
      have htxid : outpoint.1 = parent.1 := by
        rw [(hcoherent.keyed parent.1 parent.2 hmem).left]
        exact Posting.created_ident hcreated'
      have hspends : parent.1 ∈ item.2.transaction.inputs.map TxInput.previousTxId := by
        rcases List.mem_map.mp hspent' with ⟨input, hinput, heq⟩
        refine List.mem_map.mpr ⟨input, hinput, ?_⟩
        rw [← htxid, ← heq]
        rfl
      have hbefore := h.parent_before hitems hpool hparent hspends
      rw [← hfront]
      exact List.mem_flatMap.mpr ⟨_, List.mem_map.mpr ⟨parent, hbefore, rfl⟩, hcreated'⟩

/-- The selection processes from the confirmed state, and the other entries after
it, all with their cached fees. -/
theorem Selects.processes (h : Selects pool selected) (hcoherent : pool.Coherent)
    (hrecorded : RecordedOutputs pool.confirmedUtxos pool.seenTxids) :
    exists working final,
      Processes pool.confirmedUtxos pool.seenTxids
          (selected.map (fun item => item.2.transaction))
          (selected.map (fun item => item.2.fee)) working ∧
        Processes working
          (seenAfter pool.seenTxids (selected.map (fun item => item.2.transaction)))
          ((pool.unselected selected).map (fun item => item.2.transaction))
          ((pool.unselected selected).map (fun item => item.2.fee)) final := by
  have hprocesses := hcoherent.processes
  rw [getTransactions_eq] at hprocesses
  unfold Dict.values at hprocesses
  rw [List.map_map] at hprocesses
  have hfst : forall items : List (Str × MempoolEntry),
      (items.map (fun item => (item.2.transaction, item.2.fee))).map Prod.fst =
        items.map (fun item => item.2.transaction) := by
    intro items
    rw [List.map_map]
    rfl
  have hsnd : forall items : List (Str × MempoolEntry),
      (items.map (fun item => (item.2.transaction, item.2.fee))).map Prod.snd =
        items.map (fun item => item.2.fee) := by
    intro items
    rw [List.map_map]
    rfl
  rcases hprocesses.rearrange hrecorded
    ((selected ++ pool.unselected selected).map
      (fun item => (item.2.transaction, item.2.fee))) (by
      intro pair hpair
      rcases List.mem_map.mp hpair with ⟨item, hitem, heq⟩
      have hmem : item ∈ pool.entries.items := by
        rcases List.mem_append.mp hitem with hchosen | hrest
        · exact h.subset item hchosen
        · exact (List.mem_filter.mp hrest).left
      rcases List.getElem?_of_mem hmem with ⟨i, hi⟩
      refine ⟨i, ?_, ?_⟩
      · rw [List.getElem?_map, hi, ← heq]
        rfl
      · rw [List.getElem?_map, hi, ← heq]
        rfl) (by
      rw [hfst]
      exact h.rearranges hcoherent hrecorded) with ⟨final, hfinal⟩
  rw [hfst, hsnd, List.map_append, List.map_append] at hfinal
  rcases hfinal.append_split (by rw [List.length_map, List.length_map]) with
    ⟨working, hfirst, hsecond⟩
  exact ⟨working, final, hfirst, hsecond⟩

/-!
## The pool after the selection is confirmed
-/

theorem AdmitsAll.replayEntries_eq {items : List (Str × MempoolEntry)} :
    forall {start next : Mempool},
      AdmitsAll start (items.map (fun item => item.2.transaction)) next ->
      start.replayEntries items = next := by
  induction items with
  | nil =>
      intro start next h
      exact h.nil_inv.symm
  | cons item rest ih =>
      intro start next h
      rcases h.cons_inv with ⟨middle, hadd, hrest⟩
      have hstep : start.replayEntries (item :: rest) = middle.replayEntries rest := by
        unfold replayEntries
        rw [List.foldl_cons, hadd]
      rw [hstep]
      exact ih hrest

theorem Selects.filter_eq (h : Selects pool selected) (hcoherent : pool.Coherent)
    {txid : Str} (hunused : txid ∉ pool.entries.keys) :
    pool.entries.items.filter (fun item => item.1 ∉ insert txid
        (seenAfter pool.seenTxids (selected.map (fun item => item.2.transaction)))) =
      pool.unselected selected := by
  unfold unselected
  apply List.filter_congr
  intro item hitem
  have hkeys : (selected.map (fun item => item.2.transaction)).map Transaction.txid =
      selected.map Prod.fst := by
    rw [List.map_map]
    apply List.map_congr_left
    intro other hother
    exact (hcoherent.keyed other.1 other.2 (h.subset other hother)).left.symm
  have hnew : item.1 ∉ pool.seenTxids := by
    rw [(hcoherent.keyed item.1 item.2 hitem).left]
    apply hcoherent.processes.txids_new.right
    rw [getTransactions_eq]
    exact List.mem_map.mpr ⟨item, hitem, rfl⟩
  have hne : item.1 ≠ txid := by
    intro heq
    apply hunused
    rw [← heq]
    exact List.mem_map.mpr ⟨item, hitem, rfl⟩
  unfold seenAfter
  rw [hkeys]
  simp only [Finset.mem_insert, Finset.mem_union, List.mem_toFinset, hne, hnew, false_or]

/-- Confirming the selection leaves the other entries, in their order, with their
fees and sizes. -/
theorem Selects.revalidated (h : Selects pool selected) (hcoherent : pool.Coherent)
    {txid : Str} (hunused : txid ∉ pool.entries.keys) {utxos final : UTXOSet}
    (hprocesses : Processes utxos
      (insert txid
        (seenAfter pool.seenTxids (selected.map (fun item => item.2.transaction))))
      ((pool.unselected selected).map (fun item => item.2.transaction))
      ((pool.unselected selected).map (fun item => item.2.fee)) final) :
    (pool.revalidated utxos (insert txid
      (seenAfter pool.seenTxids
        (selected.map (fun item => item.2.transaction))))).entries.items =
      pool.unselected selected := by
  have hsublist : (pool.unselected selected).Sublist pool.entries.items :=
    List.filter_sublist
  have hadmits := AdmitsAll.of_entries (pool.unselected selected)
    (fresh pool.limits utxos (insert txid
      (seenAfter pool.seenTxids (selected.map (fun item => item.2.transaction)))))
    { fresh pool.limits utxos (insert txid
        (seenAfter pool.seenTxids (selected.map (fun item => item.2.transaction)))) with
      workingUtxos := final
      entries := ⟨pool.unselected selected,
        (hsublist.map Prod.fst).nodup pool.entries.nodupKeys⟩
      totalBytes := ((pool.unselected selected).map (fun item => item.2.sizeBytes)).sum }
    (by
      have hseen : forall seen : Finset Str,
          seen ∪ (Dict.empty : Dict Str MempoolEntry).keys.toFinset = seen := by
        intro seen
        simp
      simp only [fresh, hseen]
      exact hprocesses)
    (by
      intro item hitem
      exact hcoherent.keyed item.1 item.2 (hsublist.subset hitem))
    ⟨rfl, rfl, rfl⟩ rfl (by simp only [fresh, Nat.zero_add])
    (by
      have hsize := hcoherent.size_le
      have hlength := hsublist.length_le
      unfold size Dict.size at *
      simp only [fresh]
      omega)
    (by
      have hbytes := hcoherent.bytes_le
      rw [hcoherent.totalBytes_eq] at hbytes
      unfold Dict.values at hbytes
      rw [List.map_map] at hbytes
      have hsum := (hsublist.map (fun item : Str × MempoolEntry =>
        item.2.sizeBytes)).sum_le_sum (fun _ _ => Nat.zero_le _)
      simp only [fresh]
      exact Int.le_trans (Int.ofNat_le.mpr hsum) hbytes)
  unfold Mempool.revalidated
  rw [h.filter_eq hcoherent hunused, hadmits.replayEntries_eq]

end Orders

end Mempool

end PyChain
