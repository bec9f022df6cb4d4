import Mathlib.Algebra.Order.Ring.Unbundled.Rat
import Mathlib.Data.List.Lex
import PyChain.Transaction.Selection

/-!
# The greedy order of a selection

The loop of the selection restarts from the top of the ranking after every pick.
This module says what that computes: at each position the best entry among those
that are ready and still fit.
-/

namespace PyChain

open Foundation

namespace Mempool

/-!
## The ranking
-/

instance : Std.Total RanksBefore where
  total := by
    intro item other
    unfold RanksBefore
    rcases lt_trichotomy (feeRate item.2) (feeRate other.2) with hlt | heq | hgt
    · exact Or.inr (Or.inl hlt)
    · rcases le_total item.1 other.1 with hle | hle
      · exact Or.inl (Or.inr ⟨heq, hle⟩)
      · exact Or.inr (Or.inr ⟨heq.symm, hle⟩)
    · exact Or.inl (Or.inl hgt)

instance : IsTrans (Str × MempoolEntry) RanksBefore where
  trans := by
    intro first second third hfirst hsecond
    unfold RanksBefore at *
    rcases hfirst with hlt | ⟨heq, hle⟩
    · rcases hsecond with hlt' | ⟨heq', _⟩
      · exact Or.inl (lt_trans hlt' hlt)
      · rw [← heq']
        exact Or.inl hlt
    · rcases hsecond with hlt' | ⟨heq', hle'⟩
      · rw [heq]
        exact Or.inl hlt'
      · exact Or.inr ⟨heq.trans heq', le_trans hle hle'⟩

theorem ranksBefore_antisymm {item other : Str × MempoolEntry}
    (h : RanksBefore item other) (hback : RanksBefore other item) : item.1 = other.1 := by
  unfold RanksBefore at *
  rcases h with hlt | ⟨heq, hle⟩
  · rcases hback with hlt' | ⟨heq', _⟩
    · exact absurd hlt' (lt_asymm hlt)
    · rw [heq'] at hlt
      exact absurd hlt (lt_irrefl _)
  · rcases hback with hlt' | ⟨_, hle'⟩
    · rw [heq] at hlt'
      exact absurd hlt' (lt_irrefl _)
    · exact le_antisymm hle hle'

theorem ranked_sorted (pool : Mempool) : pool.ranked.Pairwise RanksBefore :=
  List.pairwise_insertionSort RanksBefore pool.entries.items

theorem mem_ranked {pool : Mempool} {item : Str × MempoolEntry} :
    item ∈ pool.ranked <-> item ∈ pool.entries.items :=
  List.mem_insertionSort RanksBefore

/-!
## Candidates
-/

def selectedBytes (selected : List (Str × MempoolEntry)) : Nat :=
  (selected.map (fun item => item.2.sizeBytes)).sum

theorem selectedBytes_snoc (selected : List (Str × MempoolEntry)) (item : Str × MempoolEntry) :
    selectedBytes (selected ++ [item]) = selectedBytes selected + item.2.sizeBytes := by
  unfold selectedBytes
  rw [List.map_append, List.sum_append, List.map_singleton, List.sum_singleton]

/-- A pending entry that is not chosen yet, whose pending parents are, and whose
size fits next to them. -/
structure Candidate (pool : Mempool) (maxBytes : Int) (selected : List (Str × MempoolEntry))
    (item : Str × MempoolEntry) : Prop where
  pending : item ∈ pool.entries.items
  unchosen : item.1 ∉ selected.map Prod.fst
  ready : forall txid, txid ∈ pool.parents item.2 -> txid ∈ selected.map Prod.fst
  fits : (selectedBytes selected + item.2.sizeBytes : Int) ≤ maxBytes

theorem candidate_iff (pool : Mempool) (maxBytes : Int)
    (selected : List (Str × MempoolEntry)) (item : Str × MempoolEntry) :
    Candidate pool maxBytes selected item <->
      item ∈ pool.ranked ∧
        pool.selectable maxBytes selected (selectedBytes selected) item = true := by
  unfold selectable
  simp only [Bool.and_eq_true, List.all_eq_true, Bool.not_eq_true', List.contains_eq_mem,
    decide_eq_false_iff_not, decide_eq_true_eq, mem_ranked]
  constructor
  · intro h
    exact ⟨h.pending, ⟨h.unchosen, h.ready⟩, h.fits⟩
  · intro h
    exact ⟨h.left, h.right.left.left, h.right.left.right, h.right.right⟩

structure Best (pool : Mempool) (maxBytes : Int) (selected : List (Str × MempoolEntry))
    (item : Str × MempoolEntry) : Prop where
  candidate : Candidate pool maxBytes selected item
  first : forall other, Candidate pool maxBytes selected other -> RanksBefore item other

theorem best_of_find {pool : Mempool} {maxBytes : Int}
    {selected : List (Str × MempoolEntry)} {item : Str × MempoolEntry}
    (h : pool.ranked.find? (pool.selectable maxBytes selected (selectedBytes selected)) =
      some item) : Best pool maxBytes selected item := by
  rcases List.find?_eq_some_iff_append.mp h with ⟨hselectable, before, after, hsplit, hbefore⟩
  have hcandidate := (candidate_iff pool maxBytes selected item).mpr
    ⟨List.mem_of_find?_eq_some h, hselectable⟩
  refine ⟨hcandidate, ?_⟩
  intro other hother
  rcases (candidate_iff pool maxBytes selected other).mp hother with ⟨hmem, htrue⟩
  have hsorted := pool.ranked_sorted
  rw [hsplit] at hmem hsorted
  rcases List.mem_append.mp hmem with hearlier | hrest
  · have hfalse := hbefore other hearlier
    rw [htrue] at hfalse
    cases hfalse
  · rcases List.mem_cons.mp hrest with heq | hlater
    · rw [heq]
      exact (total_of RanksBefore item item).elim id id
    · exact (List.pairwise_cons.mp (List.pairwise_append.mp hsorted).right.left).left other
        hlater

theorem no_candidate_of_find {pool : Mempool} {maxBytes : Int}
    {selected : List (Str × MempoolEntry)}
    (h : pool.ranked.find? (pool.selectable maxBytes selected (selectedBytes selected)) =
      none) (item : Str × MempoolEntry) : ¬ Candidate pool maxBytes selected item := by
  intro hcandidate
  rcases (candidate_iff pool maxBytes selected item).mp hcandidate with ⟨hmem, htrue⟩
  exact List.find?_eq_none.mp h item hmem htrue

/-!
## The loop
-/

/-- The entries of a selection, each the best candidate after the ones before. -/
inductive Greedy (pool : Mempool) (maxBytes : Int) : List (Str × MempoolEntry) -> Prop where
  | nil : Greedy pool maxBytes []
  | snoc {selected : List (Str × MempoolEntry)} {item : Str × MempoolEntry} :
      Greedy pool maxBytes selected -> Best pool maxBytes selected item ->
      Greedy pool maxBytes (selected ++ [item])

/-- What the loop adds to a greedy list keeps it greedy, stays in the room that is
left, and only stops early when no candidate is left. -/
theorem selectLoop_greedy (pool : Mempool) (maxBytes : Int) (room : Nat) :
    forall selected, Greedy pool maxBytes selected ->
      Greedy pool maxBytes
          (pool.selectLoop maxBytes room selected (selectedBytes selected)) ∧
        (pool.selectLoop maxBytes room selected (selectedBytes selected)).length ≤
          selected.length + room ∧
        ((pool.selectLoop maxBytes room selected (selectedBytes selected)).length <
            selected.length + room ->
          forall item, ¬ Candidate pool maxBytes
            (pool.selectLoop maxBytes room selected (selectedBytes selected)) item) := by
  induction room with
  | zero =>
      intro selected h
      refine ⟨h, Nat.le_refl _, ?_⟩
      intro hlt
      exact absurd hlt (Nat.lt_irrefl _)
  | succ room ih =>
      intro selected h
      unfold selectLoop
      cases hfind : pool.ranked.find?
          (pool.selectable maxBytes selected (selectedBytes selected)) with
      | none =>
          refine ⟨h, Nat.le_add_right _ _, ?_⟩
          intro _ item
          exact no_candidate_of_find hfind item
      | some item =>
          have hnext := ih (selected ++ [item]) (Greedy.snoc h (best_of_find hfind))
          rw [selectedBytes_snoc, List.length_append, List.length_singleton,
            Nat.add_assoc, Nat.add_comm 1 room] at hnext
          exact hnext

theorem selectLoop_isPrefix (pool : Mempool) (maxBytes : Int) (room : Nat) :
    forall selected totalBytes more,
      pool.selectLoop maxBytes room selected totalBytes <+:
        pool.selectLoop maxBytes (room + more) selected totalBytes := by
  have hgrows : forall room selected totalBytes,
      selected <+: pool.selectLoop maxBytes room selected totalBytes := by
    intro room
    induction room with
    | zero =>
        intro selected totalBytes
        exact List.prefix_rfl
    | succ room ih =>
        intro selected totalBytes
        unfold selectLoop
        cases pool.ranked.find? (pool.selectable maxBytes selected totalBytes) with
        | none => exact List.prefix_rfl
        | some item => exact (List.prefix_append selected [item]).trans (ih _ _)
  induction room with
  | zero =>
      intro selected totalBytes more
      exact hgrows _ _ _
  | succ room ih =>
      intro selected totalBytes more
      rw [Nat.add_right_comm]
      unfold selectLoop
      cases pool.ranked.find? (pool.selectable maxBytes selected totalBytes) with
      | none => exact List.prefix_rfl
      | some item => exact ih _ _ more

theorem Greedy.best_at {pool : Mempool} {maxBytes : Int}
    {selected : List (Str × MempoolEntry)} (h : Greedy pool maxBytes selected) :
    forall before item after, selected = before ++ item :: after ->
      Best pool maxBytes before item := by
  induction h with
  | nil =>
      intro before item after heq
      simp at heq
  | @snoc front last _ hbest ih =>
      intro before item after heq
      rcases List.eq_nil_or_concat after with hafter | ⟨others, final, hafter⟩
      · subst hafter
        have hfront := List.append_inj_left' heq rfl
        have hlast := List.append_inj_right' heq rfl
        rw [← hfront, ← (List.cons.inj hlast).left]
        exact hbest
      · subst hafter
        apply ih before item others
        have hassoc : front ++ [last] = (before ++ item :: others) ++ [final] := by
          rw [heq, List.concat_eq_append, List.append_assoc, List.cons_append]
        exact List.append_inj_left' hassoc rfl

theorem Greedy.nodup {pool : Mempool} {maxBytes : Int}
    {selected : List (Str × MempoolEntry)} (h : Greedy pool maxBytes selected) :
    (selected.map Prod.fst).Nodup := by
  induction h with
  | nil => exact List.nodup_nil
  | snoc _ hbest ih =>
      rw [List.map_append, List.nodup_append]
      refine ⟨ih, List.nodup_singleton _, ?_⟩
      intro txid hmem other hother heq
      rw [heq, List.mem_singleton.mp hother] at hmem
      exact hbest.candidate.unchosen hmem

theorem Greedy.bytes_le {pool : Mempool} {maxBytes : Int} (hbytes : 0 ≤ maxBytes)
    {selected : List (Str × MempoolEntry)} (h : Greedy pool maxBytes selected) :
    (selectedBytes selected : Int) ≤ maxBytes := by
  cases h with
  | nil => exact hbytes
  | snoc _ hbest =>
      rw [selectedBytes_snoc]
      exact hbest.candidate.fits

theorem Greedy.subset {pool : Mempool} {maxBytes : Int}
    {selected : List (Str × MempoolEntry)} (h : Greedy pool maxBytes selected)
    {item : Str × MempoolEntry} (hitem : item ∈ selected) : item ∈ pool.entries.items := by
  rcases List.append_of_mem hitem with ⟨before, after, hsplit⟩
  exact (h.best_at before item after hsplit).candidate.pending

/-!
## The selection is the greedy order
-/

/-- The documented result of a selection: which entries, in which order. -/
structure GreedySelection (pool : Mempool) (maxTransactions maxBytes : Int)
    (transactions : List Transaction) (selected : List (Str × MempoolEntry)) : Prop where
  transactions_eq : transactions = selected.map (fun item => item.2.transaction)
  pending : forall item, item ∈ selected -> item ∈ pool.entries.items
  nodup : (selected.map Prod.fst).Nodup
  length_le : (transactions.length : Int) ≤ maxTransactions
  bytes_le : (selectedBytes selected : Int) ≤ maxBytes
  parents_first : forall before item after, selected = before ++ item :: after ->
    forall txid, txid ∈ pool.parents item.2 -> txid ∈ before.map Prod.fst
  best : forall before item after, selected = before ++ item :: after ->
    Best pool maxBytes before item
  complete : (transactions.length : Int) < maxTransactions ->
    forall item, ¬ Candidate pool maxBytes selected item

theorem selectedEntries_greedySelection (pool : Mempool) {maxTransactions maxBytes : Int}
    (hcount : 0 ≤ maxTransactions) (hbytes : 0 ≤ maxBytes) :
    GreedySelection pool maxTransactions maxBytes
      ((pool.selectedEntries maxTransactions maxBytes).map (fun item => item.2.transaction))
      (pool.selectedEntries maxTransactions maxBytes) := by
  have hloop := selectLoop_greedy pool maxBytes maxTransactions.toNat [] Greedy.nil
  have hroom : (maxTransactions.toNat : Int) = maxTransactions := Int.toNat_of_nonneg hcount
  change Greedy pool maxBytes (pool.selectedEntries maxTransactions maxBytes) ∧
    (pool.selectedEntries maxTransactions maxBytes).length ≤ 0 + maxTransactions.toNat ∧
      ((pool.selectedEntries maxTransactions maxBytes).length < 0 + maxTransactions.toNat ->
        forall item, ¬ Candidate pool maxBytes
          (pool.selectedEntries maxTransactions maxBytes) item) at hloop
  rcases hloop with ⟨hgreedy, hlength, hcomplete⟩
  refine ⟨rfl, fun item hitem => hgreedy.subset hitem, hgreedy.nodup, ?_,
    hgreedy.bytes_le hbytes, ?_, hgreedy.best_at, ?_⟩
  · rw [List.length_map]
    omega
  · intro before item after hsplit
    exact (hgreedy.best_at before item after hsplit).candidate.ready
  · intro hlt
    rw [List.length_map] at hlt
    exact hcomplete (by omega)

theorem selectedEntries_isPrefix (pool : Mempool) {maxTransactions more : Int}
    (hle : maxTransactions ≤ more) (maxBytes : Int) :
    pool.selectedEntries maxTransactions maxBytes <+: pool.selectedEntries more maxBytes := by
  have hsplit : more.toNat =
      maxTransactions.toNat + (more.toNat - maxTransactions.toNat) := by
    omega
  unfold selectedEntries
  rw [hsplit]
  exact selectLoop_isPrefix pool maxBytes maxTransactions.toNat [] 0 _

/-- `select_transactions` is total on non-negative limits, computes the greedy
order, and a larger count only extends the result.  No fee rate divides by zero. -/
theorem selectTransactions_greedy [Crypto] {pool : Mempool} (hpool : pool.Representation)
    {maxTransactions maxBytes : Int} (hcount : 0 ≤ maxTransactions) (hbytes : 0 ≤ maxBytes) :
    (forall txid entry, (txid, entry) ∈ pool.entries.items -> entry.sizeBytes ≠ 0) ∧
      exists transactions selected,
        pool.selectTransactions maxTransactions maxBytes = .ok transactions ∧
          GreedySelection pool maxTransactions maxBytes transactions selected ∧
          (transactions.map Transaction.txid).Nodup ∧
          (forall more, maxTransactions ≤ more -> exists extended,
            pool.selectTransactions more maxBytes = .ok extended ∧
              transactions <+: extended) := by
  have hselection := selectedEntries_greedySelection pool hcount hbytes
  refine ⟨?_, _, _, pool.selectTransactions_ok hcount hbytes, hselection, ?_, ?_⟩
  · intro txid entry hmem hzero
    have hsize := hpool.sizes txid entry hmem
    rw [hzero] at hsize
    exact Json.serialize_ne_nil _ (List.length_eq_zero_iff.mp hsize.symm)
  · have hkeys : ((pool.selectedEntries maxTransactions maxBytes).map
        (fun item => item.2.transaction)).map Transaction.txid =
          (pool.selectedEntries maxTransactions maxBytes).map Prod.fst := by
      rw [List.map_map]
      apply List.map_congr_left
      intro item hitem
      exact (hpool.keyed item.1 item.2 (hselection.pending item hitem)).left.symm
    rw [hkeys]
    exact hselection.nodup
  · intro more hle
    exact ⟨_, pool.selectTransactions_ok (Int.le_trans hcount hle) hbytes,
      (selectedEntries_isPrefix pool hle maxBytes).map _⟩

end Mempool

namespace Sample

/-- The child pays the best rate but waits for its parent, which the spare payment
outbids.  After the spare payment the parent no longer fits a small block. -/
theorem family_selections :
    family.selectTransactions 2 2000 = .ok [spare, parent] ∧
      family.selectTransactions 3 2000 = .ok [spare, parent, child] ∧
      family.selectTransactions 3 1100 = .ok [spare] := by
  decide +kernel

end Sample

theorem Mempool.selectTransactions_greedy_family :
    Sample.family.selectTransactions 2 2000 = .ok [Sample.spare, Sample.parent] ∧
      (exists selected, GreedySelection Sample.family 2 2000 [Sample.spare, Sample.parent]
        selected) ∧
      ([Sample.spare, Sample.parent].map (@Transaction.txid Sample.familyCrypto)).Nodup ∧
      (exists extended, Sample.family.selectTransactions 3 2000 = .ok extended ∧
        [Sample.spare, Sample.parent] <+: extended ∧
        extended = [Sample.spare, Sample.parent, Sample.child]) ∧
      exists selected, GreedySelection Sample.family 3 1100 [Sample.spare] selected := by
  rcases Sample.family_selections with ⟨htwo, hthree, hsmall⟩
  have hpool := (@reachable_representation Sample.familyCrypto Sample.family
    (Sample.payments_reachable _)).left
  rcases (@selectTransactions_greedy Sample.familyCrypto Sample.family hpool 2 2000
    (by decide) (by decide)).right with ⟨transactions, selected, hok, hgreedy, hnodup, hextends⟩
  rw [htwo] at hok
  cases hok
  rcases hextends 3 (by decide) with ⟨extended, hextended, hprefix⟩
  rcases (@selectTransactions_greedy Sample.familyCrypto Sample.family hpool 3 1100
    (by decide) (by decide)).right with ⟨few, chosen, hok, hfew, _⟩
  rw [hsmall] at hok
  cases hok
  refine ⟨htwo, ⟨selected, hgreedy⟩, hnodup, ⟨extended, hextended, hprefix, ?_⟩,
    chosen, hfew⟩
  rw [hthree] at hextended
  exact (Except.ok.inj hextended).symm

end PyChain
