import PyChain.Api.AddressDetail
import PyChain.Api.ChainIndex

/-!
# Looking up a transaction

The explorer looks for a transaction in the pool, in its view of the chain, in the chain
itself, and at last in a fresh view.  Other requests share the cached view, and blocks
are accepted between any two reads, so the transaction may move while it is looked for.
-/

namespace PyChain

open Foundation

namespace Api

section Shared

variable [Crypto]

/-- The view of one call and what it stores.  Other calls may replace the cached view
whenever this one waits: it is read after the latest block, inside the lock, and again
when the blocks are incomplete. -/
def sharedChainView (caches : Nat -> ExplorerService) (reads : Nat -> Blockchain)
    (forceRefresh : Bool) : Except RequestError (ChainView × Option ChainView) := do
  let latest <- ask (reads 0).getLatestBlockInfo
  match latest with
  | none => return (ChainView.new 0 [], none)
  | some (block, tipHeight) =>
      match (caches 0).viewOfTip forceRefresh block.hash with
      | some view => return (view, none)
      | none =>
          match (caches 1).viewOfTip forceRefresh block.hash with
          | some view => return (view, none)
          | none => do
              let needed := (tipHeight + 1).toNat
              let blocks <- ask (fetchBlocks reads needed needed 1 [])
              if blocks.length ≠ needed then
                match (caches 2).cachedChainView with
                | some view => return (view, none)
                | none => throw (.api (snapshotIncomplete blocks.length needed))
              else do
                let view := (ChainView.new tipHeight block.hash).populate blocks
                return (view, some view)

/-- A call that shares its cached view with nobody. -/
theorem sharedChainView_alone (service : ExplorerService) (reads : Nat -> Blockchain)
    (forceRefresh : Bool) :
    getChainView service reads forceRefresh =
      (fun found => (found.1, { cachedChainView := found.2.or service.cachedChainView })) <$>
        sharedChainView (fun _ => service) reads forceRefresh := by
  unfold getChainView sharedChainView
  cases ask (reads 0).getLatestBlockInfo with
  | error e => rfl
  | ok latest =>
      cases latest with
      | none => rfl
      | some pair =>
          simp only [bind, Except.bind]
          cases service.viewOfTip forceRefresh pair.1.hash with
          | some view => rfl
          | none =>
              dsimp only
              cases ask (fetchBlocks reads (pair.2 + 1).toNat (pair.2 + 1).toNat 1 []) with
              | error e => rfl
              | ok blocks =>
                  dsimp only
                  by_cases hcount : blocks.length ≠ (pair.2 + 1).toNat
                  · rw [if_pos hcount, if_pos hcount]
                    cases hcached : service.cachedChainView with
                    | none => rfl
                    | some view =>
                        rcases service with ⟨cached⟩
                        rw [show cached = some view from hcached]
                        rfl
                  · rw [if_neg hcount, if_neg hcount]
                    rfl

def invalidTxid : ApiError :=
  { status := 400
    code := "INVALID_TXID"
    message := str "Transaction ID must be a 64-character hexadecimal string" }

def transactionNotFound (txid : Str) : ApiError :=
  { status := 404
    code := "TRANSACTION_NOT_FOUND"
    message := str "Transaction '" ++ txid ++ str "' was not found in mempool or blockchain" }

/-- What a view tells of a transaction that it lists. -/
def confirmedAnswer (view : ChainView) (txid : Str) : Option EnrichedTransaction :=
  (view.txById.get? txid).map (fun location =>
    enrichTransaction view location.2.2 .confirmed (some location.1) (some location.2.1) none
      none)

/-- The argument `reads` is the chain that each read sees: of the first view, the pending
entries, the search, the latest block, and the second view.  Lower case is a parameter. -/
def getTransaction (lower : Str -> Str) (caches : Nat -> Nat -> ExplorerService)
    (reads : Nat -> Nat -> Blockchain) (rawTxid : Str) :
    Except RequestError EnrichedTransaction := do
  let txid := lower (strip rawTxid)
  if isHash txid = false then throw (.api invalidTxid)
  else do
    let first <- sharedChainView (caches 0) (reads 0) false
    match (reads 1 0).mempool.entries.values.find?
        (fun entry => entry.transaction.txid = txid) with
    | some entry =>
        return enrichTransaction first.1 entry.transaction .pending none none
          (some entry.fee) (some entry.sizeBytes)
    | none =>
        match confirmedAnswer first.1 txid with
        | some answer => return answer
        | none => do
            let found <- ask ((reads 2 0).findTransaction txid)
            let latest <- ask (reads 3 0).getLatestBlockInfo
            let latestTip := match latest with
              | none => []
              | some (block, _) => block.hash
            if found.isSome = true ∨ (latestTip ≠ [] ∧ latestTip ≠ first.1.tipHash) then do
              let second <- sharedChainView (caches 4) (reads 4) true
              match confirmedAnswer second.1 txid with
              | some answer => return answer
              | none => throw (.api (transactionNotFound txid))
            else throw (.api (transactionNotFound txid))

/-!
## The requests of an explorer side by side
-/

theorem prefix_eq_of_last {full blocks front : List Block} {tip last : Block}
    (hnodup : (full.map Block.hash).Nodup) (hblocks : blocks ++ [tip] <+: full)
    (hfront : front ++ [last] <+: full) (hhash : last.hash = tip.hash) :
    front ++ [last] = blocks ++ [tip] := by
  have hget : forall (xs : List Block) (x : Block), xs ++ [x] <+: full ->
      (full.map Block.hash)[xs.length]? = some x.hash := by
    rintro xs x ⟨rest, hrest⟩
    rw [← hrest, List.getElem?_map]
    simp
  have hlast := hget front last hfront
  have htip := hget blocks tip hblocks
  rw [hhash, ← htip] at hlast
  have hinside : front.length < (full.map Block.hash).length := by
    have hle := hfront.length_le
    rw [List.length_append, List.length_singleton] at hle
    rw [List.length_map]
    omega
  have hlength : front.length = blocks.length := (List.getElem?_inj hinside hnodup).mp hlast
  refine (List.prefix_of_prefix_length_le hfront hblocks ?_).eq_of_length ?_
  · rw [List.length_append, List.length_append, hlength]
    exact le_refl _
  · rw [List.length_append, List.length_append, hlength]
    rfl

/-- A cached view of this tip is the view of the chain that ends with it, even when the
cache has seen more of the chain. -/
theorem sharedView_eq {chain last : Blockchain} {tip : Block} {service : ExplorerService}
    (hserves : Serves last service) (hgrows : Grows chain last)
    (hvalid : ValidChain chain.blocks tip chain.state) {forceRefresh : Bool} {view : ChainView}
    (h : service.viewOfTip forceRefresh tip.hash = some view) :
    view = ChainView.of chain.blocks tip := by
  rcases (reachable_valid hserves.reachable).right with ⟨end_, hend⟩
  unfold ExplorerService.viewOfTip at h
  cases hview : service.cachedChainView with
  | none =>
      rw [hview] at h
      cases h
  | some found =>
      rw [hview] at h
      simp only at h
      split at h
      · rename_i htip
        rcases hserves.cached found hview with ⟨front, block, hinitial, heq⟩
        have hhash : block.hash = tip.hash := by
          rw [← htip.right, heq]
          unfold ChainView.of
          rw [ChainView.populate_tipHash]
          rfl
        rcases List.getLast?_eq_some_iff.mp hvalid.getLast? with ⟨before, hbefore⟩
        have hblocks := hgrows.blocks
        rw [hbefore] at hblocks
        have hwhole := prefix_eq_of_last hend.hashes_nodup hblocks hinitial hhash
        have hsame : block = tip := by
          have hlasts := congrArg List.getLast? hwhole
          rw [List.getLast?_concat, List.getLast?_concat] at hlasts
          exact Option.some.inj hlasts
        rw [← Option.some.inj h, heq, hwhole, hsame, ← hbefore]
      · cases h

/-- The view that a call sees is that of the chain at its first read, whatever the others
do to the cached view, and what it stores may be served later. -/
theorem sharedChainView_growing {caches : Nat -> ExplorerService} {reads : Nat -> Blockchain}
    {last : Blockchain} (hreachable : (reads 0).Reachable)
    (hreads : forall k, Grows (reads 0) (reads k)) (hlast : forall k, Grows (reads k) last)
    (hcaches : forall k, Serves last (caches k)) (forceRefresh : Bool) :
    exists tip stored, ValidChain (reads 0).blocks tip (reads 0).state ∧
      sharedChainView caches reads forceRefresh =
        .ok (ChainView.of (reads 0).blocks tip, stored) ∧
      forall view, stored = some view -> Serves last { cachedChainView := some view } := by
  rcases reachable_valid hreachable with ⟨husable, tip, hvalid⟩
  have hlatest : (reads 0).getLatestBlockInfo =
      .ok (some (tip, ((reads 0).blocks.length : Int) - 1)) :=
    getLatestBlockInfo_eq_ok_iff.mpr ⟨husable, hvalid.getLast?, rfl⟩
  have hnothing : forall view : ChainView, (none : Option ChainView) = some view ->
      Serves last { cachedChainView := some view } := by
    intro view hnone
    cases hnone
  unfold sharedChainView
  rw [hlatest]
  simp only [ask, bind, Except.bind]
  cases hfirst : (caches 0).viewOfTip forceRefresh tip.hash with
  | some view =>
      refine ⟨tip, none, hvalid, ?_, hnothing⟩
      rw [sharedView_eq (hcaches 0) (hlast 0) hvalid hfirst]
      rfl
  | none =>
      dsimp only
      cases hsecond : (caches 1).viewOfTip forceRefresh tip.hash with
      | some view =>
          refine ⟨tip, none, hvalid, ?_, hnothing⟩
          rw [sharedView_eq (hcaches 1) (hlast 0) hvalid hsecond]
          rfl
      | none =>
          have hneeded : (((reads 0).blocks.length : Int) - 1 + 1).toNat =
              (reads 0).blocks.length := by
            omega
          have hfetched := fetchBlocks_growing
            (fun k => (reachable_valid ((hreads k).reachable hreachable)).left)
            (fun k => (hreads k).blocks) (reads 0).blocks.length 1 [] List.nil_prefix
            (Nat.le_add_left _ _)
          refine ⟨tip, some (ChainView.of (reads 0).blocks tip), hvalid, ?_, ?_⟩
          · rw [hneeded, hfetched]
            simp only [ne_eq, not_true_eq_false, if_false]
            rfl
          · intro view hview
            rcases @getChainView_growing _ { cachedChainView := none } reads
              (Serves.start hreachable) hreads forceRefresh with ⟨end_, hend, hstored⟩
            rw [← Option.some.inj hview, (hvalid.deterministic hend).left]
            exact Serves.view (Serves.start hreachable) hlast hstored

/-!
## Known transactions
-/

/-- The transaction is in a block. -/
def Confirmed (chain : Blockchain) (txid : Str) : Prop :=
  exists block transaction, block ∈ chain.blocks ∧ transaction ∈ block.transactions ∧
    transaction.txid = txid

/-- The transaction is in the pool or in a block. -/
def Known (chain : Blockchain) (txid : Str) : Prop :=
  (exists entry, entry ∈ chain.mempool.entries.values ∧ entry.transaction.txid = txid) ∨
    Confirmed chain txid

theorem Known.isHash {chain : Blockchain} {txid : Str} (h : Known chain txid) :
    isHash txid = true := by
  rcases h with ⟨entry, _, rfl⟩ | ⟨_, transaction, _, _, rfl⟩
  · exact sha256Hex_isHash _
  · exact sha256Hex_isHash _

theorem Confirmed.grows {chain later : Blockchain} {txid : Str} (h : Confirmed chain txid)
    (hgrows : Grows chain later) : Confirmed later txid := by
  rcases h with ⟨block, transaction, hblock, hmem, htxid⟩
  exact ⟨block, transaction, hgrows.blocks.subset hblock, hmem, htxid⟩

theorem findTransaction_confirmed {chain : Blockchain} {txid : Str}
    (hreachable : chain.Reachable) (h : Confirmed chain txid) :
    exists found, chain.findTransaction txid = .ok (some found) := by
  rcases reachable_valid hreachable with ⟨husable, tip, hvalid⟩
  have hseen := (hvalid.ledger.mem_seen_iff txid).mpr h
  unfold Blockchain.findTransaction
  rw [husable]
  simp only [bind, Except.bind]
  cases chain.mempool.getTransaction txid with
  | some transaction => exact ⟨_, rfl⟩
  | none =>
      rcases h with ⟨block, transaction, hblock, hmem, htxid⟩
      rcases List.mem_iff_getElem?.mp hblock with ⟨height, hheight⟩
      have hlocated : (Blockchain.locate txid chain.blocks.zipIdx).isSome = true := by
        unfold Blockchain.locate
        rw [List.findSome?_isSome_iff]
        refine ⟨(block, height), List.mk_mem_zipIdx_iff_getElem?.mpr hheight, ?_⟩
        rw [Option.isSome_map, List.find?_isSome]
        exact ⟨transaction, hmem, decide_eq_true htxid⟩
      rcases Option.isSome_iff_exists.mp hlocated with ⟨found, hfound⟩
      refine ⟨found, ?_⟩
      dsimp only
      rw [if_pos hseen, hfound]
      rfl

/-- An answer that names the block it is in. -/
structure LocatedIn (blocks : List Block) (txid : Str) (answer : EnrichedTransaction) :
    Prop where
  txid_eq : answer.txid = txid
  located : answer.status = .confirmed ->
    exists height block transaction, blocks[height]? = some block ∧
      transaction ∈ block.transactions ∧ transaction.txid = txid ∧
      answer.blockHeight = some height ∧ answer.blockHash = some block.hash

theorem confirmedAnswer_located {chain last : Blockchain} {tip : Block}
    (hvalid : ValidChain chain.blocks tip chain.state) (hgrows : Grows chain last)
    {txid : Str} {answer : EnrichedTransaction}
    (h : confirmedAnswer (ChainView.of chain.blocks tip) txid = some answer) :
    LocatedIn last.blocks txid answer := by
  rcases Option.map_eq_some_iff.mp h with ⟨location, hlocation, hanswer⟩
  have hview : ChainView.Populated chain.blocks (ChainView.of chain.blocks tip) :=
    ChainView.populate_populated _ _ _
  rcases (txById_get?_iff hvalid.ledger hview txid location).mp hlocation with
    ⟨block, hblock, htransaction, htxid, hhash⟩
  rcases hgrows.blocks with ⟨rest, hrest⟩
  subst hanswer
  constructor
  · exact htxid.symm
  · intro _
    refine ⟨location.1, block, location.2.2, ?_, htransaction, htxid.symm, rfl, ?_⟩
    · rcases List.getElem?_eq_some_iff.mp hblock with ⟨hinside, _⟩
      rw [← hrest, List.getElem?_append_left hinside]
      exact hblock
    · exact congrArg some hhash

theorem confirmedAnswer_confirmed {chain : Blockchain} {tip : Block}
    (hvalid : ValidChain chain.blocks tip chain.state) {txid : Str}
    (h : Confirmed chain txid) :
    exists answer, confirmedAnswer (ChainView.of chain.blocks tip) txid = some answer := by
  rcases h with ⟨block, transaction, hblock, hmem, htxid⟩
  have hview : ChainView.Populated chain.blocks (ChainView.of chain.blocks tip) :=
    ChainView.populate_populated _ _ _
  rcases List.mem_iff_getElem?.mp hblock with ⟨height, hheight⟩
  have hlocation := (txById_get?_iff hvalid.ledger hview txid
    (height, block.hash, transaction)).mpr ⟨block, hheight, hmem, htxid.symm, rfl⟩
  unfold confirmedAnswer
  rw [hlocation]
  exact ⟨_, rfl⟩

/-- The reads of a lookup while the chain grows, and the cached views that it meets: those
of any chain up to the last one. -/
structure Interleaved (caches : Nat -> Nat -> ExplorerService)
    (reads : Nat -> Nat -> Blockchain) (last : Blockchain) : Prop
    extends Moments reads where
  ends : forall i k, Grows (reads i k) last
  caches : forall i k, Serves last (caches i k)

theorem Interleaved.view {caches : Nat -> Nat -> ExplorerService}
    {reads : Nat -> Nat -> Blockchain} {last : Blockchain}
    (h : Interleaved caches reads last) (i : Nat) (forceRefresh : Bool) :
    exists tip stored, ValidChain (reads i 0).blocks tip (reads i 0).state ∧
      sharedChainView (caches i) (reads i) forceRefresh =
        .ok (ChainView.of (reads i 0).blocks tip, stored) := by
  rcases sharedChainView_growing (h.reads_reachable i 0)
    (fun k => h.within i 0 k (Nat.zero_le _)) (h.ends i) (h.caches i) forceRefresh with
    ⟨tip, stored, hvalid, hview, _⟩
  exact ⟨tip, stored, hvalid, hview⟩

/-- A transaction that is in the pool or in a block at every read is found, and one that
is called confirmed stands in the block that is named. -/
theorem getTransaction_known (lower : Str -> Str) {caches : Nat -> Nat -> ExplorerService}
    {reads : Nat -> Nat -> Blockchain} {last : Blockchain}
    (h : Interleaved caches reads last) {rawTxid : Str}
    (hknown : forall i k, Known (reads i k) (lower (strip rawTxid))) :
    exists answer, getTransaction lower caches reads rawTxid = .ok answer ∧
      LocatedIn last.blocks (lower (strip rawTxid)) answer := by
  generalize hinput : lower (strip rawTxid) = txid at hknown ⊢
  rcases h.view 0 false with ⟨tip, stored, hvalid, hview⟩
  unfold getTransaction
  simp only [hinput, (hknown 0 0).isHash, Bool.true_eq_false, if_false, hview, bind,
    Except.bind]
  cases hpool : (reads 1 0).mempool.entries.values.find?
      (fun entry => entry.transaction.txid = txid) with
  | some entry =>
      have htxid := List.find?_some hpool
      refine ⟨_, rfl, of_decide_eq_true htxid, ?_⟩
      intro hstatus
      cases hstatus
  | none =>
      dsimp only
      cases hfirst : confirmedAnswer (ChainView.of (reads 0 0).blocks tip) txid with
      | some answer =>
          exact ⟨answer, rfl, confirmedAnswer_located hvalid (h.ends 0 0) hfirst⟩
      | none =>
          -- Not pending at the second read, so a block had it by then.
          have hconfirmed : Confirmed (reads 1 0) txid := by
            rcases hknown 1 0 with ⟨entry, hentry, htxid⟩ | hconfirmed
            · rw [List.find?_eq_none] at hpool
              exact absurd (decide_eq_true htxid) (hpool entry hentry)
            · exact hconfirmed
          rcases findTransaction_confirmed (h.reads_reachable 2 0)
            (hconfirmed.grows (h.across 1 0 2 0 (by decide))) with ⟨found, hfound⟩
          rcases reachable_valid (h.reads_reachable 3 0) with ⟨husable, end_, hend⟩
          have hlatest : (reads 3 0).getLatestBlockInfo =
              .ok (some (end_, ((reads 3 0).blocks.length : Int) - 1)) :=
            getLatestBlockInfo_eq_ok_iff.mpr ⟨husable, hend.getLast?, rfl⟩
          rcases h.view 4 true with ⟨newest, refreshed, hnewest, hsecond⟩
          rcases confirmedAnswer_confirmed hnewest
            (hconfirmed.grows (h.across 1 0 4 0 (by decide))) with ⟨answer, hanswer⟩
          refine ⟨answer, ?_, confirmedAnswer_located hnewest (h.ends 4 0) hanswer⟩
          simp only [hfound, hlatest, ask, Option.isSome_some, true_or, if_true, hsecond,
            hanswer]
          rfl

end Shared

end Api

namespace Sample

/-- The transfer waits at the first read and is in a block at all others. -/
def lookupReads : Nat -> Nat -> Blockchain
  | 0, _ => waiting
  | _ + 1, _ => chain

theorem lookup_interleaved :
    @Api.Interleaved crypto (fun _ _ => ⟨none⟩) lookupReads chain := by
  have hends : forall i k, @Api.Grows crypto (lookupReads i k) chain := by
    intro i k
    cases i with
    | zero => exact waiting_grows
    | succ i => exact @Api.Grows.refl crypto chain
  refine @Api.Interleaved.mk crypto _ _ _ (@Api.Moments.mk crypto _ waiting_reachable ?_ ?_)
    hends (fun _ _ => @Api.Serves.start crypto chain chain_reachable)
  · intro i j k _
    cases i with
    | zero => exact @Api.Grows.refl crypto waiting
    | succ i => exact @Api.Grows.refl crypto chain
  · intro i j k l hlt
    cases k with
    | zero => exact absurd hlt (Nat.not_lt_zero i)
    | succ k => exact hends i j

theorem waiting_pool :
    waiting.mempool.entries.values.map MempoolEntry.transaction = [transfer] ∧
      @Transaction.txid crypto transfer = transferTxid ∧
      id (Api.strip transferTxid) = transferTxid := by
  decide +kernel

theorem transfer_known (i k : Nat) :
    @Api.Known crypto (lookupReads i k) (id (Api.strip transferTxid)) := by
  rcases waiting_pool with ⟨hpool, htxid, hstrip⟩
  rw [hstrip]
  cases i with
  | zero =>
      have hmem : transfer ∈ waiting.mempool.entries.values.map MempoolEntry.transaction := by
        rw [hpool]
        exact List.mem_singleton_self _
      rcases List.mem_map.mp hmem with ⟨entry, hentry, htransaction⟩
      change @Api.Known crypto waiting transferTxid
      refine Or.inl ⟨entry, hentry, ?_⟩
      exact (congrArg (@Transaction.txid crypto) htransaction).trans htxid
  | succ i =>
      change @Api.Known crypto chain transferTxid
      refine Or.inr ⟨second, transfer, ?_, ?_, htxid⟩
      · rw [second_accepted.right]
        simp
      · simp [second]

end Sample

/-- The block that takes the transfer out of the pool arrives after the first view. -/
theorem Api.getTransaction_known_moved :
    exists answer, @Api.getTransaction Sample.crypto id (fun _ _ => ⟨none⟩) Sample.lookupReads
        Sample.transferTxid = .ok answer ∧
      @Api.LocatedIn Sample.crypto Sample.chain.blocks (id (Api.strip Sample.transferTxid))
        answer :=
  @Api.getTransaction_known Sample.crypto id _ _ _ Sample.lookup_interleaved
    Sample.transferTxid Sample.transfer_known

end PyChain
