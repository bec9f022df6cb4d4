import PyChain.Api.Explorer

/-!
# The cached view

The explorer keeps the view of the last tip it saw and fetches the blocks again, in
batches, when the tip has another hash.  The node may accept blocks between two reads
of one call.  Chains grow at their end and hashes are never repeated, so a cached view
is always the view of a beginning of the chain, and one with the hash of the tip is the
view of all of it.
-/

namespace PyChain

open Foundation

namespace Api

structure ExplorerService where
  cachedChainView : Option ChainView

section Cache

variable [Crypto]

/-- Batches of at most a hundred blocks, until there are enough or one is empty.  Every
batch brings a block, which bounds the rounds. -/
def fetchBlocks (reads : Nat -> Blockchain) (needed : Nat) :
    Nat -> Nat -> List Block -> Except PyError (List Block)
  | 0, _, blocks => .ok blocks
  | rounds + 1, turn, blocks =>
      if blocks.length < needed then do
        let batch <- (reads turn).getBlocks blocks.length
          (min 100 ((needed : Int) - blocks.length))
        if batch.isEmpty = true then return blocks
        else fetchBlocks reads needed rounds (turn + 1) (blocks ++ batch)
      else .ok blocks

def snapshotIncomplete (found needed : Nat) : ApiError :=
  { status := 503
    code := "CHAIN_SNAPSHOT_INCOMPLETE"
    message := str ("Failed to fetch complete chain snapshot (" ++ toString found ++ "/" ++
      toString needed ++ " blocks)") }

/-- The cached view, unless a refresh is forced or the tip has another hash. -/
def ExplorerService.viewOfTip (service : ExplorerService) (forceRefresh : Bool)
    (tipHash : Str) : Option ChainView :=
  match service.cachedChainView with
  | none => none
  | some view => if forceRefresh = false ∧ view.tipHash = tipHash then some view else none

/-- The chain view and the service after the call.  The argument `reads` is the chain
that each read of the call sees.  A service makes one call at a time, so the check
inside the lock repeats the one before it. -/
def getChainView (service : ExplorerService) (reads : Nat -> Blockchain)
    (forceRefresh : Bool) : Except RequestError (ChainView × ExplorerService) := do
  let latest <- ask (reads 0).getLatestBlockInfo
  match latest with
  | none => return (ChainView.new 0 [], service)
  | some (block, tipHeight) =>
      match service.viewOfTip forceRefresh block.hash with
      | some view => return (view, service)
      | none => do
          let needed := (tipHeight + 1).toNat
          let blocks <- ask (fetchBlocks reads needed needed 1 [])
          if blocks.length ≠ needed then
            match service.cachedChainView with
            | some view => return (view, service)
            | none => throw (.api (snapshotIncomplete blocks.length needed))
          else do
            let view := (ChainView.new tipHeight block.hash).populate blocks
            return (view, { cachedChainView := some view })

/-- The services that a chain can have: calls of `getChainView` while the chain grows. -/
inductive Serves : Blockchain -> ExplorerService -> Prop where
  | start {chain : Blockchain} :
      chain.Reachable -> Serves chain { cachedChainView := none }
  | change {chain : Blockchain} {service : ExplorerService} (call : Blockchain.Call) :
      Serves chain service -> Serves (Blockchain.ram.step call chain).2 service
  | view {chain : Blockchain} {service after : ExplorerService} {view : ChainView}
      {reads : Nat -> Blockchain} {forceRefresh : Bool} :
      Serves (reads 0) service ->
      (forall k, exists calls, Blockchain.ram.run calls (reads k) = chain) ->
      getChainView service reads forceRefresh = .ok (view, after) -> Serves chain after

/-!
## Fetched blocks
-/

omit [Crypto] in
theorem getLatestBlockInfo_eq_ok_iff {chain : Blockchain} {block : Block} {height : Int} :
    chain.getLatestBlockInfo = .ok (some (block, height)) <->
      Blockchain.ensureUsable chain = .ok () ∧ chain.blocks.getLast? = some block ∧
        height = (chain.blocks.length : Int) - 1 := by
  unfold Blockchain.getLatestBlockInfo
  rw [bind_eq_ok_iff]
  constructor
  · rintro ⟨_, husable, h⟩
    cases hlast : chain.blocks.getLast? with
    | none =>
        rw [hlast] at h
        cases h
    | some last =>
        rw [hlast] at h
        cases h
        exact ⟨husable, rfl, rfl⟩
  · rintro ⟨husable, hlast, rfl⟩
    refine ⟨(), husable, ?_⟩
    rw [hlast]
    rfl

omit [Crypto] in
theorem getBlocks_extends {chain : Blockchain} {blocks batch full : List Block}
    {limit : Int} (hchain : chain.blocks <+: full) (hblocks : blocks <+: full)
    (h : chain.getBlocks blocks.length limit = .ok batch) : blocks ++ batch <+: full := by
  have hbatch : batch = [] ∨
      batch = (chain.blocks.drop blocks.length).take limit.toNat := by
    unfold Blockchain.getBlocks at h
    rcases bind_eq_ok_iff.mp h with ⟨_, _, hreply⟩
    split at hreply
    · exact Or.inl (Except.ok.inj hreply).symm
    · split at hreply
      · exact Or.inl (Except.ok.inj hreply).symm
      · exact Or.inr (Except.ok.inj hreply).symm
  rcases hbatch with hnil | htake
  · rw [hnil, List.append_nil]
    exact hblocks
  · rcases Nat.le_total blocks.length chain.blocks.length with hle | hle
    · rcases List.prefix_of_prefix_length_le hblocks hchain hle with ⟨rest, hrest⟩
      rw [htake, ← hrest, List.drop_left]
      refine List.IsPrefix.trans ?_ (hrest ▸ hchain)
      rw [List.prefix_append_right_inj]
      exact List.take_prefix _ _
    · rw [htake, List.drop_eq_nil_of_le hle, List.take_nil, List.append_nil]
      exact hblocks

omit [Crypto] in
theorem fetchBlocks_prefix {reads : Nat -> Blockchain} {full : List Block}
    (hreads : forall k, (reads k).blocks <+: full) (needed rounds : Nat) :
    forall (turn : Nat) (blocks fetched : List Block), blocks <+: full ->
      fetchBlocks reads needed rounds turn blocks = .ok fetched -> fetched <+: full := by
  induction rounds with
  | zero =>
      intro turn blocks fetched hblocks h
      rw [← Except.ok.inj h]
      exact hblocks
  | succ rounds ih =>
      intro turn blocks fetched hblocks h
      unfold fetchBlocks at h
      split at h
      · rcases bind_eq_ok_iff.mp h with ⟨batch, hbatch, hrest⟩
        split at hrest
        · rw [← Except.ok.inj hrest]
          exact hblocks
        · exact ih (turn + 1) _ fetched (getBlocks_extends (hreads turn) hblocks hbatch) hrest
      · rw [← Except.ok.inj h]
        exact hblocks

/-!
## What the cache holds
-/

/-- A cached view is the view of a beginning of the chain. -/
def CachedIn (full : List Block) (service : ExplorerService) : Prop :=
  forall view, service.cachedChainView = some view ->
    exists front tip, front ++ [tip] <+: full ∧ view = ChainView.of (front ++ [tip]) tip

theorem CachedIn.mono {blocks full : List Block} {service : ExplorerService}
    (h : CachedIn blocks service) (hinitial : blocks <+: full) : CachedIn full service := by
  intro view hview
  rcases h view hview with ⟨front, tip, hfront, heq⟩
  exact ⟨front, tip, hfront.trans hinitial, heq⟩

theorem getChainView_cached {service after : ExplorerService} {reads : Nat -> Blockchain}
    {forceRefresh : Bool} {view : ChainView} {full : List Block}
    (hreads : forall k, (reads k).blocks <+: full) (hcached : CachedIn full service)
    (h : getChainView service reads forceRefresh = .ok (view, after)) :
    CachedIn full after := by
  unfold getChainView at h
  rcases bind_eq_ok_iff.mp h with ⟨latest, hlatest, h⟩
  cases latest with
  | none =>
      cases h
      exact hcached
  | some pair =>
      rcases pair with ⟨tip, tipHeight⟩
      rcases getLatestBlockInfo_eq_ok_iff.mp (ask_eq_ok_iff.mp hlatest) with
        ⟨_, htip, hheight⟩
      simp only at h
      cases hcheck : service.viewOfTip forceRefresh tip.hash with
      | some found =>
          rw [hcheck] at h
          cases h
          exact hcached
      | none =>
          rw [hcheck] at h
          rcases bind_eq_ok_iff.mp h with ⟨blocks, hblocks, h⟩
          split at h
          · cases hstale : service.cachedChainView with
            | none =>
                rw [hstale] at h
                cases h
            | some stale =>
                rw [hstale] at h
                cases h
                exact hcached
          · rename_i hlength
            cases h
            have hinitial := fetchBlocks_prefix hreads _ _ 1 [] blocks List.nil_prefix
              (ask_eq_ok_iff.mp hblocks)
            have hcount : blocks.length = (reads 0).blocks.length := by
              omega
            have hsame : blocks = (reads 0).blocks :=
              (List.prefix_of_prefix_length_le hinitial (hreads 0)
                (Nat.le_of_eq hcount)).eq_of_length hcount
            rcases List.getLast?_eq_some_iff.mp htip with ⟨front, hfront⟩
            intro other hother
            refine ⟨front, tip, ?_, ?_⟩
            · rw [← hfront]
              exact hreads 0
            · rw [← Option.some.inj hother, ← hfront, hsame, hheight]
              rfl

theorem blocks_grow (calls : List Blockchain.Call) (chain : Blockchain) :
    chain.blocks <+: (Blockchain.ram.run calls chain).blocks := by
  refine @Machine.run_relation _ _ _ Blockchain.ram (fun a b => a.blocks <+: b.blocks)
    (fun _ => List.prefix_refl _) (fun _ _ _ => List.IsPrefix.trans) ?_ calls chain
  intro call before
  rcases Blockchain.ram_step_cases call before with
    ⟨answer, _, heq⟩ | ⟨next, block, hprepares, heq⟩
  · rw [heq]
  · rw [heq]
    change before.blocks <+: next.blocks
    rw [hprepares.grows]
    exact List.prefix_append _ _

theorem reachable_run {chain : Blockchain} (h : chain.Reachable)
    (calls : List Blockchain.Call) : (Blockchain.ram.run calls chain).Reachable := by
  rcases h with ⟨clock, maxTransactions, maxBytes, start, past, hcreate, hrun⟩
  refine ⟨clock, maxTransactions, maxBytes, start, past ++ calls, hcreate, ?_⟩
  rw [Foundation.Machine.run_append, hrun]

theorem Serves.reachable {chain : Blockchain} {service : ExplorerService}
    (h : Serves chain service) : chain.Reachable := by
  induction h with
  | start hreachable => exact hreachable
  | change call _ ih => exact reachable_run ih [call]
  | view _ hreads _ ih =>
      rcases hreads 0 with ⟨calls, hcalls⟩
      rw [← hcalls]
      exact reachable_run ih calls

theorem Serves.cached {chain : Blockchain} {service : ExplorerService}
    (h : Serves chain service) : CachedIn chain.blocks service := by
  induction h with
  | start _ =>
      intro view hview
      cases hview
  | change call _ ih => exact ih.mono (blocks_grow [call] _)
  | @view chain _ _ _ reads _ _ hreads hview ih =>
      have hprefixes : forall k, (reads k).blocks <+: chain.blocks := by
        intro k
        rcases hreads k with ⟨calls, hcalls⟩
        rw [← hcalls]
        exact blocks_grow calls _
      exact getChainView_cached hprefixes (ih.mono (hprefixes 0)) hview

theorem prefix_eq_of_hash {blocks front : List Block} {tip last : Block} {state : ChainState}
    (hvalid : ValidChain blocks tip state) (hinitial : front ++ [last] <+: blocks)
    (hhash : last.hash = tip.hash) : front ++ [last] = blocks ∧ last = tip := by
  rcases hinitial with ⟨rest, hrest⟩
  have hlast := hvalid.getLast?
  rcases List.eq_nil_or_concat rest with hnil | ⟨middle, block, hmiddle⟩
  · rw [hnil, List.append_nil] at hrest
    rw [← hrest, List.getLast?_concat] at hlast
    exact ⟨hrest, Option.some.inj hlast⟩
  · have hnodup := hvalid.hashes_nodup
    rw [List.concat_eq_append] at hmiddle
    rw [← hrest, hmiddle, ← List.append_assoc, List.getLast?_concat] at hlast
    rw [← hrest, hmiddle, Option.some.inj hlast] at hnodup
    simp only [List.map_append, List.map_cons, List.map_nil, List.append_assoc,
      List.singleton_append, hhash, List.nodup_middle, List.nodup_cons] at hnodup
    exact absurd (by simp) hnodup.left

omit [Crypto] in
theorem viewOfTip_cached {service : ExplorerService} {forceRefresh : Bool} {tipHash : Str}
    {view : ChainView} (h : service.viewOfTip forceRefresh tipHash = some view) :
    service = { cachedChainView := some view } := by
  rcases service with ⟨cached⟩
  unfold ExplorerService.viewOfTip at h
  cases cached with
  | none => cases h
  | some found =>
      simp only at h
      split at h
      · rw [Option.some.inj h]
      · cases h

theorem viewOfTip_eq {blocks : List Block} {tip : Block} {state : ChainState}
    (hvalid : ValidChain blocks tip state) {service : ExplorerService}
    (hcached : CachedIn blocks service) {forceRefresh : Bool} {view : ChainView}
    (h : service.viewOfTip forceRefresh tip.hash = some view) :
    view = ChainView.of blocks tip := by
  unfold ExplorerService.viewOfTip at h
  cases hview : service.cachedChainView with
  | none =>
      rw [hview] at h
      cases h
  | some found =>
      rw [hview] at h
      simp only at h
      split at h
      · rename_i htip
        rcases hcached found hview with ⟨front, last, hinitial, heq⟩
        have hhash : last.hash = tip.hash := by
          rw [← htip.right, heq]
          unfold ChainView.of
          rw [ChainView.populate_tipHash]
          rfl
        rcases prefix_eq_of_hash hvalid hinitial hhash with ⟨hwhole, hlast⟩
        rw [← Option.some.inj h, heq, hwhole, hlast]
      · cases h

/-!
## Reads of a growing chain
-/

/-- The chain may have accepted calls since an earlier read. -/
def Grows (before after : Blockchain) : Prop :=
  exists calls, Blockchain.ram.run calls before = after

theorem Grows.refl (chain : Blockchain) : Grows chain chain :=
  ⟨[], rfl⟩

theorem Grows.trans {before middle after : Blockchain} (h : Grows before middle)
    (hnext : Grows middle after) : Grows before after := by
  rcases h with ⟨calls, hcalls⟩
  rcases hnext with ⟨later, hlater⟩
  refine ⟨calls ++ later, ?_⟩
  rw [Machine.run_append, hcalls, hlater]

theorem Grows.blocks {before after : Blockchain} (h : Grows before after) :
    before.blocks <+: after.blocks := by
  rcases h with ⟨calls, hcalls⟩
  rw [← hcalls]
  exact blocks_grow calls before

theorem Grows.reachable {before after : Blockchain} (h : Grows before after)
    (hreachable : before.Reachable) : after.Reachable := by
  rcases h with ⟨calls, hcalls⟩
  rw [← hcalls]
  exact reachable_run hreachable calls

theorem Grows.serves {before after : Blockchain} {service : ExplorerService}
    (h : Grows before after) (hserves : Serves before service) : Serves after service := by
  rcases h with ⟨calls, hcalls⟩
  rw [← hcalls]
  clear hcalls
  induction calls generalizing before with
  | nil => exact hserves
  | cons call rest ih => exact ih (Serves.change call hserves)

theorem reachable_valid {chain : Blockchain} (h : chain.Reachable) :
    Blockchain.ensureUsable chain = .ok () ∧
      exists tip, ValidChain chain.blocks tip chain.state := by
  rcases Blockchain.reachable_sound h with ⟨hsound, husable⟩
  rcases hsound.valid with ⟨tip, hvalid⟩
  exact ⟨husable, tip, hvalid⟩

theorem state_of_blocks {chain other : Blockchain} (h : chain.Reachable) (hother : other.Reachable)
    (hblocks : chain.blocks = other.blocks) : chain.state = other.state := by
  rcases (reachable_valid h).right with ⟨tip, hvalid⟩
  rcases (reachable_valid hother).right with ⟨last, hlast⟩
  rw [← hblocks] at hlast
  exact (hvalid.deterministic hlast).right

omit [Crypto] in
theorem getBlocks_longer {chain longer : Blockchain}
    (husable : Blockchain.ensureUsable longer = .ok ()) (hblocks : chain.blocks <+: longer.blocks)
    {start : Nat} (hstart : start < chain.blocks.length) :
    longer.getBlocks start (min 100 ((chain.blocks.length : Int) - start)) =
      .ok ((chain.blocks.drop start).take
        (min 100 ((chain.blocks.length : Int) - start)).toNat) := by
  have hlength := hblocks.length_le
  have hlimit : ¬ ((start : Int) < 0 ∨
      min 100 ((chain.blocks.length : Int) - start) < 1 ∨
        100 < min 100 ((chain.blocks.length : Int) - start)) := by
    omega
  have hinside : ¬ (longer.blocks.length : Int) ≤ start := by
    omega
  unfold Blockchain.getBlocks
  rw [bind_eq_ok_iff]
  refine ⟨(), husable, ?_⟩
  rw [if_neg hlimit, if_neg hinside]
  rcases hblocks with ⟨rest, hrest⟩
  have hshort : (min 100 ((chain.blocks.length : Int) - start)).toNat ≤
      (chain.blocks.drop start).length := by
    rw [List.length_drop]
    omega
  rw [← hrest, Int.toNat_natCast, List.drop_append_of_le_length hstart.le,
    List.take_append_of_le_length hshort]
  rfl

omit [Crypto] in
theorem fetchBlocks_growing {chain : Blockchain} {reads : Nat -> Blockchain}
    (husable : forall k, Blockchain.ensureUsable (reads k) = .ok ())
    (hreads : forall k, chain.blocks <+: (reads k).blocks) (rounds : Nat) :
    forall (turn : Nat) (blocks : List Block), blocks <+: chain.blocks ->
      chain.blocks.length ≤ blocks.length + rounds ->
      fetchBlocks reads chain.blocks.length rounds turn blocks = .ok chain.blocks := by
  induction rounds with
  | zero =>
      intro turn blocks hblocks hrounds
      rw [hblocks.eq_of_length_le hrounds]
      rfl
  | succ rounds ih =>
      intro turn blocks hblocks hrounds
      unfold fetchBlocks
      by_cases hlt : blocks.length < chain.blocks.length
      · have hbatch := getBlocks_longer (husable turn) (hreads turn) hlt
        have hlength : 0 < ((chain.blocks.drop blocks.length).take
            (min 100 ((chain.blocks.length : Int) - blocks.length)).toNat).length := by
          rw [List.length_take, List.length_drop]
          omega
        have hnonempty : ¬ ((chain.blocks.drop blocks.length).take
            (min 100 ((chain.blocks.length : Int) - blocks.length)).toNat).isEmpty =
              true := by
          rw [List.isEmpty_iff_length_eq_zero]
          omega
        have hextends : blocks ++ ((chain.blocks.drop blocks.length).take
            (min 100 ((chain.blocks.length : Int) - blocks.length)).toNat) <+:
              chain.blocks := by
          rcases hblocks with ⟨rest, hrest⟩
          rw [← hrest, List.drop_left, List.prefix_append_right_inj]
          exact List.take_prefix _ _
        rw [if_pos hlt, bind_eq_ok_iff]
        refine ⟨_, hbatch, ?_⟩
        rw [if_neg hnonempty]
        apply ih (turn + 1) _ hextends
        rw [List.length_append]
        omega
      · rw [if_neg hlt, hblocks.eq_of_length_le (Nat.le_of_not_lt hlt)]

theorem getChainView_growing {service : ExplorerService} {reads : Nat -> Blockchain}
    (hserves : Serves (reads 0) service) (hreads : forall k, Grows (reads 0) (reads k))
    (forceRefresh : Bool) :
    exists tip, ValidChain (reads 0).blocks tip (reads 0).state ∧
      getChainView service reads forceRefresh =
        .ok (ChainView.of (reads 0).blocks tip,
          { cachedChainView := some (ChainView.of (reads 0).blocks tip) }) := by
  have hreachable := hserves.reachable
  rcases reachable_valid hreachable with ⟨husable, tip, hvalid⟩
  have hlatest : (reads 0).getLatestBlockInfo =
      .ok (some (tip, ((reads 0).blocks.length : Int) - 1)) :=
    getLatestBlockInfo_eq_ok_iff.mpr ⟨husable, hvalid.getLast?, rfl⟩
  unfold getChainView
  rw [hlatest]
  cases hcheck : service.viewOfTip forceRefresh tip.hash with
  | some view =>
      have hsame := viewOfTip_eq hvalid hserves.cached hcheck
      refine ⟨tip, hvalid, ?_⟩
      rw [bind_eq_ok_iff]
      refine ⟨_, rfl, ?_⟩
      simp only
      rw [hcheck, ← hsame, ← viewOfTip_cached hcheck]
      rfl
  | none =>
      refine ⟨tip, hvalid, ?_⟩
      have hneeded : (((reads 0).blocks.length : Int) - 1 + 1).toNat =
          (reads 0).blocks.length := by
        omega
      have hfetched := fetchBlocks_growing
        (fun k => (reachable_valid ((hreads k).reachable hreachable)).left)
        (fun k => (hreads k).blocks) (reads 0).blocks.length 1 [] List.nil_prefix
        (Nat.le_add_left _ _)
      rw [bind_eq_ok_iff]
      refine ⟨_, rfl, ?_⟩
      simp only
      rw [hcheck]
      simp only
      rw [bind_eq_ok_iff]
      refine ⟨(reads 0).blocks, ?_, ?_⟩
      · rw [ask_eq_ok_iff, hneeded]
        exact hfetched
      · rw [hneeded]
        simp only [ne_eq, not_true_eq_false, if_false]
        rfl

theorem getChainView_still {chain : Blockchain} {service : ExplorerService}
    (h : Serves chain service) (forceRefresh : Bool) :
    exists tip after, chain.getLatestBlockInfo =
        .ok (some (tip, (chain.blocks.length : Int) - 1)) ∧
      getChainView service (fun _ => chain) forceRefresh =
        .ok (ChainView.of chain.blocks tip, after) := by
  rcases @getChainView_growing _ service (fun _ => chain) h (fun _ => Grows.refl chain)
    forceRefresh with ⟨tip, hvalid, hview⟩
  refine ⟨tip, _, ?_, hview⟩
  exact getLatestBlockInfo_eq_ok_iff.mpr
    ⟨(reachable_valid h.reachable).left, hvalid.getLast?, rfl⟩

/-- The reads of a request that calls the node several times while the chain grows: by
call, then by read of the call. -/
structure Moments (reads : Nat -> Nat -> Blockchain) : Prop where
  reachable : (reads 0 0).Reachable
  within : forall i j k, j ≤ k -> Grows (reads i j) (reads i k)
  across : forall i j k l, i < k -> Grows (reads i j) (reads k l)

theorem Moments.reads_reachable {reads : Nat -> Nat -> Blockchain} (h : Moments reads)
    (i k : Nat) : (reads i k).Reachable := by
  rcases Nat.eq_zero_or_pos i with hzero | hpos
  · rw [hzero]
    exact (h.within 0 0 k (Nat.zero_le _)).reachable h.reachable
  · exact (h.across 0 0 i k hpos).reachable h.reachable

end Cache

end Api

namespace Sample

theorem waiting_grows : @Api.Grows crypto waiting chain := by
  refine ⟨[.addBlock second clock], ?_⟩
  unfold waiting chain
  rw [← Machine.run_append]
  rfl

end Sample

end PyChain
