import PyChain.Blockchain.Ledger
import PyChain.Transaction.Survivors

/-!
# Block acceptance and the pool

A block is judged without looking at the pool.  When it is accepted the pool is
replayed over the new state, and what is left are the entries whose inputs the
new state and the earlier survivors still provide.
-/

namespace PyChain

open Foundation

section Revalidation

variable [Crypto]

/-- The bytes behind the identifiers of a block and of a pool. -/
def TransactionOf (block : Block) (pool : Mempool) (data : Bytes) : Prop :=
  exists transaction,
    (transaction ∈ block.transactions ∨ transaction ∈ pool.getTransactions) ∧
      data = transaction.encoding

theorem output_unique {transaction : Transaction} {outpoint : OutPoint}
    {output other : TxOutput} (h : (outpoint, output) ∈ UTXOSet.outputItems transaction)
    (h' : (outpoint, other) ∈ UTXOSet.outputItems transaction) : output = other := by
  rw [← UTXOSet.posting_created] at h h'
  rcases (Posting.mem_created _ _ _).mp h with ⟨_, i, hi, hget⟩
  rcases (Posting.mem_created _ _ _).mp h' with ⟨_, j, hj, hget'⟩
  have hij : i = j := by
    rw [hi] at hj
    exact Int.ofNat.inj hj
  rw [hij, hget'] at hget
  exact (Option.some.inj hget).symm

namespace Blockchain

variable {before : Live} {block : Block} {next : ChainState}

theorem applied_exact (hsound : before.Sound)
    (happly : applyBlockTransactions block before.state = some next) :
    OutputLedger.Exact before.state.utxoSet (postings block.ledgerOrder) next.utxoSet := by
  rcases (applyBlockTransactions_eq_some_iff _ _ _).mp happly with
    ⟨coinbase, regular, fees, working, happlied⟩
  rcases happlied.txids_new with ⟨hnodup, hnew⟩
  have hfresh : OutputLedger.FreshIdents before.state.utxoSet
      (postings block.ledgerOrder) := by
    constructor
    · unfold postings
      rw [List.map_map]
      exact hnodup
    · intro p hp k hk heq
      rcases List.mem_map.mp hp with ⟨transaction, htransaction, hposting⟩
      subst hposting
      apply hnew transaction htransaction
      rw [show transaction.txid = k.1 from heq.symm]
      exact hsound.recorded k hk
  exact OutputLedger.replay_exact hfresh happlied.replay

theorem applied_new (happly : applyBlockTransactions block before.state = some next)
    {transaction : Transaction} (h : transaction ∈ block.transactions) :
    transaction.txid ∉ before.state.seenTxids := by
  rcases (applyBlockTransactions_eq_some_iff _ _ _).mp happly with
    ⟨coinbase, regular, fees, working, happlied⟩
  exact happlied.txids_new.right transaction ((mem_ledgerOrder block transaction).mpr h)

theorem applied_output (hsound : before.Sound)
    (happly : applyBlockTransactions block before.state = some next) {outpoint : OutPoint}
    {output : TxOutput} (h : next.utxoSet.get? outpoint = some output) :
    before.state.utxoSet.get? outpoint = some output ∨
      exists transaction, transaction ∈ block.transactions ∧
        transaction.txid ∉ before.state.seenTxids ∧
        (outpoint, output) ∈ UTXOSet.outputItems transaction := by
  have hexact := applied_exact hsound happly
  rcases ((hexact.get?_iff outpoint output).mp h).left with hold | hcreated
  · exact Or.inl hold
  · rcases (mem_createdBy_iff _ _ _).mp hcreated with ⟨transaction, htransaction, hmade⟩
    have hmem := (mem_ledgerOrder block transaction).mp htransaction
    exact Or.inr ⟨transaction, hmem, applied_new happly hmem, hmade⟩

theorem applied_seen (happly : applyBlockTransactions block before.state = some next)
    (txid : Str) :
    txid ∈ next.seenTxids <->
      txid ∈ before.state.seenTxids ∨ txid ∈ block.transactions.map Transaction.txid := by
  rcases (applyBlockTransactions_eq_some_iff _ _ _).mp happly with
    ⟨coinbase, regular, fees, working, happlied⟩
  rw [happlied.seen_eq]
  unfold seenAfter
  rw [Finset.mem_union, List.mem_toFinset, List.mem_map, List.mem_map]
  simp only [mem_ledgerOrder]

theorem Live.Sound.replays (hsound : before.Sound)
    (happly : applyBlockTransactions block before.state = some next)
    (hrecorded : RecordedOutputs next.utxoSet next.seenTxids)
    (hfree : CollisionFreeOn (TransactionOf block before.mempool)) :
    Mempool.Replays before.mempool next.utxoSet next.seenTxids
      (before.mempool.entries.items.filter (fun item => item.1 ∉ next.seenTxids)) := by
  have hutxos := hsound.utxoSet
  have hseen := hsound.seenTxids
  have hpoolRecorded := hsound.pool_recorded
  refine ⟨List.filter_sublist, hrecorded, ?_, ?_⟩
  · intro item hitem
    simpa using (List.mem_filter.mp hitem).right
  · intro item hitem outpoint hspent output houtput
    rcases hsound.coherent.known_input hpoolRecorded (List.mem_filter.mp hitem).left hspent
      with ⟨known, hknown⟩
    rw [hknown]
    rcases applied_output hsound happly houtput with
      hold | ⟨transaction, htransaction, hnew, hmade⟩
    · rw [← hutxos] at hold
      have hsame := (hsound.coherent.known_iff hpoolRecorded outpoint output).mpr
        (Or.inl hold)
      rw [← hknown, hsame]
    · rcases (hsound.coherent.known_iff hpoolRecorded outpoint known).mp hknown with
        hconfirmed | ⟨parent, hparent, hparentMade⟩
      · apply absurd (hpoolRecorded outpoint (Dict.mem_keys_of_get? hconfirmed))
        rw [hseen, outputItems_txid hmade]
        exact hnew
      · have htxid : parent.txid = transaction.txid := by
          rw [← outputItems_txid hparentMade, outputItems_txid hmade]
        have hencoding := hfree.hex_injective ⟨parent, Or.inr hparent, rfl⟩
          ⟨transaction, Or.inl htransaction, rfl⟩ htxid
        rw [Transaction.encoding_injective hencoding] at hparentMade
        rw [output_unique hparentMade hmade]

theorem Prepares.survivors {after : Live} {clock : Clock} {appended : Option Block}
    (h : Prepares before (.addBlock block clock) after appended) (hsound : before.Sound)
    (hfree : CollisionFreeOn (TransactionOf block before.mempool)) :
    after.mempool.entries.items =
      Mempool.survivors after.state.utxoSet
        (before.mempool.entries.items.filter
          (fun item => item.1 ∉ block.transactions.map Transaction.txid)) := by
  have hafter := h.sound hsound
  cases h with
  | @addBlock _ tip _ now nextState htip hnow hlinked htimely happly hfresh =>
      have hpoolRecorded := hsound.pool_recorded
      have hrecorded : RecordedOutputs nextState.utxoSet nextState.seenTxids :=
        hafter.recorded
      have hreplays := hsound.replays happly hrecorded hfree
      have hfilter : before.mempool.entries.items.filter
          (fun item => item.1 ∉ block.transactions.map Transaction.txid) =
            before.mempool.entries.items.filter
              (fun item => item.1 ∉ nextState.seenTxids) := by
        apply List.filter_congr
        intro item hitem
        have hpending := ((hsound.coherent.representation hpoolRecorded).keyed item.1 item.2
          hitem).right
        rw [hsound.seenTxids] at hpending
        simp only [applied_seen happly, hpending, false_or]
      rw [hfilter]
      exact hreplays.replayEntries_items hsound.coherent hpoolRecorded

/-- The same instance with another pool. -/
def withPool (chain : Blockchain) (pool : Mempool) : Blockchain :=
  { chain with mempool := pool }

theorem ram_addBlock_pool (chain : Blockchain) (pool : Mempool) (block : Block)
    (clock : Clock) :
    (ram.step (.addBlock block clock) (chain.withPool pool)).1 =
        (ram.step (.addBlock block clock) chain).1 ∧
      (ram.step (.addBlock block clock) (chain.withPool pool)).2.blocks =
        (ram.step (.addBlock block clock) chain).2.blocks ∧
      (ram.step (.addBlock block clock) (chain.withPool pool)).2.state =
        (ram.step (.addBlock block clock) chain).2.state := by
  have husable : ensureUsable (chain.withPool pool) = ensureUsable chain := rfl
  cases hcase : ensureUsable chain with
  | error e =>
      rw [hcase] at husable
      unfold ram
      simp only [perform_unusable _ _ _ _ hcase, perform_unusable _ _ _ _ husable]
      exact ⟨trivial, rfl, rfl⟩
  | ok answer =>
      rw [hcase] at husable
      rw [ram_step_eq _ _ hcase, ram_step_eq _ _ husable]
      have hblocks : (live (chain.withPool pool)).blocks = (live chain).blocks := rfl
      have hstate : (live (chain.withPool pool)).state = (live chain).state := rfl
      unfold prepare
      rw [hblocks]
      cases (live chain).blocks.getLast? with
      | none => exact ⟨rfl, rfl, rfl⟩
      | some tip =>
          simp only
          rw [hstate]
          cases validateAndApplyBlock block tip (live chain).state clock with
          | error e => exact ⟨rfl, rfl, rfl⟩
          | ok next =>
              cases next with
              | none => exact ⟨rfl, rfl, rfl⟩
              | some next =>
                  simp only
                  by_cases hseen : (live chain).blocks.any
                      (fun existing => existing.hash = block.hash) = true
                  · rw [if_pos hseen, if_pos hseen]
                    exact ⟨rfl, rfl, rfl⟩
                  · rw [if_neg hseen, if_neg hseen]
                    exact ⟨rfl, rfl, rfl⟩

/-- A block is accepted or rejected alike whatever pool the instance holds, and an
accepted block leaves exactly the pending entries that are still spendable, in
their order with their fees and sizes. -/
theorem addBlock_survivors {chain : Blockchain} (h : Reachable chain) (block : Block)
    (clock : Clock) :
    (forall pool : Mempool,
      (ram.step (.addBlock block clock) (chain.withPool pool)).1 =
          (ram.step (.addBlock block clock) chain).1 ∧
        (ram.step (.addBlock block clock) (chain.withPool pool)).2.blocks =
          (ram.step (.addBlock block clock) chain).2.blocks ∧
        (ram.step (.addBlock block clock) (chain.withPool pool)).2.state =
          (ram.step (.addBlock block clock) chain).2.state) ∧
      (forall after, ram.step (.addBlock block clock) chain = (.ok true, after) ->
        CollisionFreeOn (TransactionOf block chain.mempool) ->
        after.mempool.entries.items =
          Mempool.survivors after.state.utxoSet
            (chain.mempool.entries.items.filter
              (fun item => item.1 ∉ block.transactions.map Transaction.txid))) := by
  constructor
  · intro pool
    exact ram_addBlock_pool chain pool block clock
  · intro after hstep hfree
    rcases reachable_sound h with ⟨hsound, _⟩
    rcases ram_step_cases (.addBlock block clock) chain with
      ⟨answer, hanswer, heq⟩ | ⟨next, appended, hprepares, heq⟩
    · rw [heq] at hstep
      cases hstep
      exact absurd rfl hanswer
    · rw [heq] at hstep
      cases hstep
      exact hprepares.survivors hsound hfree

end Blockchain

end Revalidation

/-!
## The sample network

The third block confirms the spare payment and spends the coin of the parent.  Its heir
stays pending, while the child falls with the parent.
-/

namespace Sample

/-- The instance that is about to receive the third block. -/
def expecting : Blockchain :=
  (@Blockchain.ram familyCrypto).run
    [.addBlock first familyClock, .submitTransaction transfer, .addBlock second familyClock,
      .submitTransaction parent, .submitTransaction child, .submitTransaction spare,
      .submitTransaction heir] start

theorem expecting_reachable : @Blockchain.Reachable familyCrypto expecting :=
  ⟨familyClock, none, none, start, _, start_created_family, rfl⟩

theorem expecting_contents :
    expecting.mempool.getTransactions = [parent, child, spare, heir] ∧
      expecting.mempool.entries.keys = [parentTxid, childTxid, spareTxid, heirTxid] ∧
      ((@Blockchain.ram familyCrypto).step (.addBlock third familyClock) expecting).1 =
        .ok true ∧
      ((@Blockchain.ram familyCrypto).step (.addBlock third
        familyClock) expecting).2.mempool.entries.keys = [heirTxid] := by
  decide +kernel

theorem transactions_collisionFree :
    @CollisionFreeOn familyCrypto (TransactionOf third expecting.mempool) := by
  have hall : forall x, x ∈ [thirdCoinbase, spare, clash, parent, child, heir] ->
      forall y, y ∈ [thirdCoinbase, spare, clash, parent, child, heir] ->
      familyCrypto.sha256 x.encoding = familyCrypto.sha256 y.encoding -> x = y := by
    decide +kernel
  have hlists : (forall x, x ∈ third.transactions ->
      x ∈ [thirdCoinbase, spare, clash, parent, child, heir]) ∧
      forall x, x ∈ [parent, child, spare, heir] ->
        x ∈ [thirdCoinbase, spare, clash, parent, child, heir] := by
    decide +kernel
  have hmem : forall transaction, (transaction ∈ third.transactions ∨
      transaction ∈ expecting.mempool.getTransactions) ->
      transaction ∈ [thirdCoinbase, spare, clash, parent, child, heir] := by
    intro transaction htransaction
    rw [expecting_contents.left] at htransaction
    exact htransaction.elim (hlists.left transaction) (hlists.right transaction)
  intro x y hx hy heq
  rcases hx with ⟨a, ha, hxa⟩
  rcases hy with ⟨b, hb, hyb⟩
  rw [hxa, hyb] at heq
  rw [hxa, hyb, hall a (hmem a ha) b (hmem b hb) heq]

end Sample

theorem Blockchain.addBlock_survivors_family :
    exists after,
      (@Blockchain.ram Sample.familyCrypto).step (.addBlock Sample.third Sample.familyClock)
          Sample.expecting = (.ok true, after) ∧
        Sample.expecting.mempool.entries.keys =
          [Sample.parentTxid, Sample.childTxid, Sample.spareTxid, Sample.heirTxid] ∧
        after.mempool.entries.keys = [Sample.heirTxid] ∧
        after.mempool.entries.items =
          @Mempool.survivors Sample.familyCrypto after.state.utxoSet
            (Sample.expecting.mempool.entries.items.filter (fun item =>
              item.1 ∉ Sample.third.transactions.map
                (@Transaction.txid Sample.familyCrypto))) := by
  rcases Sample.expecting_contents with ⟨_, hpending, haccepted, hkeys⟩
  have hspec := (@Blockchain.addBlock_survivors Sample.familyCrypto Sample.expecting
    Sample.expecting_reachable Sample.third Sample.familyClock).right
  cases hstep : (@Blockchain.ram Sample.familyCrypto).step
      (.addBlock Sample.third Sample.familyClock) Sample.expecting with
  | mk answer after =>
      rw [hstep] at haccepted hkeys
      simp only at haccepted hkeys
      rw [haccepted] at hstep
      exact ⟨after, by rw [haccepted], hpending, hkeys,
        hspec after hstep Sample.transactions_collisionFree⟩

end PyChain
