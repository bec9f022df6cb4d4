import PyChain.Blockchain.Soundness
import PyChain.Storage.Recovery

/-!
# Write transactions

What the two write transactions do to a database that represents a chain.  A
transaction goes through exactly when it was prepared from the represented
chain and its numbers fit, and it leaves a database that represents the prepared
transition one revision later.
-/

namespace PyChain

open Foundation
open ChainStore
open Blockchain (Prepares Live)

variable [Crypto]

def Blockchain.Live.at_ (refs : Live) (revision : Int) : StoredChain :=
  { blocks := refs.blocks
    state := refs.state
    mempool := refs.mempool
    revision := revision }

/-- What a writer that holds this chain expects. -/
def StoredChain.expected (stored : StoredChain) : Expected :=
  { height := stored.metadata.height
    tipHash := stored.metadata.tipHash
    revision := stored.revision }

/-!
## The check at the start of a transaction
-/

omit [Crypto] in
theorem limits_eq_iff (limits other : MempoolLimits) :
    limits = other <->
      limits.maxTransactions = other.maxTransactions ∧
        limits.maxBytes = other.maxBytes := by
  cases limits
  cases other
  simp only [MempoolLimits.mk.injEq]

namespace Represents

variable {db : Database} {stored : StoredChain}

theorem readMetadata (h : Represents db stored) :
    ChainStore.readMetadata db = .ok stored.metadata :=
  (readMetadata_eq_ok_iff _ _).mpr ⟨h.metadata, h.readable⟩

theorem selectLatestBlock (h : Represents db stored) :
    exists row, db.selectLatestBlock = .ok (some row) ∧
      row.height = stored.metadata.height ∧
      row.hash = .text stored.metadata.tipHash := by
  rcases h.tipHash with ⟨tip, hvalid, htip⟩
  rcases List.getLast?_eq_some_iff.mp hvalid.getLast? with ⟨front, hfront⟩
  have hlast : (orderBy BlockRow.height db.blocks).getLast? =
      some (blockRow (0 + front.length) tip) := by
    rw [h.blocks, hfront, numbered_append, List.getLast?_append_of_ne_nil _ (by simp)]
    rfl
  have hheight : stored.metadata.height = (front.length : Int) := by
    unfold StoredChain.metadata
    rw [hfront, List.length_append]
    simp
  refine ⟨blockRow (0 + front.length) tip, ?_, ?_, ?_⟩
  · unfold Database.selectLatestBlock
    rw [hlast]
    rfl
  · rw [hheight]
    exact Int.zero_add _
  · rw [htip]
    rfl

theorem checkExpected_eq_ok_iff (h : Represents db stored) {expected : Expected}
    {pool : Mempool} {answer : Unit} :
    SQLiteChainStore.checkExpected expected pool db = .ok answer <->
      expected = stored.expected ∧ pool.limits = stored.mempool.limits := by
  rcases h.selectLatestBlock with ⟨row, hrow, hheight, hhash⟩
  unfold SQLiteChainStore.checkExpected SQLiteChainStore.checkConfiguration
  rw [h.readMetadata, hrow]
  simp only [bind_eq_ok_iff, require_eq_ok_iff, limits_eq_iff]
  constructor
  · intro hok
    rcases hok with ⟨metadata, hmetadata, latest, _, _, hmatches, hlimits⟩
    have heq : stored.metadata = metadata := Except.ok.inj hmetadata
    subst heq
    rcases hmatches.left with ⟨hexpectedHeight, hexpectedTip, hexpectedRevision⟩
    constructor
    · cases expected
      simp only at hexpectedHeight hexpectedTip hexpectedRevision
      rw [← hexpectedHeight, ← hexpectedTip, ← hexpectedRevision]
      rfl
    · simpa [StoredChain.metadata] using hlimits
  · intro hok
    rcases hok with ⟨hexpected, hcount, hbytes⟩
    subst hexpected
    refine ⟨stored.metadata, rfl, some row, rfl, (), ⟨⟨rfl, rfl, rfl⟩, ?_⟩, ?_⟩
    · simp only [Option.map_some, hheight, hhash]
      rfl
    · simp [StoredChain.metadata, hcount, hbytes]

end Represents

/-!
## The statements
-/

omit [Crypto] in
theorem insertBlock_eq_ok_iff {db db' : Database} {row : BlockRow}
    (h : blocksSchema.consistent db.blocks = true) :
    db.insertBlock row = .ok db' <->
      db' = { db with blocks := db.blocks ++ [row] } ∧ blocksSchema.binds row = true ∧
        blocksSchema.consistent (db.blocks ++ [row]) = true := by
  unfold Database.insertBlock
  simp only [bind_eq_ok_iff, blocksSchema.insertRow_eq_ok_iff h]
  constructor
  · intro hok
    rcases hok with ⟨blocks, ⟨hblocks, hrow⟩, heq⟩
    rw [← Except.ok.inj heq, hblocks]
    exact ⟨rfl, hrow⟩
  · intro hok
    exact ⟨_, ⟨rfl, hok.right⟩, congrArg Except.ok hok.left.symm⟩

omit [Crypto] in
theorem replaceChainstateRows_eq_ok_iff {rows : List SqlValue × List UtxoRow}
    {db db' : Database} :
    replaceChainstateRows rows db = .ok db' <->
      db' = { db with seenTransactions := rows.1, utxos := rows.2 } ∧
        ((forall row, row ∈ rows.1 -> seenSchema.binds row = true) ∧
          seenSchema.consistent rows.1 = true) ∧
        ((forall row, row ∈ rows.2 -> utxosSchema.binds row = true) ∧
          utxosSchema.consistent rows.2 = true) ∧
        forall row, row ∈ rows.2 -> rows.1.contains row.txid = true := by
  unfold replaceChainstateRows Database.deleteSeenTransactions
    Database.insertSeenTransactions Database.insertUtxos Database.deleteUtxos
  simp only [bind_eq_ok_iff, require_eq_ok_iff, foldlM_checked_eq_ok_iff]
  constructor
  · intro hok
    rcases hok with ⟨cleared, ⟨_, _, hcleared⟩, filled, ⟨seen, hseen, hfilled⟩, utxos,
      ⟨hutxos, hparents⟩, heq⟩
    cases hcleared
    cases hfilled
    rw [seenSchema.insertRows_nil_eq_ok_iff] at hseen
    rw [utxosSchema.insertRows_nil_eq_ok_iff] at hutxos
    rw [← Except.ok.inj heq, hutxos.left]
    rw [hseen.left] at hparents ⊢
    exact ⟨rfl, hseen.right, hutxos.right, hparents⟩
  · intro hok
    rcases hok with ⟨heq, hseen, hutxos, hparents⟩
    exact ⟨_, ⟨(), rfl, rfl⟩, _,
      ⟨_, (seenSchema.insertRows_nil_eq_ok_iff _ _).mpr ⟨rfl, hseen⟩, rfl⟩, _,
      ⟨(utxosSchema.insertRows_nil_eq_ok_iff _ _).mpr ⟨rfl, hutxos⟩, hparents⟩,
      congrArg Except.ok heq.symm⟩

omit [Crypto] in
theorem replaceMempoolRows_eq_ok_iff {rows : List MempoolRow} {db db' : Database} :
    replaceMempoolRows rows db = .ok db' <->
      db' = { db with mempool := rows } ∧
        (forall row, row ∈ rows -> mempoolSchema.binds row = true) ∧
        mempoolSchema.consistent rows = true := by
  unfold replaceMempoolRows Database.insertMempool Database.deleteMempool
  simp only [bind_eq_ok_iff, mempoolSchema.insertRows_nil_eq_ok_iff]
  constructor
  · intro hok
    rcases hok with ⟨mempool, ⟨hmempool, hrows⟩, heq⟩
    rw [← Except.ok.inj heq, hmempool]
    exact ⟨rfl, hrows⟩
  · intro hok
    exact ⟨_, ⟨rfl, hok.right⟩, congrArg Except.ok hok.left.symm⟩

omit [Crypto] in
theorem updateMetadata_eq_ok_iff {metadata next : Metadata} {height revision : Int}
    {tipHash mempoolDigest : Str} {expected : Expected} {db db' : Database}
    (h : db.metadata = [metadataColumns metadata])
    (hexpected : expected = ⟨metadata.height, metadata.tipHash, metadata.revision⟩)
    (hnext : next = ⟨height, tipHash, revision, metadata.maxTransactions, metadata.maxBytes,
      mempoolDigest⟩) :
    ChainStore.updateMetadata height tipHash revision mempoolDigest expected db = .ok db' <->
      db' = { db with metadata := [metadataColumns next] } ∧
        bindsAll [.integer next.height, .integer next.revision, .integer metadata.height,
          .integer metadata.revision] = true ∧
        metadataSchema.consistent [metadataColumns next] = true ∧
        db.tipReferenced (.text next.tipHash) = true := by
  subst hexpected
  subst hnext
  have hrow : { metadataColumns metadata with
      height := .integer height
      tipHash := .text tipHash
      revision := .integer revision
      mempoolDigest := .text mempoolDigest } =
      metadataColumns ⟨height, tipHash, revision, metadata.maxTransactions,
        metadata.maxBytes, mempoolDigest⟩ := rfl
  have hcurrent : ((metadataColumns metadata).id = 1 &&
      (metadataColumns metadata).height = .integer metadata.height &&
      (metadataColumns metadata).tipHash = .text metadata.tipHash &&
      (metadataColumns metadata).revision = .integer metadata.revision) = true := by
    simp [metadataColumns]
  unfold ChainStore.updateMetadata Database.updateMetadata
  simp only [h, List.map_cons, List.map_nil, hcurrent, if_true, hrow, List.filter_cons,
    List.filter_nil, List.length_singleton, Nat.one_ne_zero, if_false, bind_eq_ok_iff,
    require_eq_ok_iff]
  constructor
  · intro hok
    rcases hok with ⟨result, ⟨_, hbinds, _, hconsistent, _, htip, hresult⟩, _, _, heq⟩
    cases hresult
    exact ⟨(Except.ok.inj heq).symm, hbinds, hconsistent, htip⟩
  · intro hok
    rcases hok with ⟨heq, hbinds, hconsistent, htip⟩
    exact ⟨_, ⟨(), hbinds, (), hconsistent, (), htip, rfl⟩, (), rfl,
      congrArg Except.ok heq.symm⟩

/-!
## The tables after a commit
-/

/-- The tables after the commit of a block. -/
def appended (db : Database) (next : StoredChain) (block : Block) : Database :=
  { db with
    blocks := db.blocks ++ [blockRow next.metadata.height block]
    seenTransactions := seenRows next.state.seenTxids
    utxos := (next.state.utxoSet.items.insertionSort outpointLe).map utxoRow
    mempool := numbered mempoolRow 0 next.mempool.getTransactions
    metadata := [metadataColumns next.metadata] }

/-- The tables after the commit of a pool. -/
def replaced (db : Database) (next : StoredChain) : Database :=
  { db with
    mempool := numbered mempoolRow 0 next.mempool.getTransactions
    metadata := [metadataColumns next.metadata] }

theorem Blockchain.Prepares.limits {before after : Live} {call : Blockchain.Call}
    {block : Option Block} (h : Prepares before call after block) :
    after.mempool.limits = before.mempool.limits := by
  cases h with
  | @addBlock block tip clock now nextState _ _ _ _ _ _ =>
      exact (Mempool.revalidated_sameBase before.mempool nextState.utxoSet
        nextState.seenTxids).limits
  | @submitTransaction transaction mempool hadd =>
      have hbase := Mempool.addTransaction_sameBase before.mempool transaction
      rw [hadd] at hbase
      exact hbase.limits
  | @removePendingTransaction txid mempool hremove =>
      have hbase := Mempool.removeTransaction_sameBase before.mempool txid
      rw [hremove] at hbase
      exact hbase.limits

theorem Blockchain.Prepares.pool_only {before after : Live} {call : Blockchain.Call}
    (h : Prepares before call after none) :
    after.blocks = before.blocks ∧ after.state = before.state := by
  cases h with
  | submitTransaction _ => exact ⟨rfl, rfl⟩
  | removePendingTransaction _ => exact ⟨rfl, rfl⟩

theorem Blockchain.Prepares.extends_tip {before after : Live} {call : Blockchain.Call}
    {block : Block} (h : Prepares before call after (some block)) :
    exists tip, before.blocks.getLast? = some tip ∧ Linked block tip := by
  cases h with
  | addBlock htip _ hlinked _ _ _ => exact ⟨_, htip, hlinked⟩

theorem cachesState_of_valid {db : Database} {blocks : List Block} {tip : Block}
    {state : ChainState} (h : ValidChain blocks tip state)
    (hseen : db.seenTransactions = seenRows state.seenTxids)
    (hutxos : db.utxos = (state.utxoSet.items.insertionSort outpointLe).map utxoRow) :
    CachesState db state where
  seen := by
    refine ⟨state.seenTxids.sort (fun a b => a ≤ b), hseen, Finset.sort_nodup _ _, ?_⟩
    exact Finset.sort_toFinset _ _
  utxos := ⟨_, hutxos, List.perm_insertionSort _ _⟩
  hashes := h.seen_isHash
  outputs := h.cachedOutputs

namespace Represents

variable {db : Database} {stored : StoredChain} {after : Live} {call : Blockchain.Call}

theorem appended {block : Block} (h : Represents db stored)
    (hprepares : Prepares stored.live call after (some block)) :
    Represents (appended db (after.at_ (stored.revision + 1)) block)
      (after.at_ (stored.revision + 1)) := by
  have hsound := hprepares.sound h.sound
  rcases hsound.valid with ⟨tip, hvalid⟩
  have hblocks : after.blocks = stored.blocks ++ [block] := hprepares.grows
  have hlength : (after.blocks.length : Int) = stored.blocks.length + 1 := by
    rw [hblocks, List.length_append, List.length_singleton]
    omega
  have hrevision := h.revision
  constructor
  · exact h.schema
  · exact h.pages
  · apply orderBy_eq_numbered (fun _ _ => rfl)
    have hheight : (after.at_ (stored.revision + 1)).metadata.height =
        0 + (stored.blocks.length : Int) := by
      change (after.blocks.length : Int) - 1 = 0 + (stored.blocks.length : Int)
      omega
    have hrows : numbered blockRow 0 (after.at_ (stored.revision + 1)).blocks =
        numbered blockRow 0 stored.blocks ++
          [blockRow (0 + (stored.blocks.length : Int)) block] := by
      change numbered blockRow 0 after.blocks = _
      rw [hblocks, numbered_append]
    rw [hrows, ← hheight]
    exact h.blocks_perm.append_right _
  · exact cachesState_of_valid hvalid rfl rfl
  · exact orderBy_eq_numbered (fun _ _ => rfl) (List.Perm.refl _)
  · rfl
  · exact hsound
  · change (after.blocks.length : Int) - 1 ≤ stored.revision + 1
    omega

theorem replaced (h : Represents db stored)
    (hprepares : Prepares stored.live call after none) :
    Represents (replaced db (after.at_ (stored.revision + 1)))
      (after.at_ (stored.revision + 1)) := by
  have hsound := hprepares.sound h.sound
  rcases hprepares.pool_only with ⟨hblocks, hstate⟩
  have hblocks' : after.blocks = stored.blocks := hblocks
  have hstate' : after.state = stored.state := hstate
  have hrevision := h.revision
  constructor
  · exact h.schema
  · exact h.pages
  · change orderBy BlockRow.height db.blocks = numbered blockRow 0 after.blocks
    rw [hblocks']
    exact h.blocks
  · change CachesState _ after.state
    rw [hstate']
    exact ⟨h.caches.seen, h.caches.utxos, h.caches.hashes, h.caches.outputs⟩
  · exact orderBy_eq_numbered (fun _ _ => rfl) (List.Perm.refl _)
  · rfl
  · exact hsound
  · change (after.blocks.length : Int) - 1 ≤ stored.revision + 1
    rw [hblocks']
    omega

end Represents

/-!
## The transactions
-/

/-- A chain whose numbers fit into the columns. -/
structure Fits (next : StoredChain) : Prop where
  revision : next.revision ≤ MAX_SQLITE_INTEGER
  outputs : forall item, item ∈ next.state.utxoSet.items ->
    item.1.2 ≤ MAX_SQLITE_INTEGER
  positions : (next.mempool.getTransactions.length : Int) ≤ MAX_SQLITE_INTEGER + 1

omit [Crypto] in
theorem binds_integer {n : Int} (hlow : 0 ≤ n) (hhigh : n ≤ MAX_SQLITE_INTEGER) :
    (SqlValue.integer n).binds = true := by
  have hbound : -(2 ^ 63) ≤ n := by
    omega
  unfold SqlValue.binds
  rw [Bool.and_eq_true]
  exact ⟨decide_eq_true hbound, decide_eq_true hhigh⟩

omit [Crypto] in
theorem utxoRow_binds {item : OutPoint × TxOutput} (hlow : 0 ≤ item.1.2)
    (hhigh : item.1.2 ≤ MAX_SQLITE_INTEGER) : utxosSchema.binds (utxoRow item) = true := by
  simp only [utxosSchema, bindsAll, UtxoRow.columns, utxoRow, List.all_cons, List.all_nil,
    binds_integer hlow hhigh]
  rfl

theorem mempoolRows_binds {transactions : List Transaction}
    (h : (transactions.length : Int) ≤ MAX_SQLITE_INTEGER + 1) :
    forall row, row ∈ numbered mempoolRow 0 transactions ->
      mempoolSchema.binds row = true := by
  intro row hrow
  rcases mem_numbered hrow with ⟨i, transaction, hlow, hhigh, _, heq⟩
  have hmax : i ≤ MAX_SQLITE_INTEGER := by
    omega
  rw [heq]
  simp only [mempoolSchema, bindsAll, MempoolRow.columns, mempoolRow, List.all_cons,
    List.all_nil, binds_integer hlow hmax]
  rfl

theorem blockRow_binds {height : Int} {block : Block} (hlow : 0 ≤ height)
    (hhigh : height ≤ MAX_SQLITE_INTEGER) :
    blocksSchema.binds (blockRow height block) = true := by
  simp only [blocksSchema, bindsAll, BlockRow.columns, blockRow, List.all_cons,
    List.all_nil, binds_integer hlow hhigh]
  rfl

namespace Represents

variable {db : Database} {stored : StoredChain} {after : Live} {call : Blockchain.Call}

theorem next_metadata_append {block : Block}
    (hprepares : Prepares stored.live call after (some block)) :
    (after.at_ (stored.revision + 1)).metadata =
      ⟨stored.expected.height + 1, block.hash, stored.expected.revision + 1,
        stored.metadata.maxTransactions, stored.metadata.maxBytes,
        txidsDigest (after.mempool.getTransactions.map Transaction.txid)⟩ := by
  have hblocks : after.blocks = stored.blocks ++ [block] := hprepares.grows
  have hlimits : after.mempool.limits = stored.mempool.limits := hprepares.limits
  unfold StoredChain.metadata StoredChain.expected Blockchain.Live.at_ StoredChain.metadata
  rw [hblocks, hlimits, List.getLast?_concat, List.length_append, List.length_singleton]
  simp

theorem next_metadata_replace (hprepares : Prepares stored.live call after none) :
    (after.at_ (stored.revision + 1)).metadata =
      ⟨stored.expected.height, stored.expected.tipHash, stored.expected.revision + 1,
        stored.metadata.maxTransactions, stored.metadata.maxBytes,
        txidsDigest (after.mempool.getTransactions.map Transaction.txid)⟩ := by
  have hblocks : after.blocks = stored.blocks := hprepares.pool_only.left
  have hlimits : after.mempool.limits = stored.mempool.limits := hprepares.limits
  unfold StoredChain.metadata StoredChain.expected Blockchain.Live.at_ StoredChain.metadata
  rw [hblocks, hlimits]

theorem append_sound {block : Block} (h : Represents db stored)
    (hprepares : Prepares stored.live call after (some block))
    {rows : SQLiteChainStore.AppendRows} {answer : Int} {db' : Database}
    (hrows : SQLiteChainStore.appendRows block after.state after.mempool stored.expected =
      .ok rows)
    (htables : SQLiteChainStore.appendTables block after.mempool stored.expected rows db =
      .ok (answer, db')) :
    answer = stored.revision + 1 ∧
      db' = PyChain.appended db (after.at_ (stored.revision + 1)) block := by
  have hnext := next_metadata_append hprepares
  unfold SQLiteChainStore.appendRows at hrows
  simp only [bind_eq_ok_iff, encodeBlockRow_eq_ok_iff, encodeChainstateRows_eq_ok_iff,
    encodeMempoolRows_eq_ok_iff] at hrows
  rcases hrows with ⟨_, ⟨rfl, _⟩, _, ⟨rfl, _⟩, _, ⟨rfl, _⟩, _, _, heq⟩
  cases heq
  unfold SQLiteChainStore.appendTables at htables
  simp only [bind_eq_ok_iff, insertBlock_eq_ok_iff h.blocks_consistent,
    replaceChainstateRows_eq_ok_iff, replaceMempoolRows_eq_ok_iff] at htables
  rcases htables with ⟨_, _, _, _, _, ⟨rfl, _⟩, _, ⟨rfl, _⟩, _, ⟨rfl, _⟩, final, hupdate, heq⟩
  cases heq
  refine ⟨rfl, ?_⟩
  have hiff := fun hmetadata => (updateMetadata_eq_ok_iff hmetadata rfl hnext).mp hupdate
  have hfinal := (hiff h.metadata).left
  have hheight : (after.at_ (stored.revision + 1)).metadata.height =
      stored.expected.height + 1 := by
    rw [hnext]
  unfold PyChain.appended
  rw [hheight]
  exact hfinal

theorem replace_sound (h : Represents db stored)
    (hprepares : Prepares stored.live call after none)
    {rows : List MempoolRow × Str} {answer : Int} {db' : Database}
    (hrows : SQLiteChainStore.poolRows after.mempool stored.expected = .ok rows)
    (htables : SQLiteChainStore.replaceTables after.mempool stored.expected rows db =
      .ok (answer, db')) :
    answer = stored.revision + 1 ∧
      db' = PyChain.replaced db (after.at_ (stored.revision + 1)) := by
  have hnext := next_metadata_replace hprepares
  unfold SQLiteChainStore.poolRows at hrows
  simp only [bind_eq_ok_iff, encodeMempoolRows_eq_ok_iff] at hrows
  rcases hrows with ⟨_, ⟨rfl, _⟩, _, _, heq⟩
  cases heq
  unfold SQLiteChainStore.replaceTables at htables
  simp only [bind_eq_ok_iff, replaceMempoolRows_eq_ok_iff] at htables
  rcases htables with ⟨_, _, _, ⟨rfl, _⟩, final, hupdate, heq⟩
  cases heq
  have hiff := fun hmetadata => (updateMetadata_eq_ok_iff hmetadata rfl hnext).mp hupdate
  exact ⟨rfl, (hiff h.metadata).left⟩

theorem encodeMempoolRows_of_sound {refs : Live} (h : refs.Sound) :
    encodeMempoolRows refs.mempool =
      .ok (numbered mempoolRow 0 refs.mempool.getTransactions) := by
  have hcoherent := h.coherent
  have hsizes : refs.mempool.getTransactions.map (fun t => t.encoding.length) =
      refs.mempool.entries.values.map MempoolEntry.sizeBytes := by
    unfold Mempool.getTransactions Dict.values
    rw [List.map_map, List.map_map, List.map_map]
    apply List.map_congr_left
    intro item hitem
    exact (hcoherent.keyed item.1 item.2 hitem).right.symm
  have hlength : refs.mempool.getTransactions.length = refs.mempool.size := by
    unfold Mempool.getTransactions Dict.values Mempool.size
    rw [List.length_map, List.length_map]
    rfl
  rw [encodeMempoolRows_eq_ok_iff, hsizes, ← hcoherent.totalBytes_eq, hlength]
  exact ⟨rfl, hcoherent.processes.storable, hcoherent.size_le, hcoherent.bytes_le⟩

theorem metadataRow_of_fits {next : StoredChain} (h : ReadableMetadata next.metadata)
    (hfits : next.revision ≤ MAX_SQLITE_INTEGER) :
    metadataRow next.metadata.height next.metadata.tipHash next.metadata.revision
        next.metadata.maxTransactions next.metadata.maxBytes next.metadata.mempoolDigest =
      .ok (metadataColumns next.metadata) := by
  have hheight := h.height
  have hrevision := h.revision
  have hfits' : next.metadata.revision ≤ MAX_SQLITE_INTEGER := hfits
  rw [metadataRow_eq_ok_iff]
  exact ⟨rfl, ⟨⟨hheight, by omega⟩, by omega, hfits'⟩, ⟨h.tipHash, h.mempoolDigest⟩,
    h.maxTransactions, h.maxBytes⟩

theorem update_binds {next : StoredChain} (h : Represents db stored)
    (hnext : ReadableMetadata next.metadata) (hrevision : next.revision = stored.revision + 1)
    (hfits : next.revision ≤ MAX_SQLITE_INTEGER) :
    bindsAll [.integer next.metadata.height, .integer next.metadata.revision,
      .integer stored.metadata.height, .integer stored.metadata.revision] = true := by
  have hheight := hnext.height
  have hle : next.metadata.height ≤ next.revision := hnext.revision
  have hold := h.readable.height
  have holdLe : stored.metadata.height ≤ stored.revision := h.readable.revision
  have hfirst := binds_integer hheight (by omega)
  have hsecond : (SqlValue.integer next.metadata.revision).binds = true :=
    binds_integer (n := next.revision) (by omega) hfits
  have hthird := binds_integer hold (by omega)
  have hfourth : (SqlValue.integer stored.metadata.revision).binds = true :=
    binds_integer (n := stored.revision) (by omega) (by omega)
  simp only [bindsAll, List.all_cons, List.all_nil, hfirst, hsecond, hthird, hfourth]
  rfl

theorem append_complete {block : Block} (h : Represents db stored)
    (hprepares : Prepares stored.live call after (some block))
    (hfits : Fits (after.at_ (stored.revision + 1))) :
    exists rows,
      SQLiteChainStore.appendRows block after.state after.mempool stored.expected =
          .ok rows ∧
        SQLiteChainStore.appendTables block after.mempool stored.expected rows db =
          .ok (stored.revision + 1,
            PyChain.appended db (after.at_ (stored.revision + 1)) block) := by
  have hnext := next_metadata_append hprepares
  have hdb := h.appended hprepares
  have hlimits : after.mempool.limits = stored.mempool.limits := hprepares.limits
  have hsound := hprepares.sound h.sound
  rcases hsound.valid with ⟨_, hvalid⟩
  have hreadable := hdb.readable
  have hheight : (after.at_ (stored.revision + 1)).metadata.height =
      stored.expected.height + 1 := by
    rw [hnext]
  have hlow := hreadable.height
  have hhigh : (after.at_ (stored.revision + 1)).metadata.height ≤ MAX_SQLITE_INTEGER :=
    Int.le_trans hreadable.revision hfits.revision
  have hmem : block ∈ after.blocks := by
    rw [hprepares.grows]
    exact List.mem_append_right _ List.mem_cons_self
  have hmetadata : metadataRow (stored.expected.height + 1) block.hash
      (stored.expected.revision + 1) after.mempool.limits.maxTransactions
      after.mempool.limits.maxBytes
      (txidsDigest (after.mempool.getTransactions.map Transaction.txid)) =
        .ok (metadataColumns (after.at_ (stored.revision + 1)).metadata) := by
    have hrow := metadataRow_of_fits hreadable hfits.revision
    rw [hlimits]
    rw [hnext] at hrow ⊢
    exact hrow
  have hprevious : block.previousBlockHash = stored.expected.tipHash := by
    rcases hprepares.extends_tip with ⟨tip, htip, hlinked⟩
    have htip' : stored.blocks.getLast? = some tip := htip
    rw [hlinked.previousHash]
    unfold StoredChain.expected StoredChain.metadata
    simp only [htip', Option.map_some, Option.getD_some]
  refine ⟨{
    block := blockRow (stored.expected.height + 1) block
    state := (seenRows after.state.seenTxids,
      (after.state.utxoSet.items.insertionSort outpointLe).map utxoRow)
    pool := numbered mempoolRow 0 after.mempool.getTransactions
    tipHash := block.hash
    mempoolDigest := txidsDigest (after.mempool.getTransactions.map Transaction.txid) }, ?_, ?_⟩
  · unfold SQLiteChainStore.appendRows
    simp only [bind_eq_ok_iff, encodeBlockRow_eq_ok_iff, encodeChainstateRows_eq_ok_iff,
      encodeMempoolRows_of_sound hsound]
    refine ⟨_, ⟨rfl, ?_, hvalid.storable block hmem⟩, _, ⟨rfl, hvalid.seen_isHash, ?_⟩, _, rfl,
      _, hmetadata, rfl⟩
    · rw [← hheight]
      exact ⟨hlow, hhigh⟩
    · intro item hitem
      exact ⟨hvalid.cachedOutputs item hitem, hfits.outputs item hitem⟩
  · unfold SQLiteChainStore.appendTables
    simp only [bind_eq_ok_iff, insertBlock_eq_ok_iff h.blocks_consistent,
      replaceChainstateRows_eq_ok_iff, replaceMempoolRows_eq_ok_iff,
      h.checkExpected_eq_ok_iff, require_eq_ok_iff]
    have hblocks := hdb.blocks_consistent
    unfold PyChain.appended at hblocks ⊢
    rw [hheight] at hblocks hlow hhigh ⊢
    refine ⟨(), ⟨trivial, hlimits⟩, (), hprevious, _,
      ⟨rfl, blockRow_binds hlow hhigh, hblocks⟩, _,
      ⟨rfl, ⟨?_, hdb.seen_consistent⟩, ⟨?_, hdb.utxos_consistent⟩, ?_⟩, _,
      ⟨rfl, mempoolRows_binds hfits.positions, hdb.mempool_consistent⟩, _, ?_, rfl⟩
    · intro row hrow
      rcases List.mem_map.mp hrow with ⟨txid, _, heq⟩
      rw [← heq]
      rfl
    · intro row hrow
      rcases List.mem_map.mp hrow with ⟨item, hitem, heq⟩
      have hitem' := (List.mem_insertionSort _).mp hitem
      rw [← heq]
      exact utxoRow_binds (hvalid.cachedOutputs item hitem').outputIndex
        (hfits.outputs item hitem')
    · intro row hrow
      rcases List.mem_map.mp hrow with ⟨item, hitem, heq⟩
      have hitem' := (List.mem_insertionSort _).mp hitem
      rw [← heq, List.contains_iff_mem]
      exact List.mem_map.mpr ⟨item.1.1, (Finset.mem_sort _).mpr
        (hvalid.cachedOutputs item hitem').recorded, rfl⟩
    · have htip := hdb.tipReferenced
      unfold PyChain.appended at htip
      rw [hheight] at htip
      refine (updateMetadata_eq_ok_iff ?_ rfl hnext).mpr
        ⟨rfl, update_binds h hreadable rfl hfits.revision, hdb.metadata_consistent, htip⟩
      exact h.metadata

theorem replace_complete (h : Represents db stored)
    (hprepares : Prepares stored.live call after none)
    (hrevision : stored.revision + 1 ≤ MAX_SQLITE_INTEGER)
    (hpositions : (after.mempool.getTransactions.length : Int) ≤ MAX_SQLITE_INTEGER + 1) :
    exists rows,
      SQLiteChainStore.poolRows after.mempool stored.expected = .ok rows ∧
        SQLiteChainStore.replaceTables after.mempool stored.expected rows db =
          .ok (stored.revision + 1,
            PyChain.replaced db (after.at_ (stored.revision + 1))) := by
  have hnext := next_metadata_replace hprepares
  have hdb := h.replaced hprepares
  have hlimits : after.mempool.limits = stored.mempool.limits := hprepares.limits
  have hsound := hprepares.sound h.sound
  have hreadable := hdb.readable
  have hmetadata : metadataRow stored.expected.height stored.expected.tipHash
      (stored.expected.revision + 1) after.mempool.limits.maxTransactions
      after.mempool.limits.maxBytes
      (txidsDigest (after.mempool.getTransactions.map Transaction.txid)) =
        .ok (metadataColumns (after.at_ (stored.revision + 1)).metadata) := by
    have hrow := metadataRow_of_fits hreadable hrevision
    rw [hlimits]
    rw [hnext] at hrow ⊢
    exact hrow
  refine ⟨(numbered mempoolRow 0 after.mempool.getTransactions,
    txidsDigest (after.mempool.getTransactions.map Transaction.txid)), ?_, ?_⟩
  · unfold SQLiteChainStore.poolRows
    simp only [bind_eq_ok_iff, encodeMempoolRows_of_sound hsound]
    exact ⟨_, rfl, _, hmetadata, rfl⟩
  · unfold SQLiteChainStore.replaceTables
    simp only [bind_eq_ok_iff, replaceMempoolRows_eq_ok_iff, h.checkExpected_eq_ok_iff]
    refine ⟨(), ⟨trivial, hlimits⟩, _,
      ⟨rfl, mempoolRows_binds hpositions, hdb.mempool_consistent⟩, _, ?_, rfl⟩
    refine (updateMetadata_eq_ok_iff ?_ rfl hnext).mpr
      ⟨rfl, update_binds h hreadable rfl hrevision, hdb.metadata_consistent,
        hdb.tipReferenced⟩
    exact h.metadata

end Represents

/-!
## Commits of an instance
-/

/-- A connected store over a file with content. -/
def SQLiteChainStore.opened (db : Database) : SQLiteChainStore :=
  { file := .present db, connected := true, closed := false }

/-- What an instance holds in memory. -/
def Blockchain.held (chain : Blockchain) : StoredChain :=
  (Blockchain.live chain).at_ chain.revision

/-- An instance after a transition was published. -/
def Blockchain.published (chain : Blockchain) (after : Live) (revision : Int) : Blockchain :=
  { chain with
    blocks := after.blocks
    state := after.state
    mempool := after.mempool
    revision := revision }

def Blockchain.failed (chain : Blockchain) : Blockchain :=
  { chain with storageFailed := true }

omit [Crypto] in
theorem write_cases {rows : Type} (fault : Fault) (prepare : Except PyError rows)
    (body : rows -> Database -> Except PyError (Int × Database)) (db : Database) :
    (exists e, SQLiteChainStore.write fault prepare body (SQLiteChainStore.opened db) =
        (.error e, SQLiteChainStore.opened db)) ∨
      (exists r answer next, prepare = .ok r ∧ body r db = .ok (answer, next) ∧
        ((fault = .none ∧
            SQLiteChainStore.write fault prepare body (SQLiteChainStore.opened db) =
              (.ok answer, SQLiteChainStore.opened next)) ∨
          exists e, SQLiteChainStore.write fault prepare body (SQLiteChainStore.opened db) =
            (.error e, SQLiteChainStore.opened next))) := by
  have hwrite : SQLiteChainStore.write fault prepare body (SQLiteChainStore.opened db) =
      ((prepared fault prepare body db).1,
        SQLiteChainStore.opened (prepared fault prepare body db).2) := rfl
  rw [hwrite]
  rcases prepared_cases fault prepare body db with
    ⟨e, heq⟩ | ⟨r, answer, next, hprepare, hbody, houtcome⟩
  · rw [heq]
    exact Or.inl ⟨e, rfl⟩
  · refine Or.inr ⟨r, answer, next, hprepare, hbody, ?_⟩
    rcases houtcome with ⟨hfault, heq⟩ | ⟨e, heq⟩
    · rw [heq]
      exact Or.inl ⟨hfault, rfl⟩
    · rw [heq]
      exact Or.inr ⟨e, rfl⟩

/-- The transaction that a commit runs. -/
def SQLiteChainStore.persist (faults : Faults) (after : Live) (block : Option Block)
    (expected : Expected) (store : SQLiteChainStore) : Except PyError Int × SQLiteChainStore :=
  match block with
  | none => SQLiteChainStore.replaceMempool faults after.mempool expected store
  | some block =>
      SQLiteChainStore.appendBlock faults block after.state after.mempool expected store

/-- A transaction prepared by an instance leaves the file as it was, or the
instance held the represented chain and the file represents the transition. -/
theorem persist_cases (faults : Faults) {db : Database} {stored held : StoredChain}
    {after : Live} {call : Blockchain.Call} {block : Option Block}
    (h : Represents db stored) (hprepares : Prepares held.live call after block)
    (hunique : held.expected = stored.expected -> held = stored) :
    (exists e, SQLiteChainStore.persist faults after block held.expected
        (SQLiteChainStore.opened db) = (.error e, SQLiteChainStore.opened db)) ∨
      (held = stored ∧ exists db', Represents db' (after.at_ (stored.revision + 1)) ∧
        ((faults.transaction = .none ∧
            SQLiteChainStore.persist faults after block held.expected
              (SQLiteChainStore.opened db) =
                (.ok (stored.revision + 1), SQLiteChainStore.opened db')) ∨
          exists e, SQLiteChainStore.persist faults after block held.expected
            (SQLiteChainStore.opened db) = (.error e, SQLiteChainStore.opened db'))) := by
  cases block with
  | none =>
      rcases write_cases faults.transaction
          (SQLiteChainStore.poolRows after.mempool held.expected)
          (SQLiteChainStore.replaceTables after.mempool held.expected) db with
        herror | ⟨rows, answer, next, hrows, htables, houtcome⟩
      · exact Or.inl herror
      · rcases bind_eq_ok_iff.mp htables with ⟨_, hexpected, _⟩
        have hheld := hunique (h.checkExpected_eq_ok_iff.mp hexpected).left
        subst hheld
        rcases h.replace_sound hprepares hrows htables with ⟨hanswer, hnext⟩
        subst hanswer
        subst hnext
        exact Or.inr ⟨rfl, _, h.replaced hprepares, houtcome⟩
  | some block =>
      rcases write_cases faults.transaction
          (SQLiteChainStore.appendRows block after.state after.mempool held.expected)
          (SQLiteChainStore.appendTables block after.mempool held.expected) db with
        herror | ⟨rows, answer, next, hrows, htables, houtcome⟩
      · exact Or.inl herror
      · rcases bind_eq_ok_iff.mp htables with ⟨_, hexpected, _⟩
        have hheld := hunique (h.checkExpected_eq_ok_iff.mp hexpected).left
        subst hheld
        rcases h.append_sound hprepares hrows htables with ⟨hanswer, hnext⟩
        subst hanswer
        subst hnext
        exact Or.inr ⟨rfl, _, h.appended hprepares, houtcome⟩

/-- Without faults a transaction over the represented chain goes through when its
numbers fit. -/
theorem persist_none {db : Database} {stored : StoredChain} {after : Live}
    {call : Blockchain.Call} {block : Option Block} (h : Represents db stored)
    (hprepares : Prepares stored.live call after block)
    (hfits : Fits (after.at_ (stored.revision + 1))) :
    exists db', Represents db' (after.at_ (stored.revision + 1)) ∧
      SQLiteChainStore.persist Faults.none after block stored.expected
          (SQLiteChainStore.opened db) =
        (.ok (stored.revision + 1), SQLiteChainStore.opened db') := by
  cases block with
  | none =>
      rcases h.replace_complete hprepares hfits.revision hfits.positions with
        ⟨rows, hrows, htables⟩
      refine ⟨_, h.replaced hprepares, ?_⟩
      have hprepared := prepared_none_ok hrows htables
      change ((prepared .none _ _ db).1, SQLiteChainStore.opened (prepared .none _ _ db).2) = _
      rw [hprepared]
  | some block =>
      rcases h.append_complete hprepares hfits with ⟨rows, hrows, htables⟩
      refine ⟨_, h.appended hprepares, ?_⟩
      have hprepared := prepared_none_ok hrows htables
      change ((prepared .none _ _ db).1, SQLiteChainStore.opened (prepared .none _ _ db).2) = _
      rw [hprepared]

theorem commitTrue_eq {chain : Blockchain} {tip : Block} (faults : Faults) (after : Live)
    (block : Option Block) (store : SQLiteChainStore)
    (htip : chain.blocks.getLast? = some tip) :
    Blockchain.commitTrue (some (SQLiteChainStore.operations faults)) chain after.blocks
        after.state after.mempool block store =
      match SQLiteChainStore.persist faults after block chain.held.expected store with
      | (.ok revision, store') => (.ok true, chain.published after revision, store')
      | (.error e, store') => (.error (Blockchain.commitError e), chain.failed, store') := by
  have hexpected : chain.held.expected =
      { height := (chain.blocks.length : Int) - 1
        tipHash := tip.hash
        revision := chain.revision } := by
    unfold Blockchain.held StoredChain.expected StoredChain.metadata Blockchain.Live.at_
      Blockchain.live
    simp only [htip, Option.map_some, Option.getD_some]
  unfold Blockchain.commitTrue Blockchain.commit
  simp only [htip, hexpected]
  cases block with
  | none =>
      simp only [SQLiteChainStore.persist, SQLiteChainStore.operations]
      rcases SQLiteChainStore.replaceMempool faults after.mempool
        ⟨(chain.blocks.length : Int) - 1, tip.hash, chain.revision⟩ store with
        ⟨answer, store'⟩
      cases answer with
      | ok revision => rfl
      | error e => rfl
  | some block =>
      simp only [SQLiteChainStore.persist, SQLiteChainStore.operations]
      rcases SQLiteChainStore.appendBlock faults block after.state after.mempool
        ⟨(chain.blocks.length : Int) - 1, tip.hash, chain.revision⟩ store with
        ⟨answer, store'⟩
      cases answer with
      | ok revision => rfl
      | error e => rfl

end PyChain
