import Mathlib.Data.List.TakeWhile
import PyChain.Blockchain.Ledger
import PyChain.Storage.Readers

/-!
# Recovery

A database represents a chain when its rows are exactly those of the chain, its
state and its pool.  Reading a database succeeds exactly when it represents a
timely chain under the given limits, and reading never writes.
-/

namespace PyChain

open Foundation
open ChainStore

/-- The live references of a recovered chain. -/
def StoredChain.live (stored : StoredChain) : Blockchain.Live :=
  { blocks := stored.blocks, state := stored.state, mempool := stored.mempool }

section Storable

variable [Crypto]

/-!
## Accepted objects can be stored
-/

omit [Crypto] in
theorem checkInputs_storable (inputs : List TxInput) :
    forall seen, checkInputs inputs seen = true ->
      forall input, input ∈ inputs -> Codec.StorableInput input := by
  induction inputs with
  | nil =>
      intro seen _ input hinput
      cases hinput
  | cons first rest ih =>
      intro seen h
      unfold checkInputs at h
      split at h
      · cases h
      rename_i hfields
      split at h
      · cases h
      rw [List.forall_mem_cons]
      simp only [not_or] at hfields
      rcases hfields with ⟨hprevious, hindex, hkey, hsignature⟩
      exact ⟨⟨hprevious, Int.not_lt.mp hindex, hkey, hsignature⟩, ih _ h⟩

theorem Accepted.storable {transaction : Transaction} {utxoSet : UTXOSet} {fee : Int}
    (h : Accepted transaction utxoSet fee) : Codec.Storable transaction := by
  have hshape := h.shape
  simp only [hasRegularShape, Bool.and_eq_true, decide_eq_true_eq, Bool.not_eq_true',
    List.isEmpty_eq_false_iff] at hshape
  rcases hshape with ⟨⟨⟨hversion, htimestamp⟩, hinputs⟩, houtputs⟩
  exact ⟨hversion, htimestamp, houtputs, checkInputs_storable _ _ h.inputs, h.outputs,
    Or.inl hinputs⟩

theorem Processes.storable {utxos final : UTXOSet} {seen : Finset Str}
    {transactions : List Transaction} {fees : List Int}
    (h : Processes utxos seen transactions fees final) :
    forall transaction, transaction ∈ transactions -> Codec.Storable transaction := by
  intro transaction hmem
  rcases List.append_of_mem hmem with ⟨before, after, hsplit⟩
  rcases h.accepted_at before transaction after hsplit with ⟨_, _, _, _, haccepted, _⟩
  exact haccepted.storable

theorem storable_of_coinbase {transaction : Transaction} {blockTimestamp : Int}
    (h : validateCoinbaseStructure transaction blockTimestamp = true) :
    Codec.Storable transaction := by
  rcases (validateCoinbaseStructure_iff _ _).mp h with
    ⟨htime, hinputs, hversion, htimestamp, output, houtputs, hvalid⟩
  constructor
  · exact hversion
  · rw [htimestamp]
    exact htime
  · rw [houtputs]
    simp
  · intro input hinput
    rw [hinputs] at hinput
    cases hinput
  · intro other hother
    rw [houtputs, List.mem_singleton] at hother
    rw [hother]
    exact hvalid
  · rw [houtputs]
    exact Or.inr rfl

theorem ValidChain.storable {blocks : List Block} {tip : Block} {state : ChainState}
    (h : ValidChain blocks tip state) :
    forall block, block ∈ blocks -> Codec.StorableBlock block := by
  induction h with
  | @genesis block hstructure hgenesis =>
      intro other hother
      rw [List.mem_singleton.mp hother]
      refine ⟨hstructure, ?_⟩
      rw [((isGenesisBlock_iff block).mp hgenesis).left]
      intro transaction htransaction
      cases htransaction
  | @extend blocks tip block state next _ hlinked happly _ ih =>
      intro other hother
      rcases List.mem_append.mp hother with hold | hnew
      · exact ih other hold
      rw [List.mem_singleton.mp hnew]
      rcases (applyBlockTransactions_eq_some_iff _ _ _).mp happly with
        ⟨coinbase, regular, fees, working, happlied⟩
      refine ⟨hlinked.structure_, ?_⟩
      rw [happlied.transactions, List.forall_mem_cons]
      constructor
      · exact storable_of_coinbase
          ((validateCoinbaseTransaction_iff _ _ _).mp happlied.coinbase_valid).right.left
      · exact happlied.processes.storable

theorem ValidChain.seen_isHash {blocks : List Block} {tip : Block} {state : ChainState}
    (h : ValidChain blocks tip state) :
    forall txid, txid ∈ state.seenTxids -> isHash txid = true := by
  intro txid hmem
  rcases (h.ledger.mem_seen_iff txid).mp hmem with ⟨_, transaction, _, _, heq⟩
  rw [← heq]
  exact sha256Hex_isHash _

theorem ValidChain.cachedOutputs {blocks : List Block} {tip : Block} {state : ChainState}
    (h : ValidChain blocks tip state) :
    forall item, item ∈ state.utxoSet.items -> CachedOutput state.seenTxids item := by
  intro item hitem
  have hget : state.utxoSet.get? item.1 = some item.2 :=
    (Dict.get?_eq_some_iff _ _ _).mpr hitem
  constructor
  · exact h.ledger.recorded item.1 (Dict.mem_keys_of_get? hget)
  · rcases ((h.ledger.exact.get?_iff item.1 item.2).mp hget).left with hbase | hcreated
    · cases hbase
    · rcases (mem_createdBy_iff _ _ _).mp hcreated with ⟨transaction, _, hmem⟩
      rw [← UTXOSet.posting_created] at hmem
      rcases ((Posting.mem_created _ _ _).mp hmem).right with ⟨i, hi, _⟩
      omega
  · exact h.outputs_valid item.1 item.2 hget

end Storable

/-!
## Representation
-/

section Representation

variable [Crypto]

def StoredChain.metadata (stored : StoredChain) : Metadata :=
  { height := (stored.blocks.length : Int) - 1
    tipHash := (stored.blocks.getLast?.map Block.hash).getD []
    revision := stored.revision
    maxTransactions := stored.mempool.limits.maxTransactions
    maxBytes := stored.mempool.limits.maxBytes
    mempoolDigest := txidsDigest (stored.mempool.getTransactions.map Transaction.txid) }

/-- The five tables hold a chain, its state and its pool, and nothing else. -/
structure Represents (db : Database) (stored : StoredChain) : Prop where
  schema : db.schemaDefect = none
  pages : db.pagesSound = true
  blocks : orderBy BlockRow.height db.blocks = numbered blockRow 0 stored.blocks
  caches : CachesState db stored.state
  mempool : orderBy MempoolRow.position db.mempool =
    numbered mempoolRow 0 stored.mempool.getTransactions
  metadata : db.metadata = [metadataColumns stored.metadata]
  sound : stored.live.Sound
  revision : (stored.blocks.length : Int) - 1 ≤ stored.revision

/-!
## Stored rows satisfy the constraints
-/

omit [Crypto] in
theorem visible_eq {text : Str} (h : forall c, c ∈ text -> c ≠ Char.ofNat 0) :
    SqlValue.visible text = text := by
  apply List.takeWhile_eq_self_iff.mpr
  intro c hc
  exact decide_eq_true (h c hc)

omit [Crypto] in
theorem checkHash_of_isHash {text : Str} (h : isHash text = true) :
    (SqlValue.text text).checkHash = true := by
  have hvisible : SqlValue.visible text = text := by
    apply visible_eq
    intro c hc heq
    simp only [isHash, Bool.and_eq_true, List.all_eq_true] at h
    have hhex := h.right c hc
    rw [heq] at hhex
    exact absurd hhex (by decide)
  change isHash (SqlValue.visible text) = true
  rw [hvisible]
  exact h

omit [Crypto] in
theorem checkDecimal_of_pos {amount : Int} (h : 1 ≤ amount) :
    (SqlValue.text (Nat.toDigits 10 amount.toNat)).checkDecimal = true := by
  have hdecode := Codec.decodeAmount_eq_ok_iff.mpr
    ⟨h, (rfl : Nat.toDigits 10 amount.toNat = Nat.toDigits 10 amount.toNat)⟩
  have hvisible : SqlValue.visible (Nat.toDigits 10 amount.toNat) =
      Nat.toDigits 10 amount.toNat := by
    apply visible_eq
    intro c hc heq
    have hdigit := Json.toDigits_isDigit _ c hc
    rw [heq] at hdigit
    exact absurd hdigit (by decide)
  change Codec.isCanonicalAmount (SqlValue.visible (Nat.toDigits 10 amount.toNat)) = true
  rw [hvisible]
  unfold Codec.decodeAmount at hdecode
  split at hdecode
  · assumption
  · cases hdecode

theorem blockRows_consistent {blocks : List Block}
    (hstorable : forall block, block ∈ blocks -> Codec.StorableBlock block)
    (hnodup : (blocks.map Block.hash).Nodup) :
    blocksSchema.consistent (numbered blockRow 0 blocks) = true := by
  rw [TableSchema.consistent_iff]
  constructor
  · intro row hrow
    rcases mem_numbered hrow with ⟨i, block, hlow, _, hblock, heq⟩
    have hstructure := (validateBlockStructure_iff block).mp (hstorable block hblock).structure_
    have hhash := checkHash_of_isHash block.hash_isHash
    have hprevious := checkHash_of_isHash hstructure.previousHash
    rw [heq]
    simp [blocksSchema, blockRow, noNulls, BlockRow.columns, SqlValue.isNull, hhash,
      hprevious, SqlValue.checkBlob, hlow]
  · have hhashes : ((numbered blockRow 0 blocks).map BlockRow.hash).Nodup := by
      have hmap : (numbered blockRow 0 blocks).map BlockRow.hash =
          (blocks.map Block.hash).map SqlValue.text := by
        rw [List.map_map]
        apply numbered_map
        intro i block
        rfl
      rw [hmap]
      exact hnodup.map (fun x y h => SqlValue.text.inj h)
    have hheights : (numbered blockRow 0 blocks).Pairwise
        (fun a b => a.height < b.height) :=
      numbered_pairwise (fun _ _ => rfl) blocks 0
    apply (hheights.and (List.pairwise_map.mp hhashes)).imp
    intro row other h
    have hne : row.height ≠ other.height := Int.ne_of_lt h.left
    simp [blocksSchema, hne, h.right]

omit [Crypto] in
theorem seenRows_consistent {txids : List Str}
    (hhashes : forall txid, txid ∈ txids -> isHash txid = true) (hnodup : txids.Nodup) :
    seenSchema.consistent (txids.map SqlValue.text) = true := by
  rw [TableSchema.consistent_iff]
  constructor
  · intro row hrow
    rcases List.mem_map.mp hrow with ⟨txid, htxid, heq⟩
    rw [← heq]
    simp [seenSchema, SqlValue.isNull, checkHash_of_isHash (hhashes txid htxid)]
  · rw [List.pairwise_map]
    apply hnodup.imp
    intro txid other hne
    simpa [seenSchema] using hne

theorem utxoRows_consistent {seenTxids : Finset Str} {items : List (OutPoint × TxOutput)}
    (hcached : forall item, item ∈ items -> CachedOutput seenTxids item)
    (hnodup : (items.map Prod.fst).Nodup) :
    utxosSchema.consistent (items.map utxoRow) = true := by
  rw [TableSchema.consistent_iff]
  constructor
  · intro row hrow
    rcases List.mem_map.mp hrow with ⟨item, hitem, heq⟩
    have houtput := (hcached item hitem).output
    simp only [isValidOutput, Bool.and_eq_true, decide_eq_true_eq] at houtput
    have hdecimal := @checkDecimal_of_pos item.2.amount (by omega)
    have hindex := (hcached item hitem).outputIndex
    rw [← heq]
    simp [utxosSchema, utxoRow, noNulls, UtxoRow.columns, SqlValue.isNull, hdecimal,
      SqlValue.checkInteger, hindex]
  · rw [List.pairwise_map]
    apply (List.pairwise_map.mp hnodup).imp
    intro item other hne
    simp only [utxosSchema, utxoRow, SqlValue.text.injEq, SqlValue.integer.injEq,
      Bool.and_eq_false_iff, decide_eq_false_iff_not]
    by_contra h
    rw [not_or, not_not, not_not] at h
    exact hne (Prod.ext h.left h.right)

theorem mempoolRows_consistent {transactions : List Transaction}
    (hnodup : (transactions.map Transaction.txid).Nodup) :
    mempoolSchema.consistent (numbered mempoolRow 0 transactions) = true := by
  rw [TableSchema.consistent_iff]
  constructor
  · intro row hrow
    rcases mem_numbered hrow with ⟨i, transaction, hlow, _, _, heq⟩
    have hhash := checkHash_of_isHash (sha256Hex_isHash transaction.encoding)
    rw [heq]
    simp [mempoolSchema, mempoolRow, noNulls, MempoolRow.columns, SqlValue.isNull,
      Transaction.txid, hhash, SqlValue.checkBlob, hlow]
  · have htxids : ((numbered mempoolRow 0 transactions).map MempoolRow.txid).Nodup := by
      have hmap : (numbered mempoolRow 0 transactions).map MempoolRow.txid =
          (transactions.map Transaction.txid).map SqlValue.text := by
        rw [List.map_map]
        apply numbered_map
        intro i transaction
        rfl
      rw [hmap]
      exact hnodup.map (fun x y h => SqlValue.text.inj h)
    have hpositions : (numbered mempoolRow 0 transactions).Pairwise
        (fun a b => a.position < b.position) :=
      numbered_pairwise (fun _ _ => rfl) transactions 0
    apply (hpositions.and (List.pairwise_map.mp htxids)).imp
    intro row other h
    have hne : row.position ≠ other.position := Int.ne_of_lt h.left
    simp [mempoolSchema, hne, h.right]

omit [Crypto] in
theorem metadataColumns_consistent {metadata : Metadata} (h : ReadableMetadata metadata) :
    metadataSchema.consistent [metadataColumns metadata] = true := by
  have hheight := h.height
  have hrevision : 0 ≤ metadata.revision := Int.le_trans h.height h.revision
  simp [TableSchema.consistent, metadataSchema, metadataColumns, noNulls,
    MetadataRow.columns, SqlValue.isNull, SqlValue.checkInteger, SCHEMA_VERSION, hheight,
    hrevision, checkHash_of_isHash h.mempoolDigest, checkDecimal_of_pos h.maxTransactions,
    checkDecimal_of_pos h.maxBytes]

/-!
## Reading a database
-/

namespace Represents

variable {db : Database} {stored : StoredChain}

theorem tipHash (h : Represents db stored) :
    exists tip, ValidChain stored.blocks tip stored.state ∧
      stored.metadata.tipHash = tip.hash := by
  rcases h.sound.valid with ⟨tip, hvalid⟩
  have hlast : stored.blocks.getLast? = some tip := hvalid.getLast?
  refine ⟨tip, hvalid, ?_⟩
  unfold StoredChain.metadata
  simp only [hlast]
  rfl

theorem readable (h : Represents db stored) : ReadableMetadata stored.metadata := by
  rcases h.tipHash with ⟨tip, hvalid, htip⟩
  have hpos : 0 < stored.blocks.length := List.length_pos_iff.mpr hvalid.ne_nil
  constructor
  · rw [htip]
    exact tip.hash_isHash
  · exact sha256Hex_isHash _
  · change 0 ≤ (stored.blocks.length : Int) - 1
    omega
  · exact h.revision
  · exact stored.mempool.limits.maxTransactions_pos
  · exact stored.mempool.limits.maxBytes_pos

theorem pool_txids_nodup (h : Represents db stored) :
    (stored.mempool.getTransactions.map Transaction.txid).Nodup :=
  h.sound.coherent.processes.txids_new.left

theorem blocks_perm (h : Represents db stored) :
    db.blocks.Perm (numbered blockRow 0 stored.blocks) := by
  rw [← h.blocks]
  exact (orderBy_perm _ _).symm

theorem mempool_perm (h : Represents db stored) :
    db.mempool.Perm (numbered mempoolRow 0 stored.mempool.getTransactions) := by
  rw [← h.mempool]
  exact (orderBy_perm _ _).symm

theorem blocks_consistent (h : Represents db stored) :
    blocksSchema.consistent db.blocks = true := by
  rcases h.sound.valid with ⟨tip, hvalid⟩
  rw [TableSchema.consistent_perm _ _ h.blocks_perm]
  · exact blockRows_consistent hvalid.storable hvalid.hashes_nodup
  · intro row other
    simp only [blocksSchema, eq_comm]

theorem seen_consistent (h : Represents db stored) :
    seenSchema.consistent db.seenTransactions = true := by
  rcases h.caches.seen with ⟨txids, hrows, hnodup, hseen⟩
  rw [hrows]
  apply seenRows_consistent _ hnodup
  intro txid htxid
  apply h.caches.hashes
  rw [← hseen, List.mem_toFinset]
  exact htxid

theorem utxos_consistent (h : Represents db stored) :
    utxosSchema.consistent db.utxos = true := by
  rcases h.caches.utxos with ⟨items, hrows, hperm⟩
  rw [hrows]
  apply @utxoRows_consistent _ stored.state.seenTxids
  · intro item hitem
    exact h.caches.outputs item (hperm.mem_iff.mp hitem)
  · exact (hperm.map Prod.fst).nodup_iff.mpr stored.state.utxoSet.nodupKeys

theorem mempool_consistent (h : Represents db stored) :
    mempoolSchema.consistent db.mempool = true := by
  rw [TableSchema.consistent_perm _ _ h.mempool_perm]
  · exact mempoolRows_consistent h.pool_txids_nodup
  · intro row other
    simp only [mempoolSchema, eq_comm]

theorem metadata_consistent (h : Represents db stored) :
    metadataSchema.consistent db.metadata = true := by
  rw [h.metadata]
  exact metadataColumns_consistent h.readable

theorem integrityCheck (h : Represents db stored) : db.integrityCheck = true := by
  unfold Database.integrityCheck
  rw [h.pages, h.blocks_consistent, h.seen_consistent, h.utxos_consistent,
    h.mempool_consistent, h.metadata_consistent]
  rfl

theorem utxosReferenced (h : Represents db stored) : db.utxosReferenced = true := by
  rcases h.caches.seen with ⟨txids, hseenRows, _, hseen⟩
  rcases h.caches.utxos with ⟨items, hrows, hperm⟩
  unfold Database.utxosReferenced
  rw [List.all_eq_true]
  intro row hrow
  rw [hrows] at hrow
  rcases List.mem_map.mp hrow with ⟨item, hitem, heq⟩
  have hrecorded := (h.caches.outputs item (hperm.mem_iff.mp hitem)).recorded
  rw [← hseen, List.mem_toFinset] at hrecorded
  rw [← heq, hseenRows, Bool.or_eq_true, List.contains_iff_mem]
  exact Or.inr (List.mem_map.mpr ⟨item.1.1, hrecorded, rfl⟩)

theorem tipReferenced (h : Represents db stored) :
    db.tipReferenced (.text stored.metadata.tipHash) = true := by
  rcases h.tipHash with ⟨tip, hvalid, htip⟩
  have hmem : tip ∈ stored.blocks := List.mem_of_getLast? hvalid.getLast?
  have hmap : (numbered blockRow 0 stored.blocks).map BlockRow.hash =
      stored.blocks.map (fun block => SqlValue.text block.hash) := by
    apply numbered_map
    intro i block
    rfl
  have hhash : SqlValue.text tip.hash ∈ (numbered blockRow 0 stored.blocks).map
      BlockRow.hash := by
    rw [hmap]
    exact List.mem_map.mpr ⟨tip, hmem, rfl⟩
  rcases List.mem_map.mp hhash with ⟨row, hrow, heq⟩
  unfold Database.tipReferenced
  rw [Bool.or_eq_true, List.any_eq_true, htip]
  exact Or.inr ⟨row, h.blocks_perm.mem_iff.mpr hrow, decide_eq_true heq⟩

theorem foreignKeyCheck (h : Represents db stored) : db.foreignKeyCheck = true := by
  unfold Database.foreignKeyCheck
  rw [h.utxosReferenced, h.metadata]
  simp only [List.all_cons, List.all_nil, Bool.and_true, Bool.true_and]
  exact h.tipReferenced

end Represents

/-- The limits a caller passes are absent or the stored ones. -/
def MatchesLimits (maxTransactions maxBytes : Option Int) (limits : MempoolLimits) : Prop :=
  (maxTransactions = none ∨ maxTransactions = some limits.maxTransactions) ∧
    (maxBytes = none ∨ maxBytes = some limits.maxBytes)

omit [Crypto] in
theorem validateSchema_eq_ok_iff {db : Database} {answer : Unit} :
    db.validateSchema = .ok answer <-> db.schemaDefect = none := by
  unfold Database.validateSchema
  cases db.schemaDefect with
  | none => simp
  | some message => simp

theorem readStored_sound {now : Int} (hnow : 0 ≤ now)
    {maxTransactions maxBytes : Option Int} {db : Database} {stored : StoredChain}
    (h : SQLiteChainStore.readStored now maxTransactions maxBytes db = .ok stored) :
    Represents db stored ∧ TimelyAt now stored.blocks ∧
      MatchesLimits maxTransactions maxBytes stored.mempool.limits := by
  unfold SQLiteChainStore.readStored at h
  simp only [bind_eq_ok_iff, validateSchema_eq_ok_iff, readMetadata_eq_ok_iff,
    Database.checkIntegrity, SQLiteChainStore.checkConfiguration, require_eq_ok_iff,
    readBlockRows_eq_ok_iff] at h
  rcases h with ⟨_, hschema, metadata, ⟨hmetadata, hreadable⟩, _, ⟨_, hintegrity, _⟩, _,
    hlimits, blocks, ⟨hblocks, _, _⟩, _, ⟨⟨_, hheight⟩, htip⟩, answer, hrebuild, h⟩
  cases answer with
  | none => cases h
  | some state =>
      simp only [bind_eq_ok_iff, require_eq_ok_iff, readMempoolRows_eq_ok_iff] at h
      rcases h with ⟨cached, hcached, _, hsame, mempool,
        ⟨⟨hmempool, _⟩, ⟨hcoherent, hutxos, hseen⟩, ⟨hcount, hbytes⟩, hdigest⟩, heq⟩
      have hstored : stored = ⟨blocks, state, mempool, metadata.revision⟩ :=
        (Except.ok.inj heq).symm
      subst hstored
      rcases (rebuildChainState_eq_ok_some_iff _ _ _).mp hrebuild with
        ⟨now', tip, hnow', hvalid, htimely⟩
      have hnowEq : now = now' := by
        rw [resolveCurrentTime_at_ hnow] at hnow'
        exact Except.ok.inj hnow'
      rw [← hnowEq] at htimely
      have hmetadataEq : metadata =
          StoredChain.metadata ⟨blocks, state, mempool, metadata.revision⟩ := by
        cases metadata
        simp only at hheight htip hcount hbytes hdigest
        simp only [StoredChain.metadata, Metadata.mk.injEq, htip, Option.getD_some]
        exact ⟨hheight, trivial, trivial, hcount.symm, hbytes.symm, hdigest.symm⟩
      refine ⟨⟨hschema, ?_, hblocks, ?_, hmempool, ?_, ?_, ?_⟩, htimely, ?_⟩
      · simp only [Database.integrityCheck, Bool.and_eq_true] at hintegrity
        exact hintegrity.left.left.left.left.left
      · exact (readChainstateRows_iff db state).mp ⟨cached, hcached, hsame⟩
      · rw [← hmetadataEq]
        exact hmetadata
      · exact ⟨⟨tip, hvalid⟩, hcoherent, hutxos, hseen⟩
      · have hrevision := hreadable.revision
        rw [hheight] at hrevision
        exact hrevision
      · unfold MatchesLimits
        simp only [hcount, hbytes]
        exact hlimits

theorem readStored_complete {now : Int} (hnow : 0 ≤ now)
    {maxTransactions maxBytes : Option Int} {db : Database} {stored : StoredChain}
    (h : Represents db stored) (htimely : TimelyAt now stored.blocks)
    (hlimits : MatchesLimits maxTransactions maxBytes stored.mempool.limits) :
    SQLiteChainStore.readStored now maxTransactions maxBytes db = .ok stored := by
  rcases h.tipHash with ⟨tip, hvalid, htip⟩
  have hne := hvalid.ne_nil
  have hhead : stored.blocks.head?.map Block.hash = some GENESIS_HASH := by
    cases hblocks : stored.blocks with
    | nil => exact absurd hblocks hne
    | cons genesis rest =>
        rw [hblocks] at hvalid
        rcases hvalid.take [genesis] rest rfl (by simp) with ⟨first, start, hfirst⟩
        rcases hfirst.genesis_inv with ⟨_, _, _, hgenesis⟩
        exact congrArg some ((isGenesisBlock_iff genesis).mp hgenesis).right
  have hlast : stored.blocks.getLast?.map Block.hash = some stored.metadata.tipHash := by
    rw [htip, hvalid.getLast?]
    rfl
  have hpool : forall transaction, transaction ∈ stored.mempool.getTransactions ->
      Codec.Storable transaction := h.sound.coherent.processes.storable
  have hrebuild : rebuildChainState stored.blocks (Clock.at_ now) = .ok (some stored.state) :=
    (rebuildChainState_eq_ok_some_iff _ _ _).mpr
      ⟨now, tip, resolveCurrentTime_at_ hnow, hvalid, htimely⟩
  rcases (readChainstateRows_iff db stored.state).mpr h.caches with
    ⟨cached, hcached, hsame⟩
  unfold SQLiteChainStore.readStored
  simp only [bind_eq_ok_iff, validateSchema_eq_ok_iff, readMetadata_eq_ok_iff,
    Database.checkIntegrity, SQLiteChainStore.checkConfiguration, require_eq_ok_iff,
    readBlockRows_eq_ok_iff]
  refine ⟨(), h.schema, stored.metadata, ⟨h.metadata, h.readable⟩, (),
    ⟨(), h.integrityCheck, h.foreignKeyCheck⟩, (), hlimits, stored.blocks,
    ⟨h.blocks, hne, hvalid.storable⟩, (), ⟨⟨hhead, rfl⟩, hlast⟩, some stored.state, hrebuild,
    ?_⟩
  simp only [bind_eq_ok_iff, require_eq_ok_iff, readMempoolRows_eq_ok_iff]
  exact ⟨cached, hcached, (), hsame, stored.mempool, ⟨⟨h.mempool, hpool⟩,
    ⟨h.sound.coherent, h.sound.utxoSet, h.sound.seenTxids⟩, ⟨rfl, rfl⟩, rfl⟩, rfl⟩

end Representation

end PyChain
