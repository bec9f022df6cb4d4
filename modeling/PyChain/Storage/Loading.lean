import PyChain.Storage.Writing

/-!
# Loading arbitrary files

Whatever rows a file holds, loading it returns a chain that the rows represent,
or raises a storage error; it never writes.
-/

namespace PyChain

open Foundation
open ChainStore

/-!
## What the readers raise
-/

/-- The errors that leave a read transaction as storage errors. -/
def StorageFailure : PyError -> Prop
  | .storageError _ _ => True
  | .sqliteError _ => True
  | _ => False

/-- The errors a codec turns into corruption, and corruption itself. -/
def CodecFailure : PyError -> Prop
  | .storageError .corruption _ => True
  | .indexError _ => True
  | .keyError => True
  | .typeError _ => True
  | .valueError _ => True
  | .overflowError _ => True
  | _ => False

def Corruption : PyError -> Prop
  | .storageError .corruption _ => True
  | _ => False

theorem Corruption.storageFailure {e : PyError} (h : Corruption e) : StorageFailure e := by
  cases e with
  | storageError kind message => exact trivial
  | _ => exact h.elim

theorem raises_guarded {alpha : Type} {message : String} {x : Except PyError alpha}
    (h : Raises CodecFailure x) : Raises Corruption (Codec.guarded message x) := by
  intro e he
  cases x with
  | ok a => cases he
  | error other =>
      have hother := h other rfl
      cases other with
      | storageError kind _ =>
          cases kind <;> cases he <;> first | exact trivial | exact hother
      | _ =>
          cases he
          first | exact trivial | exact hother

theorem raises_check {condition : Prop} [Decidable condition] {message : String} :
    Raises CodecFailure (require condition (Codec.corruption message)) :=
  raises_require trivial

theorem raises_object (value : Json) (keys : List Str) (name : String) :
    Raises CodecFailure (Codec.object value keys name) := by
  unfold Codec.object
  split
  · split
    · exact raises_ok _
    · exact raises_error trivial
  · exact raises_error trivial

theorem raises_field (fields : List (Str × Json)) (key : Str) :
    Raises CodecFailure (Codec.field fields key) := by
  unfold Codec.field
  split
  · exact raises_error trivial
  · exact raises_ok _

theorem raises_integer (value : Json) (name : String) (minimum : Nat) :
    Raises CodecFailure (Codec.integer value name minimum) := by
  unfold Codec.integer
  split
  · split
    · exact raises_ok _
    · exact raises_error trivial
  · exact raises_error trivial

theorem raises_string (value : Json) (name : String) :
    Raises CodecFailure (Codec.string value name) := by
  unfold Codec.string
  split
  · split
    · exact raises_ok _
    · exact raises_error trivial
  · exact raises_error trivial

theorem raises_list (value : Json) (message : String) :
    Raises CodecFailure (Codec.list value message) := by
  unfold Codec.list
  split
  · exact raises_ok _
  · exact raises_error trivial

theorem raises_parse (data : Bytes) : Raises CodecFailure (Codec.parse data) := by
  unfold Codec.parse
  split
  · exact raises_error trivial
  · split
    · exact raises_ok _
    · exact raises_error trivial
    · exact raises_error trivial
    · exact raises_error trivial

theorem raises_inputFromDict (item : Json) :
    Raises CodecFailure (Codec.inputFromDict item) := by
  unfold Codec.inputFromDict
  exact raises_bind (raises_object _ _ _) fun _ _ =>
    raises_bind (raises_field _ _) fun _ _ =>
    raises_bind (raises_string _ _) fun _ _ =>
    raises_bind (raises_field _ _) fun _ _ =>
    raises_bind (raises_integer _ _ _) fun _ _ =>
    raises_bind (raises_field _ _) fun _ _ =>
    raises_bind (raises_string _ _) fun _ _ =>
    raises_bind (raises_field _ _) fun _ _ =>
    raises_bind (raises_string _ _) fun _ _ =>
    raises_ok _

variable [Crypto]

theorem raises_outputFromDict (item : Json) :
    Raises CodecFailure (Codec.outputFromDict item) := by
  unfold Codec.outputFromDict
  exact raises_bind (raises_object _ _ _) fun _ _ =>
    raises_bind (raises_field _ _) fun _ _ =>
    raises_bind (raises_integer _ _ _) fun _ _ =>
    raises_bind (raises_field _ _) fun _ _ =>
    raises_bind (raises_string _ _) fun _ _ =>
    raises_bind raises_check fun _ _ =>
    raises_ok _

theorem raises_transactionFromDict (value : Json) :
    Raises CodecFailure (Codec.transactionFromDict value) := by
  unfold Codec.transactionFromDict
  exact raises_bind (raises_object _ _ _) fun _ _ =>
    raises_bind (raises_field _ _) fun _ _ =>
    raises_bind (raises_integer _ _ _) fun _ _ =>
    raises_bind raises_check fun _ _ =>
    raises_bind (raises_field _ _) fun _ _ =>
    raises_bind (raises_integer _ _ _) fun _ _ =>
    raises_bind (raises_field _ _) fun _ _ =>
    raises_bind (raises_list _ _) fun _ _ =>
    raises_bind (raises_field _ _) fun _ _ =>
    raises_bind (raises_list _ _) fun _ _ =>
    raises_bind raises_check fun _ _ =>
    raises_bind (raises_mapM raises_inputFromDict _) fun _ _ =>
    raises_bind (raises_mapM raises_outputFromDict _) fun _ _ =>
    raises_bind raises_check fun _ _ =>
    raises_ok _

theorem raises_decodeTransaction (data : Bytes) :
    Raises Corruption (Codec.decodeTransaction data) := by
  apply raises_guarded
  exact raises_bind (raises_parse _) fun _ _ =>
    raises_bind (raises_transactionFromDict _) fun _ _ =>
    raises_bind raises_check fun _ _ =>
    raises_ok _

theorem raises_transactionData (transaction : Transaction) :
    Raises CodecFailure (Codec.transactionData transaction) :=
  raises_bind (raises_transactionFromDict _) fun _ _ => raises_ok _

theorem raises_encodeTransaction (transaction : Transaction) :
    Raises Corruption (Codec.encodeTransaction transaction) := by
  apply raises_guarded
  exact raises_bind (raises_transactionData _) fun _ _ => raises_ok _

theorem raises_blockCreate (transactions : List Transaction) (previousBlockHash : Str)
    (timestamp version difficulty nonce : Int) :
    Raises CodecFailure (Block.create transactions previousBlockHash timestamp version
      difficulty nonce) := by
  rcases calculateMerkleRoot_total transactions with ⟨data, hroot⟩
  unfold Block.create
  rw [hroot]
  exact raises_ok _

theorem raises_blockFromDict (value : Json) :
    Raises CodecFailure (Codec.blockFromDict value) := by
  unfold Codec.blockFromDict
  exact raises_bind (raises_object _ _ _) fun _ _ =>
    raises_bind (raises_field _ _) fun _ _ =>
    raises_bind (raises_object _ _ _) fun _ _ =>
    raises_bind (raises_field _ _) fun _ _ =>
    raises_bind (raises_integer _ _ _) fun _ _ =>
    raises_bind (raises_field _ _) fun _ _ =>
    raises_bind (raises_integer _ _ _) fun _ _ =>
    raises_bind (raises_field _ _) fun _ _ =>
    raises_bind (raises_integer _ _ _) fun _ _ =>
    raises_bind (raises_field _ _) fun _ _ =>
    raises_bind (raises_integer _ _ _) fun _ _ =>
    raises_bind (raises_field _ _) fun _ _ =>
    raises_bind (raises_string _ _) fun _ _ =>
    raises_bind (raises_field _ _) fun _ _ =>
    raises_bind (raises_string _ _) fun _ _ =>
    raises_bind (raises_field _ _) fun _ _ =>
    raises_bind (raises_list _ _) fun _ _ =>
    raises_bind (raises_mapM raises_transactionFromDict _) fun _ _ =>
    raises_bind (raises_blockCreate _ _ _ _ _ _) fun _ _ =>
    raises_bind raises_check fun _ _ =>
    raises_bind raises_check fun _ _ =>
    raises_ok _

theorem raises_decodeBlock (data : Bytes) :
    Raises Corruption (Codec.decodeBlock data) := by
  apply raises_guarded
  exact raises_bind (raises_parse _) fun _ _ =>
    raises_bind (raises_blockFromDict _) fun _ _ =>
    raises_bind raises_check fun _ _ =>
    raises_ok _

theorem raises_encodeBlock (block : Block) :
    Raises Corruption (Codec.encodeBlock block) := by
  apply raises_guarded
  exact raises_bind (raises_mapM raises_transactionData _) fun _ _ =>
    raises_bind (raises_blockFromDict _) fun _ _ =>
    raises_ok _

omit [Crypto] in
theorem raises_corruption {condition : Prop} [Decidable condition] {message : String} :
    Raises StorageFailure (require condition (ChainStore.corruption message)) :=
  raises_require trivial

omit [Crypto] in
theorem raises_fetchAll {row : Type} (columns : row -> List SqlValue) (rows : List row) :
    Raises StorageFailure (Database.fetchAll columns rows) := by
  unfold Database.fetchAll
  split
  · exact raises_error trivial
  · exact raises_ok _

omit [Crypto] in
theorem raises_payload (value : SqlValue) : Raises StorageFailure (payload value) := by
  unfold payload
  split
  · exact raises_ok _
  · exact raises_error trivial

theorem raises_readBlockRows (db : Database) :
    Raises StorageFailure (readBlockRows db) := by
  have hrow : forall i row, Raises StorageFailure (readBlockRow i row) := by
    intro i row
    exact raises_bind raises_corruption fun _ _ =>
      raises_bind (raises_payload _) fun _ _ =>
      raises_bind ((raises_decodeBlock _).weaken fun _ => Corruption.storageFailure) fun _ _ =>
      raises_bind raises_corruption fun _ _ =>
      raises_ok _
  exact raises_bind (raises_fetchAll _ _) fun _ _ =>
    raises_bind raises_corruption fun _ _ =>
    raises_mapNumbered hrow _ _

omit [Crypto] in
theorem raises_decodeAmountColumn (value : SqlValue) :
    Raises StorageFailure (decodeAmountColumn value) := by
  unfold decodeAmountColumn Codec.decodeAmount
  split
  · split
    · exact raises_ok _
    · exact raises_error trivial
  · exact raises_error trivial

omit [Crypto] in
theorem raises_readSeenRow (seen : Finset Str) (row : SqlValue) :
    Raises StorageFailure (readSeenRow seen row) := by
  unfold readSeenRow
  split
  · split
    · exact raises_error trivial
    · exact raises_ok _
  · exact raises_error trivial

theorem raises_readUtxoRow (seen : Finset Str) (utxos : UTXOSet) (row : UtxoRow) :
    Raises StorageFailure (readUtxoRow seen utxos row) := by
  unfold readUtxoRow
  split
  · split
    · exact raises_error trivial
    split
    · split
      · exact raises_error trivial
      split
      · exact raises_error trivial
      rename_i hnew
      refine raises_bind (raises_decodeAmountColumn _) (fun _ _ => ?_)
      unfold UTXOSet.add
      unfold UTXOSet.exists_ at hnew
      rw [if_neg hnew]
      exact raises_ok _
    · exact raises_error trivial
  · exact raises_error trivial

theorem raises_readChainstateRows (db : Database) :
    Raises StorageFailure (readChainstateRows db) :=
  raises_bind (raises_fetchAll _ _) fun _ _ =>
    raises_bind (raises_foldlM raises_readSeenRow _ _) fun _ _ =>
    raises_bind (raises_fetchAll _ _) fun _ _ =>
    raises_bind (raises_foldlM (raises_readUtxoRow _) _ _) fun _ _ =>
    raises_ok _

theorem raises_readMempoolRows (db : Database) (state : ChainState) {metadata : Metadata}
    (h : ReadableMetadata metadata) :
    Raises StorageFailure (readMempoolRows db state metadata) := by
  have hrow : forall loop row, Raises StorageFailure (readMempoolRow loop row) := by
    intro loop row
    exact raises_bind raises_corruption fun _ _ =>
      raises_bind (raises_payload _) fun _ _ =>
      raises_bind ((raises_decodeTransaction _).weaken fun _ => Corruption.storageFailure)
        fun _ _ =>
      raises_bind raises_corruption fun _ _ =>
      raises_bind raises_corruption fun _ _ =>
      raises_ok _
  have hcreate : Raises StorageFailure (Mempool.create (some state.utxoSet)
      (some state.seenTxids) metadata.maxTransactions metadata.maxBytes) := by
    have heq := @create_eq_fresh state.utxoSet state.seenTxids
      ⟨metadata.maxTransactions, metadata.maxBytes, h.maxTransactions, h.maxBytes⟩
    simp only at heq
    rw [heq]
    exact raises_ok _
  exact raises_bind hcreate fun _ _ =>
    raises_bind (raises_fetchAll _ _) fun _ _ =>
    raises_bind (raises_foldlM hrow _ _) fun _ _ =>
    raises_bind raises_corruption fun _ _ =>
    raises_ok _

omit [Crypto] in
theorem raises_column {alpha : Type} (value : Option alpha) (message : String) :
    Raises StorageFailure (column value message) := by
  unfold column
  split
  · exact raises_ok _
  · exact raises_error trivial

omit [Crypto] in
theorem raises_readMetadata (db : Database) : Raises StorageFailure (readMetadata db) := by
  have hversion : forall (version : Int) {condition : Prop} [Decidable condition],
      Raises StorageFailure (require condition (PyError.storageError .version
        ("Unsupported storage schema version: " ++ toString version))) :=
    fun _ {_} {_} => raises_require trivial
  exact raises_bind (raises_fetchAll _ _) fun _ _ =>
    raises_bind (raises_column _ _) fun _ _ =>
    raises_bind (raises_column _ _) fun version _ =>
    raises_bind raises_corruption fun _ _ =>
    raises_bind (hversion version) fun _ _ =>
    raises_bind raises_corruption fun _ _ =>
    raises_bind (raises_column _ _) fun _ _ =>
    raises_bind (raises_column _ _) fun _ _ =>
    raises_bind (raises_column _ _) fun _ _ =>
    raises_bind (raises_column _ _) fun _ _ =>
    raises_bind raises_corruption fun _ _ =>
    raises_bind (raises_decodeAmountColumn _) fun _ _ =>
    raises_bind (raises_decodeAmountColumn _) fun _ _ =>
    raises_ok _

theorem raises_readStored {now : Int} (hnow : 0 ≤ now)
    (maxTransactions maxBytes : Option Int) (db : Database) :
    Raises StorageFailure
      (SQLiteChainStore.readStored now maxTransactions maxBytes db) := by
  have hschema : Raises StorageFailure db.validateSchema := by
    unfold Database.validateSchema
    split
    · exact raises_ok _
    · exact raises_error trivial
  have hintegrity : Raises StorageFailure db.checkIntegrity :=
    raises_bind (raises_require trivial) fun _ _ => raises_require trivial
  unfold SQLiteChainStore.readStored
  refine raises_bind hschema fun _ _ => raises_bind (raises_readMetadata db) fun metadata hm =>
    raises_bind hintegrity fun _ _ => raises_bind (raises_require trivial) fun _ _ =>
    raises_bind (raises_readBlockRows db) fun blocks _ =>
    raises_bind raises_corruption fun _ _ => raises_bind ?_ fun answer _ => ?_
  · rcases rebuildChainState_ok blocks (resolveCurrentTime_at_ hnow) with ⟨answer, hanswer⟩
    rw [hanswer]
    exact raises_ok _
  · cases answer with
    | none => exact raises_error trivial
    | some state =>
        exact raises_bind (raises_readChainstateRows db) fun _ _ =>
          raises_bind raises_corruption fun _ _ =>
          raises_bind (raises_readMempoolRows db state
            ((readMetadata_eq_ok_iff db metadata).mp hm).right) fun _ _ =>
          raises_ok _

/-!
## The read transaction
-/

namespace SQLiteChainStore

theorem read_opened (fault : Fault) (now : Int) (maxTransactions maxBytes : Option Int)
    (db : Database) :
    (exists e, read fault now maxTransactions maxBytes (opened db) =
        (.error e, opened db)) ∨
      (exists stored, readStored now maxTransactions maxBytes db = .ok stored ∧
        fault = .none ∧
        read fault now maxTransactions maxBytes (opened db) = (.ok stored, opened db)) := by
  have hread : read fault now maxTransactions maxBytes (opened db) =
      (let outcome := prepared fault (.ok ())
        (fun _ db => do
          let recovered <- readStored now maxTransactions maxBytes db
          return (recovered, db)) db
       (outcome.1, { opened db with file := .present outcome.2 })) := rfl
  rw [hread]
  rcases prepared_cases fault (.ok ()) (fun (_ : Unit) db => do
      let recovered <- readStored now maxTransactions maxBytes db
      return (recovered, db)) db with
    ⟨e, heq⟩ | ⟨_, answer, next, _, hbody, houtcome⟩
  · rw [heq]
    exact Or.inl ⟨e, rfl⟩
  · rcases bind_eq_ok_iff.mp hbody with ⟨stored, hstored, hpair⟩
    have hanswer : stored = answer ∧ db = next := by
      cases hpair
      exact ⟨rfl, rfl⟩
    rcases hanswer with ⟨rfl, rfl⟩
    rcases houtcome with ⟨hfault, heq⟩ | ⟨e, heq⟩
    · rw [heq]
      exact Or.inr ⟨stored, hstored, hfault, rfl⟩
    · rw [heq]
      exact Or.inl ⟨e, rfl⟩

theorem read_opened_none (now : Int) (maxTransactions maxBytes : Option Int)
    (db : Database) :
    read .none now maxTransactions maxBytes (opened db) =
      (match readStored now maxTransactions maxBytes db with
        | .ok stored => .ok stored
        | .error e => .error (transactionError e), opened db) := by
  have hread : read .none now maxTransactions maxBytes (opened db) =
      (let outcome := prepared .none (.ok ())
        (fun _ db => do
          let recovered <- readStored now maxTransactions maxBytes db
          return (recovered, db)) db
       (outcome.1, { opened db with file := .present outcome.2 })) := rfl
  rw [hread]
  cases hstored : readStored now maxTransactions maxBytes db with
  | ok stored =>
      rw [prepared_none_ok rfl (by rw [hstored]; rfl)]
      rfl
  | error e =>
      rw [prepared_none_error rfl (by rw [hstored]; rfl)]
      rfl

omit [Crypto] in
theorem checkArguments_resolve {clock : Clock} {maxTransactions maxBytes : Option Int}
    {now : Int} (h : checkArguments clock maxTransactions maxBytes = .ok now) :
    resolveCurrentTime clock = .ok now ∧ 0 ≤ now := by
  unfold checkArguments checkLimit at h
  simp only [bind_eq_ok_iff, require_eq_ok_iff] at h
  rcases h with ⟨_, _, _, _, _, htime, heq⟩
  have hnow := Except.ok.inj heq
  have hresolve : resolveCurrentTime clock = .ok now := by
    unfold resolveCurrentTime
    cases hcurrent : clock.currentTime with
    | none =>
        rw [hcurrent] at hnow
        exact congrArg Except.ok hnow
    | some time =>
        rw [hcurrent] at hnow htime
        have hpos : 0 ≤ time := by simpa using htime
        exact bind_eq_ok_iff.mpr ⟨(), require_eq_ok_iff.mpr hpos, congrArg Except.ok hnow⟩
  exact ⟨hresolve, resolveCurrentTime_nonneg hresolve⟩

theorem openAndRead_present (faults : Faults) (now : Int)
    (maxTransactions maxBytes : Option Int) (db : Database) (connected : Bool) :
    (exists e connected', openAndRead faults now maxTransactions maxBytes
        ⟨.present db, connected, false⟩ = (.error e, ⟨.present db, connected', false⟩)) ∨
      (exists stored, readStored now maxTransactions maxBytes db = .ok stored ∧
        openAndRead faults now maxTransactions maxBytes ⟨.present db, connected, false⟩ =
          (.ok stored, opened db)) := by
  have hcases := read_opened faults.transaction now maxTransactions maxBytes db
  have hopened : openAndRead faults now maxTransactions maxBytes
      ⟨.present db, connected, false⟩ =
        read faults.transaction now maxTransactions maxBytes (opened db) ∨
      exists e, openAndRead faults now maxTransactions maxBytes
        ⟨.present db, connected, false⟩ = (.error e, ⟨.present db, connected, false⟩) := by
    unfold openAndRead
    cases connected with
    | true => exact Or.inl rfl
    | false =>
        cases hopening : faults.opening with
        | none => exact Or.inl rfl
        | some fault =>
            cases fault with
            | access e => exact Or.inr ⟨_, rfl⟩
            | configure e => exact Or.inr ⟨_, rfl⟩
  rcases hopened with heq | ⟨e, heq⟩
  · rw [heq]
    rcases hcases with ⟨e, hread⟩ | ⟨stored, hstored, _, hread⟩
    · exact Or.inl ⟨e, true, hread⟩
    · exact Or.inr ⟨stored, hstored, hread⟩
  · exact Or.inl ⟨e, connected, heq⟩

omit [Crypto] in
theorem close_file (faults : Faults) (store : SQLiteChainStore) :
    (close faults store).2.file = store.file := by
  unfold close
  split
  · rfl
  · split <;> rfl

omit [Crypto] in
theorem loadError_storageError {e : PyError} (h : StorageFailure e) :
    exists kind message, loadError (transactionError e) = .storageError kind message := by
  cases e with
  | storageError kind message => exact ⟨kind, message, rfl⟩
  | sqliteError malformed =>
      cases malformed with
      | true => exact ⟨_, _, rfl⟩
      | false => exact ⟨_, _, rfl⟩
  | _ => exact h.elim

theorem openAndRead_none (now : Int) (maxTransactions maxBytes : Option Int)
    (db : Database) (connected : Bool) :
    openAndRead Faults.none now maxTransactions maxBytes ⟨.present db, connected, false⟩ =
      (match readStored now maxTransactions maxBytes db with
        | .ok stored => .ok stored
        | .error e => .error (transactionError e), opened db) := by
  rw [← read_opened_none]
  cases connected with
  | true => rfl
  | false => rfl

end SQLiteChainStore

/-!
## What a loaded chain satisfies
-/

/-- A chain returned from the five tables at a time. -/
structure Loaded (db : Database) (now : Int) (stored : StoredChain) : Prop where
  genesis : exists genesis rest,
    stored.blocks = genesis :: rest ∧ isGenesisBlock genesis = true
  replay : rebuildChainState stored.blocks (Clock.at_ now) = .ok (some stored.state)
  seen : exists txids : List Str, db.seenTransactions = txids.map SqlValue.text ∧
    txids.Nodup ∧ txids.toFinset = stored.state.seenTxids
  utxos : exists items : List (OutPoint × TxOutput),
    db.utxos = items.map utxoRow ∧ items.Perm stored.state.utxoSet.items
  columns : orderBy BlockRow.height db.blocks = numbered blockRow 0 stored.blocks
  pool : stored.mempool.Representation
  base : stored.mempool.confirmedUtxos = stored.state.utxoSet ∧
    stored.mempool.seenTxids = stored.state.seenTxids
  positions : orderBy MempoolRow.position db.mempool =
    numbered mempoolRow 0 stored.mempool.getTransactions
  committed : exists row height, db.metadata = [row] ∧
    row.mempoolDigest =
      .text (txidsDigest (stored.mempool.getTransactions.map Transaction.txid)) ∧
    row.height = .integer height ∧ row.revision = .integer stored.revision ∧
    height = (stored.blocks.length : Int) - 1 ∧ height ≤ stored.revision

theorem ValidChain.head_genesis {blocks : List Block} {tip : Block} {state : ChainState}
    (h : ValidChain blocks tip state) :
    exists genesis rest, blocks = genesis :: rest ∧ isGenesisBlock genesis = true := by
  induction h with
  | @genesis block _ hgenesis => exact ⟨block, [], rfl, hgenesis⟩
  | @extend blocks tip block state next _ _ _ _ ih =>
      rcases ih with ⟨genesis, rest, heq, hgenesis⟩
      refine ⟨genesis, rest ++ [block], ?_, hgenesis⟩
      rw [heq, List.cons_append]

theorem readStored_loaded {now : Int} (hnow : 0 ≤ now)
    {maxTransactions maxBytes : Option Int} {db : Database} {stored : StoredChain}
    (h : SQLiteChainStore.readStored now maxTransactions maxBytes db = .ok stored) :
    Loaded db now stored := by
  rcases readStored_sound hnow h with ⟨hrepresents, htimely, _⟩
  rcases hrepresents.sound.valid with ⟨tip, hvalid⟩
  have hrecorded : RecordedOutputs stored.mempool.confirmedUtxos
      stored.mempool.seenTxids := by
    have hutxos := hrepresents.sound.utxoSet
    have hseen := hrepresents.sound.seenTxids
    simp only [StoredChain.live] at hutxos hseen
    rw [hutxos, hseen]
    exact hvalid.ledger.recorded
  constructor
  · exact hvalid.head_genesis
  · exact (rebuildChainState_eq_ok_some_iff _ _ _).mpr
      ⟨now, tip, resolveCurrentTime_at_ hnow, hvalid, htimely⟩
  · exact hrepresents.caches.seen
  · exact hrepresents.caches.utxos
  · exact hrepresents.blocks
  · exact hrepresents.sound.coherent.representation hrecorded
  · exact ⟨hrepresents.sound.utxoSet, hrepresents.sound.seenTxids⟩
  · exact hrepresents.mempool
  · exact ⟨metadataColumns stored.metadata, _, hrepresents.metadata, rfl, rfl, rfl, rfl,
      hrepresents.revision⟩

/-- Loading a file with any content never writes.  A chain it returns satisfies
every check; otherwise, when no operation of the system fails and the arguments
are those of the interface, it raises a storage error. -/
theorem loadOrInitialize_sound (faults : Faults) (clock : Clock)
    (maxTransactions maxBytes : Option Int) (db : Database) (connected closed : Bool) :
    let outcome := SQLiteChainStore.loadOrInitialize faults clock maxTransactions maxBytes
      ⟨.present db, connected, closed⟩
    outcome.2.file = .present db ∧
      match outcome.1 with
      | .ok stored => exists now, resolveCurrentTime clock = .ok now ∧ Loaded db now stored
      | .error e =>
          faults ≠ Faults.none ∨
            SQLiteChainStore.checkArguments clock maxTransactions maxBytes = .error e ∨
            exists kind message, e = .storageError kind message := by
  simp only
  unfold SQLiteChainStore.loadOrInitialize
  cases closed with
  | true => exact ⟨rfl, Or.inr (Or.inr ⟨_, _, rfl⟩)⟩
  | false =>
      cases harguments : SQLiteChainStore.checkArguments clock maxTransactions maxBytes with
      | error e => exact ⟨rfl, Or.inr (Or.inl rfl)⟩
      | ok now =>
          rcases SQLiteChainStore.checkArguments_resolve harguments with ⟨hresolve, hnow⟩
          rcases SQLiteChainStore.openAndRead_present faults now maxTransactions maxBytes db
            connected with ⟨e, connected', heq⟩ | ⟨stored, hstored, heq⟩
          · simp only [heq]
            refine ⟨SQLiteChainStore.close_file _ _, ?_⟩
            by_cases hfaults : faults = Faults.none
            · have hraises := raises_readStored hnow maxTransactions maxBytes db
              rw [hfaults, SQLiteChainStore.openAndRead_none] at heq
              cases hread : SQLiteChainStore.readStored now maxTransactions maxBytes db with
              | ok stored =>
                  rw [hread] at heq
                  cases heq
              | error cause =>
                  rw [hread] at heq
                  cases heq
                  exact Or.inr (Or.inr
                    (SQLiteChainStore.loadError_storageError (hraises cause hread)))
            · exact Or.inl hfaults
          · simp only [heq]
            exact ⟨rfl, now, hresolve, readStored_loaded hnow hstored⟩

end PyChain
