import Mathlib.Data.Finset.Sort
import PyChain.Blockchain.Blockchain
import PyChain.Storage.Database

/-!
# The chain store

Rows of the five tables, their writers and readers, and the three operations of
the store.  A writer encodes everything before its transaction, compares the
committed height, tip and revision with its own inside it, and then replaces
the caches.  Loading reads every row, replays the chain from the blocks alone
and compares the caches with the replay.
-/

namespace PyChain

open Foundation

structure Metadata where
  height : Int
  tipHash : Str
  revision : Int
  maxTransactions : Int
  maxBytes : Int
  mempoolDigest : Str
deriving DecidableEq, Repr

namespace ChainStore

variable [Crypto]

def corruption (message : String) : PyError :=
  .storageError .corruption message

def plain (message : String) : PyError :=
  .storageError .plain message

def conflict (message : String) : PyError :=
  .storageError .conflict message

/-!
## Block rows
-/

def blockRow (height : Int) (block : Block) : BlockRow :=
  { height := height
    hash := .text block.hash
    previousHash := .text block.previousBlockHash
    data := .blob (Json.serialize block.toDict) }

def encodeBlockRow (height : Int) (block : Block) : Except PyError BlockRow := do
  require (0 ≤ height ∧ height ≤ MAX_SQLITE_INTEGER)
    (plain "Block height exceeds SQLite integer storage bounds")
  let data <- Codec.encodeBlock block
  return {
    height := height
    hash := .text block.hash
    previousHash := .text block.previousBlockHash
    data := .blob data }

omit [Crypto] in
/-- The bytes of a payload column. -/
def payload (value : SqlValue) : Except PyError Bytes :=
  match value with
  | .blob data => .ok data
  | _ => .error (corruption "Canonical payload must be bytes")

def readBlockRow (expectedHeight : Int) (row : BlockRow) : Except PyError Block := do
  require (row.height = expectedHeight)
    (corruption "Block heights are not contiguous from zero")
  let data <- payload row.data
  let block <- Codec.decodeBlock data
  require (row.hash = .text block.hash ∧ row.previousHash = .text block.previousBlockHash)
    (corruption ("Block indexes disagree with payload at height " ++ toString row.height))
  return block

def readBlockRows (db : Database) : Except PyError (List Block) := do
  let rows <- db.selectBlocks
  require (rows ≠ []) (corruption "Database contains no genesis block")
  mapNumbered readBlockRow 0 rows

/-!
## Chain state rows
-/

omit [Crypto] in
def outpointLe (a b : OutPoint × TxOutput) : Prop :=
  a.1.1 < b.1.1 ∨ (a.1.1 = b.1.1 ∧ a.1.2 ≤ b.1.2)

omit [Crypto] in
instance : DecidableRel outpointLe :=
  fun a b => inferInstanceAs (Decidable (a.1.1 < b.1.1 ∨ (a.1.1 = b.1.1 ∧ a.1.2 ≤ b.1.2)))

omit [Crypto] in
def seenRows (seenTxids : Finset Str) : List SqlValue :=
  (seenTxids.sort (fun a b => a ≤ b)).map SqlValue.text

omit [Crypto] in
def utxoRow (item : OutPoint × TxOutput) : UtxoRow :=
  { txid := .text item.1.1
    outputIndex := .integer item.1.2
    amount := .text (Nat.toDigits 10 item.2.amount.toNat)
    recipientAddress := .text item.2.recipientAddress }

def encodeUtxoRow (seenTxids : Finset Str) (item : OutPoint × TxOutput) :
    Except PyError UtxoRow := do
  require (item.1.1 ∈ seenTxids ∧ 0 ≤ item.1.2 ∧ item.1.2 ≤ MAX_SQLITE_INTEGER)
    (plain "UTXO outpoint cannot be stored")
  require (validateAddress item.2.recipientAddress = true)
    (plain "UTXO recipient address is invalid")
  let amount <- Codec.encodeAmount item.2.amount
  return {
    txid := .text item.1.1
    outputIndex := .integer item.1.2
    amount := .text amount
    recipientAddress := .text item.2.recipientAddress }

def encodeChainstateRows (state : ChainState) :
    Except PyError (List SqlValue × List UtxoRow) := do
  require (forall txid, txid ∈ state.seenTxids -> isHash txid = true)
    (plain "Chain state contains a malformed historical TXID")
  let utxos <- (state.utxoSet.items.insertionSort outpointLe).mapM
    (encodeUtxoRow state.seenTxids)
  return (seenRows state.seenTxids, utxos)

omit [Crypto] in
def replaceChainstateRows (rows : List SqlValue × List UtxoRow) (db : Database) :
    Except PyError Database := do
  let db := db.deleteUtxos
  let db <- db.deleteSeenTransactions
  let db <- db.insertSeenTransactions rows.1
  db.insertUtxos rows.2

omit [Crypto] in
def readSeenRow (seen : Finset Str) (row : SqlValue) : Except PyError (Finset Str) :=
  match row with
  | .text txid =>
      if isHash txid = false ∨ txid ∈ seen then
        .error (corruption "Malformed or duplicate historical TXID")
      else .ok (insert txid seen)
  | _ => .error (corruption "Malformed or duplicate historical TXID")

omit [Crypto] in
def decodeAmountColumn (value : SqlValue) : Except PyError Int :=
  match value with
  | .text data => Codec.decodeAmount data
  | _ => .error (corruption "Amount must be a canonical positive ASCII decimal string")

def readUtxoRow (seen : Finset Str) (utxos : UTXOSet) (row : UtxoRow) :
    Except PyError UTXOSet :=
  match row.txid, row.outputIndex with
  | .text txid, .integer outputIndex =>
      if txid ∉ seen ∨ outputIndex < 0 then
        .error (corruption "Malformed cached UTXO outpoint")
      else
        match row.recipientAddress with
        | .text address =>
            if validateAddress address = false then
              .error (corruption "Malformed cached UTXO address")
            else if utxos.exists_ txid outputIndex then
              .error (corruption "Duplicate cached UTXO outpoint")
            else do
              let amount <- decodeAmountColumn row.amount
              utxos.add txid outputIndex { amount := amount, recipientAddress := address }
        | _ => .error (corruption "Malformed cached UTXO address")
  | _, _ => .error (corruption "Malformed cached UTXO outpoint")

def readChainstateRows (db : Database) : Except PyError ChainState := do
  let seenRows <- db.selectSeenTransactions
  let seen <- seenRows.foldlM readSeenRow ∅
  let utxoRows <- db.selectUtxos
  let utxos <- utxoRows.foldlM (readUtxoRow seen) Dict.empty
  return { utxoSet := utxos, seenTxids := seen }

/-!
## Pool rows
-/

def mempoolRow (position : Int) (transaction : Transaction) : MempoolRow :=
  { position := position
    txid := .text transaction.txid
    data := .blob transaction.encoding }

def encodeMempoolRow (position : Int) (transaction : Transaction) :
    Except PyError MempoolRow := do
  let data <- Codec.encodeTransaction transaction
  return {
    position := position
    txid := .text transaction.txid
    data := .blob data }

omit [Crypto] in
def dataLength (row : MempoolRow) : Nat :=
  match row.data with
  | .blob data => data.length
  | _ => 0

def encodeMempoolRows (mempool : Mempool) : Except PyError (List MempoolRow) := do
  let rows <- mapNumbered encodeMempoolRow 0 mempool.getTransactions
  require ((rows.length : Int) ≤ mempool.limits.maxTransactions ∧
      ((rows.map dataLength).sum : Int) ≤ mempool.limits.maxBytes)
    (plain "Mempool exceeds its persisted capacity")
  return rows

/-- The digest of a sequence of transaction identifiers. -/
def txidsDigest (txids : List Str) : Str :=
  sha256Hex (Json.serialize (.arr (txids.map Json.str)))

omit [Crypto] in
def replaceMempoolRows (rows : List MempoolRow) (db : Database) :
    Except PyError Database :=
  db.deleteMempool.insertMempool rows

/-- One iteration of the loop over the pool rows; the state is the expected
position and the pool. -/
def readMempoolRow (loop : Int × Mempool) (row : MempoolRow) :
    Except PyError (Int × Mempool) := do
  require (row.position = loop.1)
    (corruption "Mempool positions are not contiguous from zero")
  let data <- payload row.data
  let transaction <- Codec.decodeTransaction data
  require (row.txid = .text transaction.txid ∧ isHash transaction.txid = true)
    (corruption "Mempool TXID disagrees with its signed payload")
  let added := loop.2.addTransaction transaction
  require (added.1 = true)
    (corruption ("Persisted mempool contains an invalid, conflicting, orphan " ++
      "or over-capacity transaction"))
  return (loop.1 + 1, added.2)

def readMempoolRows (db : Database) (state : ChainState) (metadata : Metadata) :
    Except PyError Mempool := do
  let pool <- Mempool.create (some state.utxoSet) (some state.seenTxids)
    metadata.maxTransactions metadata.maxBytes
  let rows <- db.selectMempool
  let loop <- rows.foldlM readMempoolRow (0, pool)
  require (txidsDigest (loop.2.getTransactions.map Transaction.txid) =
      metadata.mempoolDigest)
    (corruption "Mempool contents/order differ from the committed digest")
  return loop.2

/-!
## The metadata row
-/

omit [Crypto] in
def metadataRow (height : Int) (tipHash : Str) (revision maxTransactions maxBytes : Int)
    (mempoolDigest : Str) : Except PyError MetadataRow := do
  require ((0 ≤ height ∧ height ≤ MAX_SQLITE_INTEGER) ∧
      0 ≤ revision ∧ revision ≤ MAX_SQLITE_INTEGER)
    (plain "Metadata height/revision exceeds SQLite integer storage bounds")
  require (isHash tipHash = true ∧ isHash mempoolDigest = true)
    (plain "Cannot store a malformed tip hash or mempool digest")
  let maxTransactions <- Codec.encodeAmount maxTransactions
  let maxBytes <- Codec.encodeAmount maxBytes
  return {
    id := 1
    schemaVersion := .integer SCHEMA_VERSION
    genesisHash := .text GENESIS_HASH
    tipHash := .text tipHash
    height := .integer height
    revision := .integer revision
    mempoolDigest := .text mempoolDigest
    mempoolMaxTransactions := .text maxTransactions
    mempoolMaxBytes := .text maxBytes }

omit [Crypto] in
/-- A column that holds a digest. -/
def hashColumn (value : SqlValue) : Option Str :=
  match value with
  | .text text => if isHash text then some text else none
  | _ => none

omit [Crypto] in
def integerColumn (value : SqlValue) : Option Int :=
  match value with
  | .integer n => some n
  | _ => none

omit [Crypto] in
/-- The value of a column, or corruption. -/
def column {alpha : Type} (value : Option alpha) (message : String) :
    Except PyError alpha :=
  match value with
  | some a => .ok a
  | none => .error (corruption message)

omit [Crypto] in
def readMetadata (db : Database) : Except PyError Metadata := do
  let rows <- db.selectMetadata
  let row <- column (if rows.length = 1 then rows.head? else none)
    "Metadata must contain exactly one singleton row"
  let version <- column (integerColumn row.schemaVersion)
    "Malformed storage schema version"
  require (0 < version) (corruption "Malformed storage schema version")
  require (version = SCHEMA_VERSION)
    (PyError.storageError .version
      ("Unsupported storage schema version: " ++ toString version))
  require (row.id = 1 ∧ row.genesisHash = .text GENESIS_HASH)
    (corruption "Metadata identity, genesis or tip hash is invalid")
  let tipHash <- column (hashColumn row.tipHash)
    "Metadata identity, genesis or tip hash is invalid"
  let mempoolDigest <- column (hashColumn row.mempoolDigest)
    "Metadata identity, genesis or tip hash is invalid"
  let height <- column (integerColumn row.height) "Metadata height/revision is invalid"
  let revision <- column (integerColumn row.revision) "Metadata height/revision is invalid"
  require (0 ≤ height ∧ height ≤ revision)
    (corruption "Metadata height/revision is invalid")
  let maxTransactions <- decodeAmountColumn row.mempoolMaxTransactions
  let maxBytes <- decodeAmountColumn row.mempoolMaxBytes
  return {
    height := height
    tipHash := tipHash
    revision := revision
    maxTransactions := maxTransactions
    maxBytes := maxBytes
    mempoolDigest := mempoolDigest }

omit [Crypto] in
def updateMetadata (height : Int) (tipHash : Str) (revision : Int) (mempoolDigest : Str)
    (expected : Expected) (db : Database) : Except PyError Database := do
  let result <- db.updateMetadata height tipHash revision mempoolDigest expected.height
    expected.tipHash expected.revision
  require (result.1 = 1) (conflict "Database state changed; reopen before writing")
  return result.2

/-!
## The operations of the store
-/

end ChainStore

/-- A store object: the file its path names and the state of its connection. -/
structure SQLiteChainStore where
  file : DatabaseFile
  connected : Bool
  closed : Bool
deriving DecidableEq

namespace SQLiteChainStore

open ChainStore

/-- A store object that has not been loaded. -/
def unopened (file : DatabaseFile) : SQLiteChainStore :=
  { file := file, connected := false, closed := false }

/-- The database behind an open connection. -/
def requireConnection (store : SQLiteChainStore) : Except PyError Database :=
  if store.closed then
    .error (.storageError .closed "SQLite store is closed; reopen the database")
  else if store.connected = false then
    .error (.storageError .plain "SQLite store has not been loaded")
  else
    match store.file with
    | .present db => .ok db
    | _ => .error (.sqliteError false)

def close (faults : Faults) (store : SQLiteChainStore) :
    Except PyError Unit × SQLiteChainStore :=
  if store.closed then (.ok (), store)
  else
    let next := { store with connected := false, closed := true }
    match store.connected, faults.closing with
    | true, some (.sqliteError _) =>
        (.error (.storageError .plain "Could not close SQLite chain storage"), next)
    | true, some e => (.error e, next)
    | _, _ => (.ok (), next)

variable [Crypto]

omit [Crypto] in
def checkConfiguration (metadata : Metadata) (maxTransactions maxBytes : Option Int) :
    Except PyError Unit :=
  require
    ((maxTransactions = none ∨ maxTransactions = some metadata.maxTransactions) ∧
      (maxBytes = none ∨ maxBytes = some metadata.maxBytes))
    (PyError.storageError .configuration
      ("Mempool limits differ from the persisted configuration; " ++
        "online resizing is not supported"))

/-!
### Opening
-/

/-- The rows of a new database. -/
def initialRows (maxTransactions maxBytes : Int) :
    Except PyError (BlockRow × MetadataRow) := do
  let genesis <- createGenesisBlock
  let genesisRow <- encodeBlockRow 0 genesis
  let metadata <- metadataRow 0 GENESIS_HASH 0 maxTransactions maxBytes (txidsDigest [])
  return (genesisRow, metadata)

/-- Create the schema and store the genesis block in a file that is empty. -/
def initialize_ (fault : Fault) (maxTransactions maxBytes : Int) (file : DatabaseFile) :
    Except PyError Unit × DatabaseFile :=
  prepared fault (initialRows maxTransactions maxBytes)
    (fun rows _ => do
      let db <- Database.new.insertBlock rows.1
      let db <- db.insertMetadata rows.2
      return ((), .present db))
    file

/-- The body of the read transaction. -/
def readStored (now : Int) (maxTransactions maxBytes : Option Int) (db : Database) :
    Except PyError StoredChain := do
  db.validateSchema
  let metadata <- readMetadata db
  db.checkIntegrity
  checkConfiguration metadata maxTransactions maxBytes
  let blocks <- readBlockRows db
  require ((blocks.head?.map Block.hash = some GENESIS_HASH ∧
      metadata.height = (blocks.length : Int) - 1) ∧
      blocks.getLast?.map Block.hash = some metadata.tipHash)
    (corruption "Metadata does not match the stored chain")
  match <- rebuildChainState blocks (Clock.at_ now) with
  | none =>
      let detail :=
        if blocks.tail.any (fun block => now + MAX_FUTURE_BLOCK_TIME < block.timestamp) then
          " (future timestamp relative to current_time)"
        else ""
      .error (corruption ("Stored chain fails full consensus replay" ++ detail))
  | some state => do
      let cached <- readChainstateRows db
      require (cached.seenTxids = state.seenTxids ∧
          cached.utxoSet.sameMap state.utxoSet = true)
        (corruption "Cached chain state differs from full block replay")
      let mempool <- readMempoolRows db state metadata
      return {
        blocks := blocks
        state := state
        mempool := mempool
        revision := metadata.revision }

def read (fault : Fault) (now : Int) (maxTransactions maxBytes : Option Int)
    (store : SQLiteChainStore) : Except PyError StoredChain × SQLiteChainStore :=
  match store.requireConnection with
  | .error e => (.error e, store)
  | .ok db =>
      let outcome := prepared fault (.ok ())
        (fun _ db => do
          let recovered <- readStored now maxTransactions maxBytes db
          return (recovered, db))
        db
      (outcome.1, { store with file := .present outcome.2 })

/-- The part of loading that closes the store when it fails. -/
def openAndRead (faults : Faults) (now : Int) (maxTransactions maxBytes : Option Int)
    (store : SQLiteChainStore) : Except PyError StoredChain × SQLiteChainStore :=
  if store.connected then read faults.transaction now maxTransactions maxBytes store
  else
    match openDatabase faults.opening store.file with
    | (.error e, file) => (.error e, { store with file := file })
    | (.ok false, file) =>
        read faults.transaction now maxTransactions maxBytes
          { store with file := file, connected := true }
    | (.ok true, file) =>
        match initialize_ faults.initializing
            (maxTransactions.getD DEFAULT_MEMPOOL_MAX_TRANSACTIONS)
            (maxBytes.getD DEFAULT_MEMPOOL_MAX_BYTES) file with
        | (.error e, file) => (.error e, { store with file := file, connected := true })
        | (.ok _, file) =>
            read faults.transaction now maxTransactions maxBytes
              { store with file := file, connected := true }

omit [Crypto] in
/-- A limit argument is `None` or positive. -/
def checkLimit (name : String) (value : Option Int) : Except PyError Unit :=
  require (value.all (fun n => 0 < n) = true)
    (PyError.valueError (name ++ " must be a positive integer or None"))

omit [Crypto] in
def checkArguments (clock : Clock) (maxTransactions maxBytes : Option Int) :
    Except PyError Int := do
  checkLimit "max_transactions" maxTransactions
  checkLimit "max_bytes" maxBytes
  require (clock.currentTime.all (fun now => 0 ≤ now) = true)
    (PyError.valueError "current_time must be a non-negative integer or None")
  return clock.currentTime.getD clock.wallClock

omit [Crypto] in
def loadError : PyError -> PyError
  | .sqliteError malformed =>
      sqliteStorageError malformed "Failed to read SQLite chain storage"
  | e => e

def loadOrInitialize (faults : Faults) (clock : Clock)
    (maxTransactions maxBytes : Option Int) (store : SQLiteChainStore) :
    Except PyError StoredChain × SQLiteChainStore :=
  if store.closed then
    (.error (.storageError .closed "SQLite store is closed; reopen the database"), store)
  else
    match checkArguments clock maxTransactions maxBytes with
    | .error e => (.error e, store)
    | .ok now =>
        match openAndRead faults now maxTransactions maxBytes store with
        | (.ok recovered, store') => (.ok recovered, store')
        | (.error e, store') => (.error (loadError e), (close faults store').2)

/-!
### Writing
-/

def checkExpected (expected : Expected) (nextMempool : Mempool) (db : Database) :
    Except PyError Unit := do
  let metadata <- readMetadata db
  let latest <- db.selectLatestBlock
  require ((metadata.height = expected.height ∧ metadata.tipHash = expected.tipHash ∧
      metadata.revision = expected.revision) ∧
      latest.map (fun row => (row.height, row.hash)) =
        some (expected.height, SqlValue.text expected.tipHash))
    (conflict "Database height, tip or revision changed; reopen before writing")
  checkConfiguration metadata (some nextMempool.limits.maxTransactions)
    (some nextMempool.limits.maxBytes)

structure AppendRows where
  block : BlockRow
  state : List SqlValue × List UtxoRow
  pool : List MempoolRow
  tipHash : Str
  mempoolDigest : Str

def appendRows (block : Block) (nextState : ChainState) (nextMempool : Mempool)
    (expected : Expected) : Except PyError AppendRows := do
  let blockRow <- encodeBlockRow (expected.height + 1) block
  let stateRows <- encodeChainstateRows nextState
  let poolRows <- encodeMempoolRows nextMempool
  let mempoolDigest := txidsDigest (nextMempool.getTransactions.map Transaction.txid)
  let _ <- metadataRow (expected.height + 1) block.hash (expected.revision + 1)
    nextMempool.limits.maxTransactions nextMempool.limits.maxBytes mempoolDigest
  return {
    block := blockRow
    state := stateRows
    pool := poolRows
    tipHash := block.hash
    mempoolDigest := mempoolDigest }

def appendTables (block : Block) (nextMempool : Mempool) (expected : Expected)
    (rows : AppendRows) (db : Database) : Except PyError (Int × Database) := do
  checkExpected expected nextMempool db
  require (block.previousBlockHash = expected.tipHash)
    (conflict "Candidate does not extend the expected stored tip")
  let db <- db.insertBlock rows.block
  let db <- replaceChainstateRows rows.state db
  let db <- replaceMempoolRows rows.pool db
  let db <- updateMetadata (expected.height + 1) rows.tipHash (expected.revision + 1)
    rows.mempoolDigest expected db
  return (expected.revision + 1, db)

def poolRows (nextMempool : Mempool) (expected : Expected) :
    Except PyError (List MempoolRow × Str) := do
  let poolRows <- encodeMempoolRows nextMempool
  let mempoolDigest := txidsDigest (nextMempool.getTransactions.map Transaction.txid)
  let _ <- metadataRow expected.height expected.tipHash (expected.revision + 1)
    nextMempool.limits.maxTransactions nextMempool.limits.maxBytes mempoolDigest
  return (poolRows, mempoolDigest)

def replaceTables (nextMempool : Mempool) (expected : Expected)
    (rows : List MempoolRow × Str) (db : Database) : Except PyError (Int × Database) := do
  checkExpected expected nextMempool db
  let db <- replaceMempoolRows rows.1 db
  let db <- updateMetadata expected.height expected.tipHash (expected.revision + 1) rows.2
    expected db
  return (expected.revision + 1, db)

/-- One write transaction on an open store. -/
def write {rows : Type} (fault : Fault) (prepare : Except PyError rows)
    (body : rows -> Database -> Except PyError (Int × Database))
    (store : SQLiteChainStore) : Except PyError Int × SQLiteChainStore :=
  match store.requireConnection with
  | .error e => (.error e, store)
  | .ok db =>
      let outcome := prepared fault prepare body db
      (outcome.1, { store with file := .present outcome.2 })

def appendBlock (faults : Faults) (block : Block) (nextState : ChainState)
    (nextMempool : Mempool) (expected : Expected) (store : SQLiteChainStore) :
    Except PyError Int × SQLiteChainStore :=
  write faults.transaction (appendRows block nextState nextMempool expected)
    (appendTables block nextMempool expected) store

def replaceMempool (faults : Faults) (nextMempool : Mempool) (expected : Expected)
    (store : SQLiteChainStore) : Except PyError Int × SQLiteChainStore :=
  write faults.transaction (poolRows nextMempool expected)
    (replaceTables nextMempool expected) store

/-- The store as the blockchain object uses it, with the faults of one call. -/
def operations (faults : Faults) : ChainStore SQLiteChainStore where
  loadOrInitialize := loadOrInitialize faults
  appendBlock := appendBlock faults
  replaceMempool := replaceMempool faults
  close := close faults

end SQLiteChainStore

end PyChain
