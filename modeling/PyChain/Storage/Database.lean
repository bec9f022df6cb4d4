import PyChain.Foundation.Table
import PyChain.Storage.Codec

/-!
# The database file

The five tables with their constraints, statements on them, and the wrapper
that owns a transaction.  A file holds whatever rows somebody put there: a
column can hold a value of any storage class.  A fault says where SQLite or the
interpreter fails during one transaction.
-/

namespace PyChain

open Foundation

def SCHEMA_VERSION : Int := 1

def MAX_SQLITE_INTEGER : Int := 2 ^ 63 - 1

/-- A value of any storage class; text that is not valid UTF-8 cannot be
fetched. -/
inductive SqlValue where
  | null
  | integer (value : Int)
  | real (bits : UInt64)
  | text (value : Str)
  | invalidText (data : Bytes)
  | blob (data : Bytes)
deriving DecidableEq, Repr

namespace SqlValue

/-- An integer parameter must fit in 64 bits. -/
def binds : SqlValue -> Bool
  | .integer n => -(2 ^ 63) ≤ n && n ≤ MAX_SQLITE_INTEGER
  | _ => true

def isNull : SqlValue -> Bool
  | .null => true
  | _ => false

def isInvalid : SqlValue -> Bool
  | .invalidText _ => true
  | _ => false

/-- The characters of a text that the built-in functions look at. -/
def visible (text : Str) : Str :=
  text.takeWhile (fun c => c ≠ Char.ofNat 0)

def visibleBytes (data : Bytes) : Bytes :=
  data.takeWhile (fun b => b ≠ 0)

def isHexByte (b : UInt8) : Bool :=
  isLowerHex (Char.ofNat b.toNat)

def isDigitByte (b : UInt8) : Bool :=
  (Char.ofNat b.toNat).isDigit

/-- `length(x) = 64 AND x NOT GLOB '*[^0-9a-f]*'`; a null does not fail a check. -/
def checkHash : SqlValue -> Bool
  | .null => true
  | .integer _ => false
  | .real _ => false
  | .text value => isHash (visible value)
  | .invalidText data =>
      (visibleBytes data).length = 64 && (visibleBytes data).all isHexByte
  | .blob data => data.length = 64 && (visibleBytes data).all isHexByte

/-- The check on decimal text columns. -/
def checkDecimal : SqlValue -> Bool
  | .text value => Codec.isCanonicalAmount (visible value)
  | .invalidText data =>
      match visibleBytes data with
      | [] => false
      | b :: rest => b ≠ 48 && (b :: rest).all isDigitByte
  | _ => false

/-- `typeof(x) = 'integer' AND x >= minimum`. -/
def checkInteger (minimum : Int) : SqlValue -> Bool
  | .integer n => minimum ≤ n
  | _ => false

def checkBlob : SqlValue -> Bool
  | .blob _ => true
  | _ => false

end SqlValue

/-!
## Rows
-/

structure BlockRow where
  height : Int
  hash : SqlValue
  previousHash : SqlValue
  data : SqlValue
deriving DecidableEq, Repr

structure UtxoRow where
  txid : SqlValue
  outputIndex : SqlValue
  amount : SqlValue
  recipientAddress : SqlValue
deriving DecidableEq, Repr

structure MempoolRow where
  position : Int
  txid : SqlValue
  data : SqlValue
deriving DecidableEq, Repr

structure MetadataRow where
  id : Int
  schemaVersion : SqlValue
  genesisHash : SqlValue
  tipHash : SqlValue
  height : SqlValue
  revision : SqlValue
  mempoolDigest : SqlValue
  mempoolMaxTransactions : SqlValue
  mempoolMaxBytes : SqlValue
deriving DecidableEq, Repr

def BlockRow.columns (row : BlockRow) : List SqlValue :=
  [.integer row.height, row.hash, row.previousHash, row.data]

def UtxoRow.columns (row : UtxoRow) : List SqlValue :=
  [row.txid, row.outputIndex, row.amount, row.recipientAddress]

def MempoolRow.columns (row : MempoolRow) : List SqlValue :=
  [.integer row.position, row.txid, row.data]

def MetadataRow.columns (row : MetadataRow) : List SqlValue :=
  [.integer row.id, row.schemaVersion, row.genesisHash, row.tipHash, row.height,
    row.revision, row.mempoolDigest, row.mempoolMaxTransactions, row.mempoolMaxBytes]

def bindsAll (columns : List SqlValue) : Bool :=
  columns.all SqlValue.binds

def noNulls (columns : List SqlValue) : Bool :=
  columns.all (fun value => !value.isNull)

def blocksSchema : TableSchema BlockRow where
  binds row := bindsAll row.columns
  check row :=
    0 ≤ row.height && noNulls row.columns && row.hash.checkHash &&
      row.previousHash.checkHash && row.data.checkBlob
  clash row other := row.height = other.height || row.hash = other.hash

def seenSchema : TableSchema SqlValue where
  binds txid := txid.binds
  check txid := !txid.isNull && txid.checkHash
  clash txid other := txid = other

def utxosSchema : TableSchema UtxoRow where
  binds row := bindsAll row.columns
  check row :=
    noNulls row.columns && row.outputIndex.checkInteger 0 && row.amount.checkDecimal
  clash row other := row.txid = other.txid && row.outputIndex = other.outputIndex

def mempoolSchema : TableSchema MempoolRow where
  binds row := bindsAll row.columns
  check row :=
    0 ≤ row.position && noNulls row.columns && row.txid.checkHash && row.data.checkBlob
  clash row other := row.position = other.position || row.txid = other.txid

def metadataSchema : TableSchema MetadataRow where
  binds row := bindsAll row.columns
  check row :=
    row.id = 1 && noNulls row.columns && row.schemaVersion.checkInteger 1 &&
      row.height.checkInteger 0 && row.revision.checkInteger 0 &&
      row.mempoolDigest.checkHash && row.mempoolMaxTransactions.checkDecimal &&
      row.mempoolMaxBytes.checkDecimal
  clash row other := row.id = other.id

/-- The content of a file.  `schemaDefect` is the message `validate_schema`
raises, `pagesSound` what the integrity check finds below the level of rows. -/
structure Database where
  schemaDefect : Option String
  pagesSound : Bool
  blocks : List BlockRow
  seenTransactions : List SqlValue
  utxos : List UtxoRow
  mempool : List MempoolRow
  metadata : List MetadataRow
deriving DecidableEq

inductive DatabaseFile where
  | absent
  | empty
  | present (db : Database)
deriving DecidableEq

namespace Database

/-- The tables right after `create_schema`. -/
def new : Database :=
  { schemaDefect := none
    pagesSound := true
    blocks := []
    seenTransactions := []
    utxos := []
    mempool := []
    metadata := [] }

def validateSchema (db : Database) : Except PyError Unit :=
  match db.schemaDefect with
  | none => .ok ()
  | some message => .error (.storageError .corruption message)

/-- `PRAGMA integrity_check`. -/
def integrityCheck (db : Database) : Bool :=
  db.pagesSound && blocksSchema.consistent db.blocks &&
    seenSchema.consistent db.seenTransactions && utxosSchema.consistent db.utxos &&
    mempoolSchema.consistent db.mempool && metadataSchema.consistent db.metadata

/-- Every cached output belongs to a recorded transaction. -/
def utxosReferenced (db : Database) : Bool :=
  db.utxos.all (fun row => row.txid.isNull || db.seenTransactions.contains row.txid)

/-- The tip is the hash of a stored block. -/
def tipReferenced (db : Database) (tipHash : SqlValue) : Bool :=
  tipHash.isNull || db.blocks.any (fun row => row.hash = tipHash)

/-- `PRAGMA foreign_key_check`. -/
def foreignKeyCheck (db : Database) : Bool :=
  db.utxosReferenced && db.metadata.all (fun row => db.tipReferenced row.tipHash)

def checkIntegrity (db : Database) : Except PyError Unit := do
  require (db.integrityCheck = true)
    (PyError.storageError .corruption "SQLite integrity_check failed")
  require (db.foreignKeyCheck = true)
    (PyError.storageError .corruption "SQLite foreign_key_check failed")

/-!
## Statements
-/

def overflow : PyError :=
  .overflowError "Python int too large to convert to SQLite INTEGER"

def rejected : PyError :=
  .sqliteError false

/-- Fetching a row fails on text that is not UTF-8. -/
def fetchAll {row : Type} (columns : row -> List SqlValue) (rows : List row) :
    Except PyError (List row) :=
  if rows.any (fun r => (columns r).any SqlValue.isInvalid) then .error (.sqliteError false)
  else .ok rows

def selectBlocks (db : Database) : Except PyError (List BlockRow) :=
  fetchAll BlockRow.columns (orderBy BlockRow.height db.blocks)

def selectLatestBlock (db : Database) : Except PyError (Option BlockRow) := do
  let rows <- fetchAll (fun row => [row.hash]) (orderBy BlockRow.height db.blocks).getLast?.toList
  return rows.head?

def selectSeenTransactions (db : Database) : Except PyError (List SqlValue) :=
  fetchAll (fun txid => [txid]) db.seenTransactions

def selectUtxos (db : Database) : Except PyError (List UtxoRow) :=
  fetchAll UtxoRow.columns db.utxos

def selectMempool (db : Database) : Except PyError (List MempoolRow) :=
  fetchAll MempoolRow.columns (orderBy MempoolRow.position db.mempool)

def selectMetadata (db : Database) : Except PyError (List MetadataRow) :=
  fetchAll MetadataRow.columns db.metadata

def insertBlock (db : Database) (row : BlockRow) : Except PyError Database := do
  let blocks <- blocksSchema.insertRow overflow rejected db.blocks row
  return { db with blocks := blocks }

def deleteUtxos (db : Database) : Database :=
  { db with utxos := [] }

/-- Parents of cached outputs cannot be deleted. -/
def deleteSeenTransactions (db : Database) : Except PyError Database := do
  require (db.utxos.all (fun row => row.txid.isNull) = true) rejected
  return { db with seenTransactions := [] }

def insertSeenTransactions (db : Database) (rows : List SqlValue) :
    Except PyError Database := do
  let seen <- rows.foldlM (seenSchema.insertRow overflow rejected) db.seenTransactions
  return { db with seenTransactions := seen }

/-- A cached output needs its parent. -/
def insertUtxos (db : Database) (rows : List UtxoRow) : Except PyError Database := do
  let utxos <- rows.foldlM
    (fun utxos row => do
      let next <- utxosSchema.insertRow overflow rejected utxos row
      require (db.seenTransactions.contains row.txid = true) rejected
      return next)
    db.utxos
  return { db with utxos := utxos }

def deleteMempool (db : Database) : Database :=
  { db with mempool := [] }

def insertMempool (db : Database) (rows : List MempoolRow) : Except PyError Database := do
  let mempool <- rows.foldlM (mempoolSchema.insertRow overflow rejected) db.mempool
  return { db with mempool := mempool }

def insertMetadata (db : Database) (row : MetadataRow) : Except PyError Database := do
  let metadata <- metadataSchema.insertRow overflow rejected db.metadata row
  require (db.tipReferenced row.tipHash = true) rejected
  return { db with metadata := metadata }

/-- `UPDATE metadata ... WHERE` the expected values are current; the answer is
the number of rows that matched. -/
def updateMetadata (db : Database) (height : Int) (tipHash : Str) (revision : Int)
    (mempoolDigest : Str) (expectedHeight : Int) (expectedTipHash : Str)
    (expectedRevision : Int) : Except PyError (Nat × Database) := do
  require (bindsAll [.integer height, .integer revision, .integer expectedHeight,
    .integer expectedRevision] = true) overflow
  let current (row : MetadataRow) : Bool :=
    row.id = 1 && row.height = .integer expectedHeight &&
      row.tipHash = .text expectedTipHash && row.revision = .integer expectedRevision
  let metadata := db.metadata.map (fun row =>
    if current row then
      { row with
        height := .integer height
        tipHash := .text tipHash
        revision := .integer revision
        mempoolDigest := .text mempoolDigest }
    else row)
  let rowcount := (db.metadata.filter current).length
  if rowcount = 0 then return (0, db)
  else do
    require (metadataSchema.consistent metadata = true) rejected
    require (db.tipReferenced (.text tipHash) = true) rejected
    return (rowcount, { db with metadata := metadata })

end Database

/-!
## Transactions and faults
-/

/-- Where one transaction fails, and with which exception.  A failure inside
the body comes after the body's own failure, if it has one. -/
inductive Fault where
  | none
  | before (e : PyError)
  | begin (e : PyError)
  | body (e : PyError)
  | commitLost (e : PyError)
  | commitApplied (e : PyError)
  | after (e : PyError)
deriving DecidableEq, Repr

/-- Opening fails before the file exists or after it was created. -/
inductive OpenFault where
  | access (e : PyError)
  | configure (e : PyError)
deriving DecidableEq, Repr

structure Faults where
  opening : Option OpenFault
  initializing : Fault
  transaction : Fault
  closing : Option PyError
deriving DecidableEq, Repr

def Faults.none : Faults :=
  { opening := Option.none
    initializing := Fault.none
    transaction := Fault.none
    closing := Option.none }

def sqliteStorageError (malformed : Bool) (message : String) : PyError :=
  if malformed then .storageError .corruption message
  else .storageError .plain message

/-- What the wrapper raises for an exception before the commit. -/
def transactionError : PyError -> PyError
  | .sqliteError malformed => sqliteStorageError malformed "SQLite transaction failed"
  | .overflowError _ => .storageError .plain "SQLite integer storage bounds exceeded"
  | e => e

/-- What the wrapper raises for an exception of the commit. -/
def commitTransactionError : PyError -> PyError
  | .storageError .commitUncertain message => .storageError .commitUncertain message
  | _ =>
      .storageError .commitUncertain
        "SQLite COMMIT outcome is uncertain; reopen the database"

/-- Run a body between `BEGIN` and `COMMIT`. -/
def transaction {alpha state : Type} (fault : Fault)
    (body : state -> Except PyError (alpha × state)) (s : state) :
    Except PyError alpha × state :=
  match fault with
  | .begin e => (.error (transactionError e), s)
  | _ =>
      match body s with
      | .error e => (.error (transactionError e), s)
      | .ok (answer, next) =>
          match fault with
          | .body e => (.error (transactionError e), s)
          | .commitLost e => (.error (commitTransactionError e), s)
          | .commitApplied e => (.error (commitTransactionError e), next)
          | _ => (.ok answer, next)

/-- A transaction together with what is prepared before it. -/
def prepared {alpha rows state : Type} (fault : Fault) (prepare : Except PyError rows)
    (body : rows -> state -> Except PyError (alpha × state)) (s : state) :
    Except PyError alpha × state :=
  match fault with
  | .before e => (.error e, s)
  | _ =>
      match prepare with
      | .error e => (.error e, s)
      | .ok rows =>
          match transaction fault (body rows) s with
          | (.error e, s') => (.error e, s')
          | (.ok answer, s') =>
              match fault with
              | .after e => (.error e, s')
              | _ => (.ok answer, s')

theorem prepared_none_ok {alpha rows state : Type} {prepare : Except PyError rows}
    {body : rows -> state -> Except PyError (alpha × state)} {s s' : state} {r : rows}
    {answer : alpha} (hprepare : prepare = .ok r) (hbody : body r s = .ok (answer, s')) :
    prepared .none prepare body s = (.ok answer, s') := by
  unfold prepared transaction
  rw [hprepare]
  simp only [hbody]

theorem prepared_none_error {alpha rows state : Type} {prepare : Except PyError rows}
    {body : rows -> state -> Except PyError (alpha × state)} {s : state} {r : rows}
    {e : PyError} (hprepare : prepare = .ok r) (hbody : body r s = .error e) :
    prepared .none prepare body s = (.error (transactionError e), s) := by
  unfold prepared transaction
  rw [hprepare]
  simp only [hbody]

/-- A transaction is all or nothing: either the state is untouched and an error
is raised, or the body succeeded and its state is the new one. -/
theorem prepared_cases {alpha rows state : Type} (fault : Fault)
    (prepare : Except PyError rows)
    (body : rows -> state -> Except PyError (alpha × state)) (s : state) :
    (exists e, prepared fault prepare body s = (.error e, s)) ∨
      (exists r answer next, prepare = .ok r ∧ body r s = .ok (answer, next) ∧
        ((fault = .none ∧ prepared fault prepare body s = (.ok answer, next)) ∨
          exists e, prepared fault prepare body s = (.error e, next))) := by
  unfold prepared transaction
  cases prepare with
  | error e =>
      apply Or.inl
      cases fault <;> exact ⟨_, rfl⟩
  | ok r =>
      cases hbody : body r s with
      | error e =>
          simp only [hbody]
          apply Or.inl
          cases fault <;> exact ⟨_, rfl⟩
      | ok outcome =>
          simp only [hbody]
          cases fault with
          | none => exact Or.inr ⟨r, outcome.1, outcome.2, rfl, hbody, Or.inl ⟨rfl, rfl⟩⟩
          | before e => exact Or.inl ⟨e, rfl⟩
          | begin e => exact Or.inl ⟨_, rfl⟩
          | body e => exact Or.inl ⟨_, rfl⟩
          | commitLost e => exact Or.inl ⟨_, rfl⟩
          | commitApplied e =>
              exact Or.inr ⟨r, outcome.1, outcome.2, rfl, hbody, Or.inr ⟨_, rfl⟩⟩
          | after e =>
              exact Or.inr ⟨r, outcome.1, outcome.2, rfl, hbody, Or.inr ⟨_, rfl⟩⟩

/-- An open connection, and whether the file was created. -/
def openDatabase (fault : Option OpenFault) (file : DatabaseFile) :
    Except PyError Bool × DatabaseFile :=
  let raised : PyError -> PyError
    | .sqliteError malformed =>
        sqliteStorageError malformed "Cannot open/configure the SQLite database"
    | .osError => .storageError .plain "Cannot access the SQLite database file"
    | e => e
  match fault, file with
  | some (.access e), file => (.error (raised e), file)
  | _, .empty =>
      (.error (.storageError .corruption "Existing database file is empty"), .empty)
  | some (.configure e), .absent => (.error (raised e), .empty)
  | some (.configure e), .present db => (.error (raised e), .present db)
  | none, .absent => (.ok true, .empty)
  | none, .present db => (.ok false, .present db)

end PyChain
