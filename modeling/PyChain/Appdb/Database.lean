import PyChain.Wallet.Service

/-!
# The application database

Accounts, their wallets and sessions, and the records of wallet sends.  A statement
takes effect at once, or fails and changes nothing.
-/

namespace PyChain

open Foundation

namespace Appdb

structure UserRow where
  email : Str
  username : Str
  passwordHash : Str
deriving DecidableEq

structure SessionRow where
  userId : Nat
  csrfHash : Str
  expiresAt : Int
deriving DecidableEq

inductive RecordState where
  | reserved
  | prepared
  | accepted
  | rejected
deriving DecidableEq, Repr

/-- A row of `idempotency_records`; its operation is always `wallet.send`. -/
structure IdempotencyRecord where
  requestFingerprint : Str
  resultTxid : Option Str
  transactionData : Option Bytes
  state : RecordState
deriving DecidableEq

/-- The tables, by their primary keys; a wallet is found by its user. -/
structure AppDatabase where
  users : Dict Nat UserRow
  wallets : Dict Nat Wallet.WalletRow
  sessions : Dict Str SessionRow
  idempotencyRecords : Dict (Nat × Str) IdempotencyRecord

namespace AppDatabase

def operationFailed : PyError :=
  .storageError .plain "Application database operation failed"

/-- A statement that fails changes nothing. -/
def execute {answer : Type} (fails : Bool) (value : answer) : Except PyError answer :=
  if fails then .error operationFailed else .ok value

def wallet (fails : Bool) (database : AppDatabase) (userId : Nat) :
    Except PyError (Option Wallet.WalletRow) :=
  execute fails (database.wallets.get? userId)

/-!
## Records of sends
-/

def idempotency (fails : Bool) (database : AppDatabase) (intent : Nat × Str) :
    Except PyError (Option IdempotencyRecord) :=
  execute fails (database.idempotencyRecords.get? intent)

/-- The primary key is new, and the user exists. -/
def insertRecord (fails : Bool) (database : AppDatabase) (intent : Nat × Str)
    (requestFingerprint : Str) : Except PyError AppDatabase :=
  if database.users.contains intent.1 = false ∨
      database.idempotencyRecords.contains intent = true then .error operationFailed
  else
    execute fails
      { database with
        idempotencyRecords := database.idempotencyRecords.set intent
          { requestFingerprint := requestFingerprint
            resultTxid := none
            transactionData := none
            state := .reserved } }

def updateRecord (fails : Bool) (database : AppDatabase) (intent : Nat × Str)
    (f : IdempotencyRecord -> IdempotencyRecord) : Except PyError AppDatabase :=
  execute fails
    { database with idempotencyRecords := database.idempotencyRecords.modify intent f }

/-- `DELETE ... AND state='reserved'`. -/
def deleteReserved (fails : Bool) (database : AppDatabase) (intent : Nat × Str) :
    Except PyError AppDatabase :=
  execute fails
    { database with
      idempotencyRecords := database.idempotencyRecords.filter
        (fun item => ¬ (item.1 = intent ∧ item.2.state = .reserved)) }

theorem execute_eq_ok_iff {answer : Type} {fails : Bool} {value result : answer} :
    execute fails value = .ok result <-> fails = false ∧ value = result := by
  unfold execute
  cases fails with
  | true => simp
  | false => simp

theorem get?_deleteReserved {fails : Bool} {database next : AppDatabase}
    {intent : Nat × Str} (h : database.deleteReserved fails intent = .ok next)
    (other : Nat × Str) :
    next.idempotencyRecords.get? other =
      (database.idempotencyRecords.get? other).filter
        (fun record => ¬ (other = intent ∧ record.state = .reserved)) := by
  rcases execute_eq_ok_iff.mp h with ⟨_, heq⟩
  rw [← heq]
  apply Option.ext
  intro record
  rw [Dict.get?_filter, Option.filter_eq_some_iff]

theorem wallets_deleteReserved {fails : Bool} {database next : AppDatabase}
    {intent : Nat × Str} (h : database.deleteReserved fails intent = .ok next) :
    next.wallets = database.wallets := by
  rw [← (execute_eq_ok_iff.mp h).right]

end AppDatabase

end Appdb

end PyChain
