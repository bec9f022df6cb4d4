import PyChain.Api.TransactionLookup
import PyChain.Appdb.Database

/-!
# Sending

A send is a task that runs from one await to the next under the lock of its user.  It
records its intent before it builds a transaction, and the signed bytes before it hands
the transaction to the node.  A statement of the database may fail, every await may
raise, and the process may stop between any two turns and start again on the same
database.
-/

namespace PyChain

open Foundation

namespace Wallet

open Appdb

/-- A call of `send`, with its idempotency key. -/
structure SendRequest where
  userId : Nat
  recipientAddress : Str
  amount : Int
  fee : Int
  idempotencyKey : Str
deriving DecidableEq

def SendRequest.intent (request : SendRequest) : Nat × Str :=
  (request.userId, request.idempotencyKey)

def SendRequest.toDict (request : SendRequest) : Json :=
  Json.obj
    [(str "recipient_address", Json.str request.recipientAddress),
      (str "amount", Json.int request.amount),
      (str "fee", Json.int request.fee)]

inductive SendError where
  | api (error : Api.ApiError)
  | wallet (error : WalletError)

/-- What the handler of a failed preparation raises. -/
def SendError.shown : SendError -> SendError
  | .wallet (.insufficientBalance _) =>
      .api ⟨409, "INSUFFICIENT_BALANCE", str "Insufficient available balance"⟩
  | .wallet (.workLimit message) => .api ⟨413, "TRANSACTION_TOO_LARGE", str message⟩
  | e => e

def raised (e : PyError) : SendError :=
  .wallet (.raised e)

/-- Where a send waits, or how it has ended: the transaction identifier it reports. -/
inductive SendPhase where
  | queued
  | viewing (wallet : WalletRow)
  | viewed (wallet : WalletRow) (answer : Except PyError WalletState)
  | slotting (wallet : WalletRow) (view : WalletState)
  | building (wallet : WalletRow) (view : WalletState)
  | finding (transaction : Transaction)
  | found (transaction : Transaction) (answer : Except PyError Bool)
  | submitting (transaction : Transaction)
  | submitted (transaction : Transaction) (answer : Except PyError Bool)
  | rechecking (transaction : Transaction)
  | rechecked (transaction : Transaction) (answer : Except PyError Bool)
  | ended (outcome : Except SendError (Option Str))

/-- The statements of a send; none is run twice in one turn. -/
inductive Statement where
  | selectRecord
  | insertRecord
  | selectWallet
  | storeTransaction
  | deleteReserved
  | settle
deriving DecidableEq, Repr

structure SendTask where
  request : SendRequest
  phase : SendPhase

/-- The process that runs the sends, its node and the database.  The last two fields
record what was handed to the node and what was answered to callers. -/
structure Sender (disk : Type) where
  database : AppDatabase
  chain : Blockchain
  disk : disk
  locks : List Nat
  buildJobs : Nat
  tasks : Dict Nat SendTask
  handed : List ((Nat × Str) × Transaction)
  receipts : List (SendRequest × Option Str)

def MAX_BUILD_JOBS : Nat := 2

section Turns

variable [Crypto]

def fingerprint (request : SendRequest) : Str :=
  sha256Hex (Json.serialize request.toDict)

/-!
## The turns of a send

Each turn ends at the next await, or ends the send.
-/

section Statements

variable (fails : Statement -> Bool) (request : SendRequest) (database : AppDatabase)

omit [Crypto] in
/-- The handler of a failed preparation forgets the reservation and raises again. -/
def abandon (e : SendError) : SendPhase × AppDatabase :=
  match database.deleteReserved (fails .deleteReserved) request.intent with
  | .error failure => (.ended (.error (raised failure)), database)
  | .ok next => (.ended (.error e.shown), next)

omit [Crypto] in
/-- Look up the wallet, and ask the node for its view. -/
def prepare : SendPhase × AppDatabase :=
  match database.wallet (fails .selectWallet) request.userId with
  | .error e => abandon fails request database (raised e)
  | .ok none =>
      abandon fails request database
        (.api ⟨404, "WALLET_NOT_FOUND", str "Wallet was not found"⟩)
  | .ok (some wallet) => (.viewing wallet, database)

/-- The record of an earlier call decides, unless it has only reserved its intent. -/
def resumeRecord (record : IdempotencyRecord) : SendPhase × AppDatabase :=
  if record.requestFingerprint ≠ fingerprint request then
    (.ended (.error (.api ⟨409, "IDEMPOTENCY_CONFLICT",
      str "Idempotency key was already used with another request"⟩)), database)
  else if record.state = .accepted then (.ended (.ok record.resultTxid), database)
  else if record.state = .rejected then
    (.ended (.error (.api ⟨409, "TRANSACTION_CONFLICT",
      str "Transaction was rejected; use a new intent and idempotency key"⟩)), database)
  else
    match record.transactionData with
    | none => prepare fails request database
    | some data =>
        match Codec.decodeTransaction data with
        | .error e => (.ended (.error (raised e)), database)
        | .ok transaction => (.finding transaction, database)

/-- The first turn under the lock. -/
def start : SendPhase × AppDatabase :=
  match database.idempotency (fails .selectRecord) request.intent with
  | .error e => (.ended (.error (raised e)), database)
  | .ok (some record) => resumeRecord fails request database record
  | .ok none =>
      match database.insertRecord (fails .insertRecord) request.intent
          (fingerprint request) with
      | .error e => (.ended (.error (raised e)), database)
      | .ok next => prepare fails request next

/-- The worker thread is done; its bytes are stored before the node hears of them. -/
def storeBuilt (result : Except WalletError (Transaction × Bytes)) :
    SendPhase × AppDatabase :=
  match result with
  | .error e => abandon fails request database (.wallet e)
  | .ok (transaction, data) =>
      match database.updateRecord (fails .storeTransaction) request.intent
          (fun record =>
            { record with
              transactionData := some data
              resultTxid := some transaction.txid
              state := .prepared }) with
      | .error e => abandon fails request database (raised e)
      | .ok next => (.finding transaction, next)

/-- Record the decision of the node and answer. -/
def settle (transaction : Transaction) (accepted : Bool) : SendPhase × AppDatabase :=
  match database.updateRecord (fails .settle) request.intent
      (fun record => { record with state := if accepted then .accepted else .rejected }) with
  | .error e => (.ended (.error (raised e)), database)
  | .ok next =>
      if accepted then (.ended (.ok (some transaction.txid)), next)
      else
        (.ended (.error (.api ⟨409, "TRANSACTION_CONFLICT",
          str "Transaction was rejected by node admission rules"⟩)), next)

/-- The turn after an answer of the node; nothing when there is none. -/
def resume (phase : SendPhase) : SendPhase × AppDatabase :=
  match phase with
  | .viewed _ (.error e) => abandon fails request database (raised e)
  | .viewed wallet (.ok view) => (.slotting wallet view, database)
  | .found _ (.error e) => (.ended (.error (raised e)), database)
  | .found transaction (.ok true) => settle fails request database transaction true
  | .found transaction (.ok false) => (.submitting transaction, database)
  | .submitted _ (.error e) => (.ended (.error (raised e)), database)
  | .submitted transaction (.ok true) => settle fails request database transaction true
  | .submitted transaction (.ok false) => (.rechecking transaction, database)
  | .rechecked _ (.error e) => (.ended (.error (raised e)), database)
  | .rechecked transaction (.ok accepted) =>
      settle fails request database transaction accepted
  | phase => (phase, database)

def interrupt (phase : SendPhase) (e : PyError) : SendPhase × AppDatabase :=
  match phase with
  | .viewing _ => abandon fails request database (raised e)
  | .viewed _ _ => abandon fails request database (raised e)
  | .slotting _ _ => abandon fails request database (raised e)
  | .building _ _ => abandon fails request database (raised e)
  | .ended outcome => (.ended outcome, database)
  | _ => (.ended (.error (raised e)), database)

end Statements

/-!
## The node
-/

omit [Crypto] in
def isMatch (reply : Except PyError (Option FoundTransaction)) : Except PyError Bool :=
  match reply with
  | .error e => .error e
  | .ok found => .ok found.isSome

/-- The dispatcher of the node answers the command a send waits for. -/
def nodeAnswers {disk : Type} (store : Option (ChainStore disk)) (chain : Blockchain)
    (d : disk) (phase : SendPhase) : SendPhase × Blockchain × disk :=
  match phase with
  | .viewing wallet => (.viewed wallet (chain.walletState wallet.address), chain, d)
  | .finding transaction =>
      (.found transaction (isMatch (chain.findTransaction transaction.txid)), chain, d)
  | .submitting transaction =>
      match Codec.encodeTransaction transaction with
      | .error _ => (.submitted transaction (.ok false), chain, d)
      | .ok _ =>
          let outcome := Blockchain.perform store (.submitTransaction transaction) chain d
          (.submitted transaction outcome.1, outcome.2.1, outcome.2.2)
  | .rechecking transaction =>
      (.rechecked transaction (isMatch (chain.findTransaction transaction.txid)), chain, d)
  | phase => (phase, chain, d)

end Turns

/-!
## The process
-/

/-- What may happen next.  The choices of the environment are which statements of a turn
fail, which await raises and when the process stops; whatever else the node does may
change its chain. -/
inductive SendEvent (disk : Type) where
  | called (id : Nat) (request : SendRequest)
  | locked (id : Nat) (fails : Statement -> Bool)
  | answered (id : Nat)
  | resumed (id : Nat) (fails : Statement -> Bool)
  | slotted (id : Nat)
  | built (id : Nat) (wallClock : Nat) (fails : Statement -> Bool)
  | interrupted (id : Nat) (e : PyError) (fails : Statement -> Bool)
  | restarted (chain : Blockchain) (d : disk)
  | nodeMoved (chain : Blockchain) (d : disk)

namespace SendPhase

/-- The send waits for an answer that is there. -/
def answered : SendPhase -> Bool
  | viewed _ _ => true
  | found _ _ => true
  | submitted _ _ => true
  | rechecked _ _ => true
  | _ => false

/-- The send holds the lock of its user. -/
def holding : SendPhase -> Bool
  | queued => false
  | ended _ => false
  | _ => true

def isBuilding : SendPhase -> Bool
  | building _ _ => true
  | _ => false

end SendPhase

namespace Sender

variable {disk : Type}

def setPhase (sender : Sender disk) (id : Nat) (task : SendTask) (phase : SendPhase) :
    Sender disk :=
  { sender with tasks := sender.tasks.set id { task with phase := phase } }

def withTask (sender : Sender disk) (id : Nat) (next : SendTask -> Sender disk) :
    Sender disk :=
  match sender.tasks.get? id with
  | none => sender
  | some task => next task

/-- The outcome of a turn.  A send that ends gives its lock back. -/
def turned (sender : Sender disk) (id : Nat) (task : SendTask)
    (outcome : SendPhase × AppDatabase) : Sender disk :=
  let moved : Sender disk :=
    { sender.setPhase id task outcome.1 with database := outcome.2 }
  match outcome.1 with
  | .ended (.ok txid) =>
      { moved with
        locks := moved.locks.erase task.request.userId
        receipts := moved.receipts ++ [(task.request, txid)] }
  | .ended (.error _) => { moved with locks := moved.locks.erase task.request.userId }
  | .submitting transaction =>
      { moved with handed := moved.handed ++ [(task.request.intent, transaction)] }
  | _ => moved

def releaseBuild (sender : Sender disk) : Sender disk :=
  { sender with buildJobs := sender.buildJobs - 1 }

def called (id : Nat) (request : SendRequest) (sender : Sender disk) : Sender disk :=
  match sender.tasks.get? id with
  | some _ => sender
  | none => { sender with tasks := sender.tasks.set id ⟨request, .queued⟩ }

variable [Crypto] (store : Option (ChainStore disk)) (keystore : KeyStore)
  (maxItemBytes : Nat)

def locked (id : Nat) (fails : Statement -> Bool) (sender : Sender disk) : Sender disk :=
  sender.withTask id (fun task =>
    match task.phase with
    | .queued =>
        if task.request.userId ∈ sender.locks then sender
        else
          { sender with locks := task.request.userId :: sender.locks }.turned id task
            (start fails task.request sender.database)
    | _ => sender)

def answered (id : Nat) (sender : Sender disk) : Sender disk :=
  sender.withTask id (fun task =>
    let answer := nodeAnswers store sender.chain sender.disk task.phase
    { sender.setPhase id task answer.1 with chain := answer.2.1, disk := answer.2.2 })

def resumed (id : Nat) (fails : Statement -> Bool) (sender : Sender disk) : Sender disk :=
  sender.withTask id (fun task =>
    if task.phase.answered then
      sender.turned id task (resume fails task.request sender.database task.phase)
    else sender)

omit [Crypto] in
def slotted (id : Nat) (sender : Sender disk) : Sender disk :=
  sender.withTask id (fun task =>
    match task.phase with
    | .slotting wallet view =>
        if sender.buildJobs < MAX_BUILD_JOBS then
          { sender.setPhase id task (.building wallet view) with
            buildJobs := sender.buildJobs + 1 }
        else sender
    | _ => sender)

def built (id : Nat) (wallClock : Nat) (fails : Statement -> Bool) (sender : Sender disk) :
    Sender disk :=
  sender.withTask id (fun task =>
    match task.phase with
    | .building wallet view =>
        sender.releaseBuild.turned id task
          (storeBuilt fails task.request sender.database
            (prepareTransaction keystore wallet view task.request.recipientAddress
              task.request.amount task.request.fee maxItemBytes wallClock))
    | _ => sender)

omit [Crypto] in
/-- A send that waits for its lock does not hold it. -/
def interrupted (id : Nat) (e : PyError) (fails : Statement -> Bool)
    (sender : Sender disk) : Sender disk :=
  sender.withTask id (fun task =>
    match task.phase with
    | .queued => sender.setPhase id task (.ended (.error (raised e)))
    | .ended _ => sender
    | .building wallet view =>
        sender.releaseBuild.turned id task
          (interrupt fails task.request sender.database (.building wallet view) e)
    | phase => sender.turned id task (interrupt fails task.request sender.database phase e))

omit [Crypto] in
/-- The process starts again: the database is as it was, and no send is running. -/
def restarted (chain : Blockchain) (d : disk) (sender : Sender disk) : Sender disk :=
  { sender with
    chain := chain
    disk := d
    locks := []
    buildJobs := 0
    tasks := Dict.empty }

def perform (event : SendEvent disk) (sender : Sender disk) : Sender disk :=
  match event with
  | .called id request => called id request sender
  | .locked id fails => locked id fails sender
  | .answered id => answered store id sender
  | .resumed id fails => resumed id fails sender
  | .slotted id => slotted id sender
  | .built id wallClock fails => built keystore maxItemBytes id wallClock fails sender
  | .interrupted id e fails => interrupted id e fails sender
  | .restarted chain d => restarted chain d sender
  | .nodeMoved chain d => { sender with chain := chain, disk := d }

def machine : Machine (Sender disk) (SendEvent disk) Unit where
  step event sender := ((), perform store keystore maxItemBytes event sender)

omit [Crypto] in
/-- A process that has run no send on a database without records of sends. -/
structure Fresh (sender : Sender disk) : Prop where
  records : sender.database.idempotencyRecords = Dict.empty
  tasks : sender.tasks = Dict.empty
  locks : sender.locks = []
  buildJobs : sender.buildJobs = 0
  handed : sender.handed = []
  receipts : sender.receipts = []

end Sender

end Wallet

end PyChain
