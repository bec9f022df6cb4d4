import PyChain.Foundation.Dict
import PyChain.Foundation.Machine
import PyChain.Mining.Miner

/-!
# Mining jobs

The service of the API that mines in the background, from its start until it is
closed.  Callers create and cancel jobs, each job has a worker on the event loop
and a mining thread, and a lock guards the slot of the active job.  A turn is
what one of them runs between two places where it waits; what the node answers
and when the thread ends is decided by the environment.  Exceptions of the node
are given by their texts, and job ids do not repeat.
-/

namespace PyChain

open Foundation

namespace Api

inductive JobStatus where
  | queued
  | mining
  | found
  | accepted
  | stale
  | failed
  | cancelled
deriving DecidableEq, Repr

/-- The mining thread of a job; an ended thread leaves a block, nothing, or the text of
its exception. -/
inductive MiningThread where
  | absent
  | running
  | ended (outcome : Except Str (Option Block))

structure MiningJob where
  userId : Int
  minerAddress : Str
  status : JobStatus
  templateHeight : Nat
  previousHash : Str
  transactionCount : Nat
  difficulty : Int
  fees : Int
  totalReward : Int
  resultHash : Option Str
  nonce : Option Int
  accepted : Option Bool
  error : Option Str
  stopEvent : Bool
  thread : MiningThread

/-- Where the worker of a job waits. -/
inductive Worker where
  | scheduled
  /-- Telling that the job was cancelled before it started. -/
  | announcingCancelled
  | announcingStart
  | awaitingThread
  /-- Waiting three more seconds for the thread after the runtime limit. -/
  | joiningThread
  | announcingFound (mined : Block)
  | awaitingAccept
  | awaitingStatus
  | announcingEnd
  /-- Waiting for the lock, to free the slot. -/
  | releasing
  | done
  /-- Ended by an exception outside its clean-up. -/
  | raised
deriving DecidableEq

/-- A job with what its worker was given. -/
structure JobEntry where
  job : MiningJob
  template : Block
  maxNonce : Int
  worker : Worker

structure MiningConfig where
  miningMaxNonce : Int
  miningMaxTransactions : Int
  miningMaxBytes : Int
  /-- The runtime limit as it is printed. -/
  miningMaxRuntimeSeconds : Str

inductive ServiceError where
  | api (statusCode : Nat) (code message : Str)
  | node (text : Str)
deriving DecidableEq, Repr

structure CreateRequest where
  userId : Int
  minerAddress : Str
  maxTransactions : Int
  maxBytes : Int
  maxNonce : Option Int
deriving DecidableEq, Repr

/-- Where a call of `create_job` waits, and how it ended. -/
inductive CreateTask where
  | waitingLock (request : CreateRequest)
  | awaitingTemplate (request : CreateRequest) (maxTransactions maxBytes : Int)
  | awaitingParent (request : CreateRequest) (template : Block)
  | returned (jobId : Str)
  | raised (e : ServiceError)
  | interrupted

/-- Where a call of `cancel_job` waits, and how it ended. -/
inductive CancelTask where
  | joining (jobId : Str)
  | releasing (jobId : Str)
  | announcing (jobId : Str)
  | returned (jobId : Str) (cancelled : Bool)
  | raised (e : ServiceError)
  | interrupted

structure MiningService where
  config : MiningConfig
  jobs : Dict Str JobEntry
  activeJobId : Option Str
  /-- The call of `create_job` that holds the lock across its awaits. -/
  lockHolder : Option Nat
  creates : Dict Nat CreateTask
  cancels : Dict Nat CancelTask
  /-- The blocks passed to `node.accept_block` so far, with their jobs. -/
  submitted : List (Str × Block)

def JobStatus.busy (status : JobStatus) : Bool :=
  decide (status = .queued) || decide (status = .mining)

def JobStatus.final (status : JobStatus) : Bool :=
  decide (status = .accepted) || decide (status = .stale) || decide (status = .failed) ||
    decide (status = .cancelled)

namespace MiningService

def create (config : MiningConfig) : MiningService :=
  { config := config
    jobs := Dict.empty
    activeJobId := none
    lockHolder := none
    creates := Dict.empty
    cancels := Dict.empty
    submitted := [] }

def setEntry (service : MiningService) (id : Str) (entry : JobEntry) : MiningService :=
  { service with jobs := service.jobs.modify id (fun _ => entry) }

def setCreate (service : MiningService) (call : Nat) (task : CreateTask) : MiningService :=
  { service with creates := service.creates.set call task }

def setCancel (service : MiningService) (call : Nat) (task : CancelTask) : MiningService :=
  { service with cancels := service.cancels.set call task }

/-- Free the slot if this job has it. -/
def freeSlot (service : MiningService) (id : Str) : MiningService :=
  if service.activeJobId = some id then { service with activeJobId := none } else service

/-!
## Creating jobs
-/

def createCalled (call : Nat) (request : CreateRequest) (service : MiningService) :
    MiningService :=
  match service.creates.get? call with
  | some _ => service
  | none => service.setCreate call (.waitingLock request)

/-- Whether the job of the slot is still queued or mining. -/
def slotBusy (service : MiningService) : Bool :=
  match service.activeJobId with
  | none => false
  | some id =>
      match service.jobs.get? id with
      | none => false
      | some entry => entry.job.status.busy

/-- The call has the lock, and asks the node for a template. -/
def createLocked (call : Nat) (service : MiningService) : MiningService :=
  match service.creates.get? call, service.lockHolder with
  | some (.waitingLock request), none =>
      if service.slotBusy = true then
        service.setCreate call (.raised (.api 409 (str "MINING_BUSY")
          (str "A mining job is already running on this node")))
      else
        { service with lockHolder := some call }.setCreate call
          (.awaitingTemplate request
            (min (max 0 request.maxTransactions) service.config.miningMaxTransactions)
            (min (max 1000 request.maxBytes) service.config.miningMaxBytes))
  | _, _ => service

def unlock (service : MiningService) : MiningService :=
  { service with lockHolder := none }

/-- The node answers with a template; the call asks for its parent. -/
def createTemplate (call : Nat) (answer : Except Str Block) (service : MiningService) :
    MiningService :=
  match service.creates.get? call with
  | some (.awaitingTemplate request _ _) =>
      match answer with
      | .error text => service.unlock.setCreate call (.raised (.node text))
      | .ok template => service.setCreate call (.awaitingParent request template)
  | _ => service

def boundedNonce (config : MiningConfig) (maxNonce : Option Int) : Int :=
  let requested :=
    match maxNonce with
    | none => config.miningMaxNonce
    | some limit => if limit = 0 then config.miningMaxNonce else limit
  min (max 1 requested) config.miningMaxNonce

def coinbaseOutputAmount (template : Block) : Int :=
  match template.transactions with
  | [] => 50
  | coinbase :: _ =>
      match coinbase.outputs with
      | [] => 50
      | output :: _ => output.amount

def newJob (request : CreateRequest) (template : Block) (parentHeight : Option Nat) :
    MiningJob :=
  { userId := request.userId
    minerAddress := request.minerAddress
    status := .queued
    templateHeight :=
      match parentHeight with
      | none => 1
      | some height => height + 1
    previousHash := template.previousBlockHash
    transactionCount := template.transactions.length
    difficulty := template.difficulty
    fees := max 0 (coinbaseOutputAmount template - 50)
    totalReward := coinbaseOutputAmount template
    resultHash := none
    nonce := none
    accepted := none
    error := none
    stopEvent := false
    thread := .absent }

/-- The node answers with the height of the parent; the job is queued. -/
def createParent (call : Nat) (answer : Except Str (Option Nat)) (jobId : Str)
    (service : MiningService) : MiningService :=
  match service.creates.get? call with
  | some (.awaitingParent request template) =>
      match answer with
      | .error text => service.unlock.setCreate call (.raised (.node text))
      | .ok parentHeight =>
          if jobId ∈ service.jobs.keys then service
          else
            { service.unlock with
              jobs := service.jobs.set jobId
                { job := newJob request template parentHeight
                  template := template
                  maxNonce := boundedNonce service.config request.maxNonce
                  worker := .scheduled }
              activeJobId := some jobId }.setCreate call (.returned jobId)
  | _ => service

/-- The caller goes away while its call waits. -/
def createInterrupted (call : Nat) (service : MiningService) : MiningService :=
  match service.creates.get? call with
  | some (.waitingLock _) => service.setCreate call .interrupted
  | some (.awaitingTemplate _ _ _) => service.unlock.setCreate call .interrupted
  | some (.awaitingParent _ _) => service.unlock.setCreate call .interrupted
  | _ => service

/-!
## Workers
-/

/-- Let the worker of a job go on from where it waits. -/
def withWorker (service : MiningService) (id : Str) (worker : Worker)
    (next : JobEntry -> MiningService) : MiningService :=
  match service.jobs.get? id with
  | none => service
  | some entry => if entry.worker = worker then next entry else service

def workerStarts (id : Str) (service : MiningService) : MiningService :=
  service.withWorker id .scheduled (fun entry =>
    if entry.job.stopEvent then
      service.setEntry id
        { entry with
          job := { entry.job with status := .cancelled }
          worker := .announcingCancelled }
    else
      service.setEntry id
        { entry with
          job := { entry.job with status := .mining }
          worker := .announcingStart })

/-- The start was announced, and the thread is started if the system allows it. -/
def workerSpawns (id : Str) (started : Bool) (service : MiningService) : MiningService :=
  service.withWorker id .announcingStart (fun entry =>
    if started then
      service.setEntry id
        { entry with
          job := { entry.job with thread := .running }
          worker := .awaitingThread }
    else service.setEntry id { entry with worker := .raised })

/-- What the worker makes of the thread. -/
def concluded [Crypto] (entry : JobEntry) : JobEntry :=
  let job : MiningJob :=
    match entry.job.thread with
    | .ended (.error text) => { entry.job with error := some text }
    | _ => entry.job
  if job.stopEvent then
    { entry with job := { job with status := .cancelled }, worker := .announcingEnd }
  else
    match job.thread with
    | .ended (.ok (some mined)) =>
        { entry with
          job :=
            { job with
              status := .found
              resultHash := some mined.hash
              nonce := some mined.nonce }
          worker := .announcingFound mined }
    | _ =>
        { entry with
          job :=
            { job with
              error :=
                if job.error.getD [] = [] then
                  some (str "No valid proof-of-work found within max_nonce (" ++
                    Json.renderInt entry.maxNonce ++ str ").")
                else job.error
              status := .failed }
          worker := .announcingEnd }

/-- The thread has ended, and the worker notices. -/
def workerJoins [Crypto] (id : Str) (service : MiningService) : MiningService :=
  service.withWorker id .awaitingThread (fun entry =>
    match entry.job.thread with
    | .ended _ => service.setEntry id (concluded entry)
    | _ => service)

def workerTimesOut (id : Str) (service : MiningService) : MiningService :=
  service.withWorker id .awaitingThread (fun entry =>
    service.setEntry id
      { entry with
        job :=
          { entry.job with
            stopEvent := true
            error := some (str "Mining exceeded maximum allowed runtime of " ++
              service.config.miningMaxRuntimeSeconds ++ str "s") }
        worker := .joiningThread })

def workerWaitFails [Crypto] (id : Str) (text : Str) (service : MiningService) :
    MiningService :=
  service.withWorker id .awaitingThread (fun entry =>
    service.setEntry id
      (concluded { entry with job := { entry.job with error := some text } }))

/-- The extra wait for the thread ends, in time or not, or fails. -/
def workerStopsWaiting [Crypto] (id : Str) (failed : Bool) (service : MiningService) :
    MiningService :=
  service.withWorker id .joiningThread (fun entry =>
    if failed then service.setEntry id { entry with worker := .raised }
    else service.setEntry id (concluded entry))

/-- The block was announced and is passed to the node. -/
def workerSubmits (id : Str) (service : MiningService) : MiningService :=
  match service.jobs.get? id with
  | none => service
  | some entry =>
      match entry.worker with
      | .announcingFound mined =>
          { service with
            submitted := service.submitted ++ [(id, mined)] }.setEntry id
              { entry with worker := .awaitingAccept }
      | _ => service

/-- The node accepts or rejects the block, or raises. -/
def workerAccepted (id : Str) (answer : Except Str Bool) (service : MiningService) :
    MiningService :=
  service.withWorker id .awaitingAccept (fun entry =>
    match answer with
    | .error text =>
        service.setEntry id
          { entry with
            job :=
              { entry.job with
                error := some (str "Node error accepting block: " ++ text)
                accepted := some false }
            worker := .awaitingStatus }
    | .ok true =>
        service.setEntry id
          { entry with
            job := { entry.job with accepted := some true, status := .accepted }
            worker := .announcingEnd }
    | .ok false =>
        service.setEntry id
          { entry with
            job := { entry.job with accepted := some false }
            worker := .awaitingStatus })

/-- The text of a job's error, unless it already has one. -/
def orError (error : Option Str) (text : Str) : Option Str :=
  if error.getD [] = [] then some text else error

/-- The node tells its tip, which decides why the block was rejected. -/
def workerStatus (id : Str) (answer : Except Str Str) (service : MiningService) :
    MiningService :=
  service.withWorker id .awaitingStatus (fun entry =>
    let rejected (status : JobStatus) (text : Str) : MiningService :=
      service.setEntry id
        { entry with
          job :=
            { entry.job with
              status := status
              error := orError entry.job.error text }
          worker := .announcingEnd }
    match answer with
    | .error text => rejected .failed (str "Failed to commit block: " ++ text)
    | .ok tipHash =>
        if tipHash ≠ entry.job.previousHash then
          rejected .stale (str ("Another block won the race. The template previous hash " ++
            "is no longer the current tip."))
        else rejected .failed (str "Block was rejected by node consensus rules."))

/-- The last message of a worker was sent. -/
def workerAnnounced (id : Str) (service : MiningService) : MiningService :=
  match service.jobs.get? id with
  | none => service
  | some entry =>
      match entry.worker with
      | .announcingCancelled => service.setEntry id { entry with worker := .done }
      | .announcingEnd => service.setEntry id { entry with worker := .releasing }
      | _ => service

def workerReleases (id : Str) (service : MiningService) : MiningService :=
  service.withWorker id .releasing (fun entry =>
    if service.lockHolder = none then
      (service.setEntry id { entry with worker := .done }).freeSlot id
    else service)

/-- The thread ends, possibly by another exception.  It can only have seen the stop
event if that was set by now. -/
def threadEnds [Crypto] (id : Str) (stopped : Int -> Bool) (raised : Option Str)
    (service : MiningService) : MiningService :=
  match service.jobs.get? id with
  | none => service
  | some entry =>
      match entry.job.thread with
      | .running =>
          let outcome : Except Str (Option Block) :=
            match raised with
            | some text => .error text
            | none =>
                match mineBlockWithProgress entry.template 0 entry.maxNonce
                    (fun nonce => entry.job.stopEvent && stopped nonce) with
                | .ok mined => .ok mined
                | .error (.valueError message) => .error (str message)
                | .error _ => .error []
          service.setEntry id
            { entry with job := { entry.job with thread := .ended outcome } }
      | _ => service

/-!
## Cancelling jobs
-/

def markCancelled (id : Str) (service : MiningService) : MiningService :=
  match service.jobs.get? id with
  | none => service
  | some entry =>
      service.setEntry id { entry with job := { entry.job with status := .cancelled } }

def cancelCalled (call : Nat) (jobId : Str) (userId : Option Int) (isAdmin : Bool)
    (service : MiningService) : MiningService :=
  match service.cancels.get? call with
  | some _ => service
  | none =>
      match service.jobs.get? jobId with
      | none =>
          service.setCancel call (.raised (.api 404 (str "JOB_NOT_FOUND")
            (str "Mining job '" ++ jobId ++ str "' not found")))
      | some entry =>
          if userId.isSome = true ∧ userId ≠ some entry.job.userId ∧ isAdmin = false then
            service.setCancel call (.raised (.api 403 (str "FORBIDDEN")
              (str "Cannot cancel another user's mining job")))
          else if entry.job.status.busy = false then
            service.setCancel call (.returned jobId false)
          else
            let stopping := service.setEntry jobId
              { entry with job := { entry.job with stopEvent := true } }
            match entry.job.thread with
            | .running => stopping.setCancel call (.joining jobId)
            | _ => (markCancelled jobId stopping).setCancel call (.releasing jobId)

/-- The wait for the thread ends, in time or not. -/
def cancelJoined (call : Nat) (service : MiningService) : MiningService :=
  match service.cancels.get? call with
  | some (.joining jobId) =>
      (markCancelled jobId service).setCancel call (.releasing jobId)
  | _ => service

def cancelReleases (call : Nat) (service : MiningService) : MiningService :=
  match service.cancels.get? call, service.lockHolder with
  | some (.releasing jobId), none =>
      (service.freeSlot jobId).setCancel call (.announcing jobId)
  | _, _ => service

def cancelReturns (call : Nat) (service : MiningService) : MiningService :=
  match service.cancels.get? call with
  | some (.announcing jobId) => service.setCancel call (.returned jobId true)
  | _ => service

/-- The caller goes away, or its wait for the thread fails. -/
def cancelInterrupted (call : Nat) (service : MiningService) : MiningService :=
  match service.cancels.get? call with
  | some (.joining _) => service.setCancel call .interrupted
  | some (.releasing _) => service.setCancel call .interrupted
  | some (.announcing _) => service.setCancel call .interrupted
  | _ => service

/-!
## Turns
-/

inductive Turn where
  | createCalled (call : Nat) (request : CreateRequest)
  | createLocked (call : Nat)
  | createTemplate (call : Nat) (answer : Except Str Block)
  | createParent (call : Nat) (answer : Except Str (Option Nat)) (jobId : Str)
  | createInterrupted (call : Nat)
  | workerStarts (id : Str)
  | workerSpawns (id : Str) (started : Bool)
  | workerJoins (id : Str)
  | workerTimesOut (id : Str)
  | workerWaitFails (id : Str) (text : Str)
  | workerStopsWaiting (id : Str) (failed : Bool)
  | workerSubmits (id : Str)
  | workerAccepted (id : Str) (answer : Except Str Bool)
  | workerStatus (id : Str) (answer : Except Str Str)
  | workerAnnounced (id : Str)
  | workerReleases (id : Str)
  | threadEnds (id : Str) (stopped : Int -> Bool) (raised : Option Str)
  | cancelCalled (call : Nat) (jobId : Str) (userId : Option Int) (isAdmin : Bool)
  | cancelJoined (call : Nat)
  | cancelReleases (call : Nat)
  | cancelReturns (call : Nat)
  | cancelInterrupted (call : Nat)

def next [Crypto] : Turn -> MiningService -> MiningService
  | .createCalled call request => createCalled call request
  | .createLocked call => createLocked call
  | .createTemplate call answer => createTemplate call answer
  | .createParent call answer jobId => createParent call answer jobId
  | .createInterrupted call => createInterrupted call
  | .workerStarts id => workerStarts id
  | .workerSpawns id started => workerSpawns id started
  | .workerJoins id => workerJoins id
  | .workerTimesOut id => workerTimesOut id
  | .workerWaitFails id text => workerWaitFails id text
  | .workerStopsWaiting id failed => workerStopsWaiting id failed
  | .workerSubmits id => workerSubmits id
  | .workerAccepted id answer => workerAccepted id answer
  | .workerStatus id answer => workerStatus id answer
  | .workerAnnounced id => workerAnnounced id
  | .workerReleases id => workerReleases id
  | .threadEnds id stopped raised => threadEnds id stopped raised
  | .cancelCalled call jobId userId isAdmin => cancelCalled call jobId userId isAdmin
  | .cancelJoined call => cancelJoined call
  | .cancelReleases call => cancelReleases call
  | .cancelReturns call => cancelReturns call
  | .cancelInterrupted call => cancelInterrupted call

/-- The service; the tables of calls hold the answers. -/
def machine [Crypto] : Machine MiningService Turn Unit where
  step turn service := ((), next turn service)

end MiningService

end Api

end PyChain
