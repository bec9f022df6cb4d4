import PyChain.Blockchain.Blockchain
import PyChain.Foundation.Effect
import PyChain.Network.Peer
import PyChain.Network.PeerManager

/-!
# The state of a node

A node owns its chain, its sessions and its queue of events.  Its methods run
without interruption on one event loop, so each is a stateful computation; the
clock readings of one event agree, and random tokens come from a stream.
-/

namespace PyChain

open Foundation

namespace Network

inductive Lifecycle where
  | running
  | stopping
  | stopped
  | failed
deriving DecidableEq, Repr

inductive Request where
  | getStatus
  | getPeers
  | getBlocks (payload : GetBlocksPayload)
  | getMempool (payload : GetMempoolPayload)
deriving DecidableEq, Repr

namespace Request

def payload : Request -> Payload
  | getStatus => .getStatus
  | getPeers => .getPeers
  | getBlocks payload => .getBlocks payload
  | getMempool payload => .getMempool payload

def kind (request : Request) : MessageType :=
  request.payload.type

/-- The type of the answer, unless it is an error. -/
def response : Request -> MessageType
  | getStatus => .status
  | getPeers => .peers
  | getBlocks _ => .blocks
  | getMempool _ => .mempool

end Request

structure PendingRequest where
  request : Request
  deadline : Rat
deriving DecidableEq, Repr

inductive SyncState where
  | idle
  | blockSync
  | mempoolSync
  | diverged
deriving DecidableEq, Repr

inductive FailureCode where
  | remote (code : ErrorCode)
  | timeout
deriving DecidableEq, Repr

inductive SessionError where
  | failed (code : FailureCode)
  | noProgress
  | rejected (e : PyError)
deriving DecidableEq, Repr

structure Session where
  peer : PeerConnection
  ready : Option Bool
  created : Rat
  serviceBucket : TokenBucket
  endpoint : Option Endpoint
  dialEndpoint : Option Endpoint
  versionReceived : Bool
  ackReceived : Bool
  remoteHeight : Nat
  remoteTip : Str
  pending : Dict Str PendingRequest
  expired : Dict Str Rat
  nextStatus : Rat
  nextDiscovery : Rat
  nextMempool : Rat
  nextExport : Rat
  nextPing : Rat
  pingNonce : Option Str
  pingDeadline : Rat
  syncAfter : Rat
  syncState : SyncState
  error : Option SessionError
  rejectedAnchor : Option (Nat × Str)
deriving DecidableEq

namespace Session

def live (session : Session) : Bool :=
  session.peer.established && !session.peer.closed

def hasRequest (session : Session) (kind : MessageType) : Bool :=
  session.pending.values.any (fun pending => decide (pending.request.kind = kind))

end Session

structure ExportSnapshot where
  token : Str
  tip : Str
  items : List Bytes
  size : Nat
  cursor : Nat
  created : Rat
  touched : Rat
deriving DecidableEq, Repr

structure PendingDownload where
  tip : Str
  token : Option Str
  cursor : Nat
  size : Int
  count : Nat
deriving DecidableEq, Repr

/-- A download that has not asked for anything yet. -/
def PendingDownload.start (tip : Str) : PendingDownload :=
  { tip := tip, token := none, cursor := 0, size := 0, count := 0 }

structure SyncManager where
  exports : Dict Str ExportSnapshot
  downloads : Dict Str PendingDownload
  snapshotBytes : Int
  source : Option Str
deriving DecidableEq

def SyncManager.empty : SyncManager :=
  { exports := Dict.empty, downloads := Dict.empty, snapshotBytes := 0, source := none }

/-- The commands of local callers.  Commands that only read the chain are given
by what they read. -/
inductive Command where
  | submit (transaction : Transaction)
  | block (block : Block)
  | read (query : Blockchain -> Except PyError Unit)

inductive EventKind where
  | tick
  | remote (connectionId : Str) (packet : Packet)
  | command (command : Command)

/-- An event of the dispatcher's queue with its reservation. -/
structure Event where
  kind : EventKind
  size : Nat

structure Counters where
  transactionsAccepted : Nat
  blocksAccepted : Nat
  messagesReceived : Nat
  messagesEnqueued : Nat
deriving DecidableEq, Repr

/-- The random choices of a node, in the order in which they are drawn. -/
structure Entropy where
  token : Nat -> Str
  jitter : Nat -> Rat
  token_valid : forall n, isToken (token n) = true

/-- The clocks during one event: the monotonic clock and the wall clock. -/
structure Env where
  now : Rat
  wallClock : Nat

structure Node (disk : Type) where
  config : NodeConfig
  nodeId : Str
  endpoint : Endpoint
  lifecycle : Lifecycle
  failure : Option PyError
  chain : Blockchain
  disk : disk
  sessions : Dict Str Session
  events : List Event
  inboundEvents : Int
  inboundBytes : Int
  closedPeers : List Str
  dialTasks : List Endpoint
  manager : PeerManager
  sync : SyncManager
  tickQueued : Bool
  counters : Counters
  entropy : Entropy
  drawn : Nat

abbrev NodeM (disk : Type) := EStateM PyError (Node disk)

namespace Node

variable {disk : Type}

/-- Use the outcome of a function that may raise. -/
def lift {alpha : Type} (x : Except PyError alpha) : NodeM disk alpha :=
  match x with
  | .ok a => pure a
  | .error e => throw e

/-- A session the caller knows to be there. -/
def session (id : Str) : NodeM disk Session := do
  let node <- get
  match node.sessions.get? id with
  | some session => return session
  | none => throw .keyError

def modifySession (id : Str) (f : Session -> Session) : NodeM disk Unit :=
  modify (fun node => { node with sessions := node.sessions.modify id f })

def modifyPeer (id : Str) (f : PeerConnection -> PeerConnection) : NodeM disk Unit :=
  modifySession id (fun session => { session with peer := f session.peer })

def modifySync (f : SyncManager -> SyncManager) : NodeM disk Unit :=
  modify (fun node => { node with sync := f node.sync })

def modifyCounters (f : Counters -> Counters) : NodeM disk Unit :=
  modify (fun node => { node with counters := f node.counters })

def drawToken : NodeM disk Str := do
  let node <- get
  set { node with drawn := node.drawn + 1 }
  return node.entropy.token node.drawn

def drawJitter : NodeM disk Rat := do
  let node <- get
  set { node with drawn := node.drawn + 1 }
  return node.entropy.jitter node.drawn

/-!
## Reservations
-/

def reserve (size : Nat) : NodeM disk Bool := do
  let node <- get
  if node.lifecycle ≠ .running ∨ (node.config.inboundMaxEvents : Int) ≤ node.inboundEvents ∨
      (node.config.inboundMaxBytes : Int) < node.inboundBytes + size then
    return false
  else
    set { node with
      inboundEvents := node.inboundEvents + 1
      inboundBytes := node.inboundBytes + size }
    return true

def release (size : Nat) : NodeM disk Unit := do
  modify (fun node =>
    { node with
      inboundEvents := node.inboundEvents - 1
      inboundBytes := node.inboundBytes - size })
  let node <- get
  if node.inboundEvents < 0 ∨ node.inboundBytes < 0 then
    throw (.runtimeError "Node inbound reservation accounting underflow")

/-- Put an event in the dispatcher's bounded queue. -/
def enqueue (event : Event) : NodeM disk Unit := do
  let node <- get
  if node.config.inboundMaxEvents ≤ node.events.length then
    throw (.runtimeError "QueueFull")
  else set { node with events := node.events ++ [event] }

/-!
## Messages
-/

def isPolicyLimit : PyError -> Bool
  | .networkError .policyLimit _ => true
  | _ => false

/-- Run a step whose policy errors are only logged. -/
def loggingPolicyLimit (act : NodeM disk Unit) : NodeM disk Unit :=
  tryCatch act (fun e => if isPolicyLimit e then pure () else throw e)

def send (id : Str) (packet : Packet) : NodeM disk Bool := do
  let node <- get
  let session <- session id
  if node.lifecycle ≠ .running ∨ session.peer.closed then return false
  else
    let outcome <- lift (session.peer.send node.config packet)
    modifyPeer id (fun _ => outcome.2)
    if outcome.1 then
      modifyCounters (fun counters =>
        { counters with messagesEnqueued := counters.messagesEnqueued + 1 })
    return outcome.1

def broadcastTo (packet : Packet) (source : Option Str) (id : Str) : NodeM disk Unit := do
  let session <- session id
  if some id ≠ source ∧ session.peer.established then
    loggingPolicyLimit (discard (send id packet))

def broadcast (packet : Packet) (source : Option Str) : NodeM disk Unit := do
  let node <- get
  node.sessions.keys.forM (broadcastTo packet source)

def sendError (id : Str) (requestId : Option Str) (code : ErrorCode) : NodeM disk Unit :=
  discard (send id { payload := .error code code.text, requestId := requestId })

/-- Send a request, unless the session already has one of its kind. -/
def request (env : Env) (id : Str) (request : Request) : NodeM disk (Option Str) := do
  let node <- get
  let session <- session id
  if session.peer.established = false ∨ session.peer.closed = true ∨
      node.config.maxRequests ≤ session.pending.size ∨
      session.hasRequest request.kind = true then
    return none
  else
    let requestId <- drawToken
    if <- send id { payload := request.payload, requestId := some requestId } then
      modifySession id (fun session =>
        { session with
          pending := session.pending.set requestId
            { request := request, deadline := env.now + node.config.requestTimeout } })
      return some requestId
    else return none

/-- Remember an answered request for a minute; at most 64 are remembered. -/
def expire (env : Env) (id requestId : Str) : NodeM disk Unit :=
  modifySession id (fun session =>
    { session with expired := (session.expired.set requestId (env.now + 60)).keepLast 64 })

/-- Mark a connection closed; its closing task runs later. -/
def closePeer (id : Str) : NodeM disk Unit :=
  modifyPeer id (fun peer => { peer with closed := true })

def fatal (e : PyError) : NodeM disk Unit :=
  modify (fun node =>
    if node.lifecycle = .running then
      { node with failure := some e, lifecycle := .failed }
    else node)

section Chain

variable [Crypto] (store : Option (ChainStore disk))

/-- Height and hash of the last block. -/
def tip : NodeM disk (Nat × Str) := do
  let node <- get
  let height <- lift node.chain.height
  let latest <- lift node.chain.getLatestBlock
  return (height.toNat, latest.hash)

def statusPayload : NodeM disk StatusPayload := do
  let tip <- tip
  return { height := tip.1, tipHash := tip.2 }

/-- Run a mutating call of the chain. -/
def performCall (call : Blockchain.Call) : NodeM disk Bool := do
  let node <- get
  let outcome := Blockchain.perform store call node.chain node.disk
  set { node with chain := outcome.2.1, disk := outcome.2.2 }
  lift outcome.1

end Chain

end Node

end Network

end PyChain
