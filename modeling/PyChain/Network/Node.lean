import PyChain.Network.Sync

/-!
# The node

Handshakes, remote messages, timers and the dispatcher.  A node is a machine
whose events are what its event loop runs without interruption: a turn of a
reader, of a writer, of a closing task, of a dial, of a local caller, of the
timer or of the dispatcher.
-/

namespace PyChain

open Foundation

namespace Network

/-- The rank of a connection: its initiator, then the two nonces in order. -/
structure Rank where
  initiator : Str
  first : Str
  second : Str
deriving DecidableEq, Repr

def Rank.lt (a b : Rank) : Bool :=
  decide (a.initiator < b.initiator) ||
    (decide (a.initiator = b.initiator) &&
      (decide (a.first < b.first) ||
        (decide (a.first = b.first) && decide (a.second < b.second))))

namespace Node

variable {disk : Type}

/-!
## Handshakes
-/

/-- The rank both ends give to a connection; the remote parts are missing before
the other end has introduced itself. -/
def connectionRank (nodeId : Str) (session : Session) : Except PyError Rank :=
  match session.peer.nodeId, session.peer.remoteNonce with
  | some remoteId, some remoteNonce =>
      let initiator := if session.peer.outbound then nodeId else remoteId
      let nonce := session.peer.connectionNonce
      if remoteNonce < nonce then
        .ok { initiator := initiator, first := remoteNonce, second := nonce }
      else .ok { initiator := initiator, first := nonce, second := remoteNonce }
  | _, _ =>
      .error (.typeError "'<' not supported between instances of 'NoneType' and 'str'")

/-- The first session of the smallest rank. -/
def minRank (nodeId : Str) : List (Str × Session) -> Except PyError (Option (Str × Rank))
  | [] => .ok none
  | (id, session) :: rest => do
      let rank <- connectionRank nodeId session
      match <- minRank nodeId rest with
      | none => return some (id, rank)
      | some (other, otherRank) =>
          if Rank.lt otherRank rank then return some (other, otherRank)
          else return some (id, rank)

/-- Other introduced connections to the same node. -/
def isDuplicate (id : Str) (session : Session) (item : Str × Session) : Bool :=
  decide (item.1 ≠ id) && decide (item.2.peer.nodeId = session.peer.nodeId) &&
    item.2.versionReceived && !item.2.peer.closed

section Chain

variable [Crypto] (store : Option (ChainStore disk)) (env : Env)

omit [Crypto] in
def markConnected (endpoint : Endpoint) : NodeM disk Unit := do
  let node <- get
  let marked <- lift (node.manager.markConnected node.config env.now endpoint)
  modify (fun node => { node with manager := marked.2 })

omit [Crypto] in
/-- Keep the smallest rank among the connections to one node, and establish this
connection if it is the one. -/
def resolveDuplicates (id : Str) : NodeM disk Unit := do
  let node <- get
  let session <- session id
  let duplicates := node.sessions.items.filter (isDuplicate id session)
  match <- lift (minRank node.nodeId ((id, session) :: duplicates)) with
  | none => pure ()
  | some (winner, _) =>
      ((id :: duplicates.map Prod.fst).filter (fun other => other ≠ winner)).forM closePeer
      if winner = id then
        modifyPeer id (fun peer => { peer with established := true })
        match session.endpoint with
        | none => throw (.typeError "'NoneType' object is not subscriptable")
        | some endpoint => markConnected env endpoint
        modifySession id (fun session =>
          { session with ready := some (session.ready.getD true) })

omit [Crypto] in
/-- The checks of a VERSION message; the endpoint it introduces. -/
def checkVersion (node : Node disk) (session : Session) (payload : VersionPayload) :
    Except PyError Endpoint := do
  require (session.versionReceived = false) (protocolError "Repeated VERSION")
  require (payload.networkId = NETWORK_ID ∧ payload.genesisHash = GENESIS_HASH)
    (protocolError "Wrong network/genesis")
  require (payload.nodeId ≠ node.nodeId) (protocolError "Self connection")
  require (payload.height = 0 -> payload.tipHash = GENESIS_HASH)
    (protocolError "Invalid genesis tip")
  let endpoint <- node.config.validateEndpoint session.peer.endpoint.host payload.listenPort
  require (session.peer.outbound = true -> session.dialEndpoint = some endpoint)
    (protocolError "Outbound peer advertises a different listen endpoint")
  return endpoint

/-- The message of a handshake, before duplicates are resolved. -/
def introduce (id : Str) (payload : Payload) : NodeM disk Unit := do
  match payload with
  | .version payload =>
      let node <- get
      let session <- session id
      let endpoint <- lift (checkVersion node session payload)
      modifySession id (fun session =>
        { session with
          endpoint := some endpoint
          peer :=
            { session.peer with
              nodeId := some payload.nodeId
              remoteNonce := some payload.connectionNonce }
          remoteHeight := payload.height
          remoteTip := payload.tipHash
          versionReceived := true })
      discard (send id { payload := .verack, requestId := none })
  | .verack =>
      let session <- session id
      if session.versionReceived = false ∨ session.ackReceived = true then
        throw (protocolError "Unexpected VERACK")
      else modifySession id (fun session => { session with ackReceived := true })
  | _ => throw (protocolError "Application message before handshake")

def handshake (id : Str) (payload : Payload) : NodeM disk Unit := do
  introduce id payload
  let session <- session id
  if session.versionReceived = true ∧ session.ackReceived = true ∧
      session.peer.closed = false then
    resolveDuplicates env id

/-!
## Remote messages
-/

/-- Take a token of a session's service budget. -/
def consumeService (id : Str) : NodeM disk Bool := do
  let session <- session id
  let taken := session.serviceBucket.consume env.now 1
  modifySession id (fun session => { session with serviceBucket := taken.2 })
  return taken.1

def servePeers (id : Str) (requestId : Option Str) : NodeM disk Unit := do
  modify (fun node => { node with manager := node.manager.expire node.config env.now })
  let node <- get
  let session <- session id
  let endpoints := (node.manager.knownEndpoints.filter
    (fun endpoint => endpoint ≠ node.endpoint ∧ some endpoint ≠ session.endpoint)).take 32
  discard (send id { payload := .peers endpoints, requestId := requestId })

/-- Match a response with the request it answers.  Nothing is left to do for the
answer to an expired request. -/
def correlate (id requestId : Str) (kind : MessageType) : NodeM disk (Option Request) := do
  let session <- session id
  match session.pending.get? requestId with
  | none =>
      if session.expired.contains requestId then return none
      else throw (protocolError "Unsolicited response ID")
  | some pending =>
      modifySession id (fun session =>
        { session with pending := session.pending.erase requestId })
      expire env id requestId
      if kind ≠ pending.request.response ∧ kind ≠ .error then
        throw (protocolError "Response type does not match request")
      else return some pending.request

/-- A status report, solicited or not. -/
def receiveStatus (id : Str) (solicited : Bool) (payload : StatusPayload) :
    NodeM disk Unit := do
  if payload.height = 0 ∧ payload.tipHash ≠ GENESIS_HASH then
    throw (protocolError "Invalid genesis status")
  else
    modifySession id (fun session =>
      { session with remoteHeight := payload.height, remoteTip := payload.tipHash })
    let session <- session id
    match session.rejectedAnchor with
    | none => pure ()
    | some anchor =>
        if solicited then
          let current <- tip
          modifySession id (fun session =>
            if current = anchor ∧ anchor.1 ≤ session.remoteHeight then
              { session with
                syncState := .diverged
                error := some (.failed (.remote .forkUnsupported))
                rejectedAnchor := none }
            else { session with rejectedAnchor := none })

/-- Add an advertised endpoint; invalid ones are skipped. -/
def learnEndpoint (endpoint : Endpoint) : NodeM disk Unit :=
  modify (fun node =>
    match node.manager.addCandidate node.config env.now endpoint false with
    | .ok added => { node with manager := added.2 }
    | .error _ => node)

/-- A message that answers no request of the node. -/
def receiveAnnouncement (id : Str) (payload : Payload) : NodeM disk Unit := do
  match payload with
  | .error _ _ => pure ()
  | .status payload => receiveStatus id false payload
  | .newTransaction encoded =>
      let node <- get
      let transaction <- lift (unpackTransaction encoded node.config.maxItemBytes)
      discard (submitTransaction store transaction (some id))
  | .newBlock encoded =>
      let node <- get
      let block <- lift (unpackBlock encoded node.config.maxItemBytes)
      discard (acceptBlock store env block (some id))
  | _ => throw (protocolError "Unexpected message")

def receiveResponse (id : Str) (request : Request) (payload : Payload) :
    NodeM disk Unit := do
  match request, payload with
  | _, .error code _ => failedRequest env id request (.remote code)
  | _, .status payload => receiveStatus id true payload
  | _, .peers endpoints => endpoints.forM (learnEndpoint env)
  | .getBlocks expected, .blocks payload => receiveBlocks store env id expected payload
  | .getMempool expected, .mempool payload => receiveMempool store env id expected payload
  | _, _ => throw (protocolError "Unexpected message")

def remote (id : Str) (packet : Packet) : NodeM disk Unit := do
  modifyCounters (fun counters =>
    { counters with messagesReceived := counters.messagesReceived + 1 })
  let session <- session id
  if session.peer.established = false then handshake env id packet.payload
  else
    match packet.payload with
    | .version _ => throw (protocolError "Repeated handshake")
    | .verack => throw (protocolError "Repeated handshake")
    | .ping nonce => discard (send id { payload := .pong nonce, requestId := none })
    | .pong nonce =>
        if session.pingNonce ≠ some nonce then
          throw (protocolError "PONG does not match outstanding nonce")
        else modifySession id (fun session => { session with pingNonce := none })
    | .getStatus =>
        let status <- statusPayload
        discard (send id { payload := .status status, requestId := packet.requestId })
    | .getPeers => servePeers env id packet.requestId
    | .getBlocks payload =>
        if <- consumeService env id then serveBlocks id payload packet.requestId
        else sendError id packet.requestId .busy
    | .getMempool payload =>
        if <- consumeService env id then serveMempool env id payload packet.requestId
        else sendError id packet.requestId .busy
    | payload =>
        match packet.requestId with
        | none => receiveAnnouncement store env id payload
        | some requestId =>
            match <- correlate env id requestId payload.type with
            | none => pure ()
            | some request => receiveResponse store env id request payload

/-!
## Timers
-/

/-- Fail a request whose deadline has passed. -/
def timeoutRequest (id : Str) (item : Str × PendingRequest) : NodeM disk Unit := do
  if item.2.deadline ≤ env.now then
    modifySession id (fun session => { session with pending := session.pending.erase item.1 })
    expire env id item.1
    failedRequest env id item.2.request .timeout

/-- Keep a live session alive: ping, status and discovery. -/
def maintain (id : Str) : NodeM disk Unit := do
  let node <- get
  let session <- session id
  if session.pingNonce.isSome ∧ session.pingDeadline ≤ env.now then closePeer id
  else
    if session.pingNonce = none ∧ session.nextPing ≤ env.now then
      let nonce <- drawToken
      modifySession id (fun session =>
        { session with
          pingNonce := some nonce
          pingDeadline := env.now + node.config.pongTimeout
          nextPing := env.now + node.config.pingInterval })
      discard (send id { payload := .ping nonce, requestId := none })
    if session.nextStatus ≤ env.now then
      discard (request env id .getStatus)
      modifySession id (fun session =>
        { session with nextStatus := env.now + node.config.statusInterval })
    if session.nextDiscovery ≤ env.now then
      discard (request env id .getPeers)
      modifySession id (fun session =>
        { session with nextDiscovery := env.now + node.config.discoveryInterval })

def tickSession (id : Str) : NodeM disk Unit := do
  let node <- get
  let session <- session id
  if session.peer.closed then return ()
  else if session.peer.established = false then
    if node.config.handshakeTimeout ≤ env.now - session.created then closePeer id
  else
    session.pending.items.forM (timeoutRequest env id)
    modifySession id (fun session =>
      { session with
        expired := session.expired.filter (fun item => decide (env.now < item.2)) })
    maintain env id

omit [Crypto] in
/-- Sessions and dials that occupy a peer slot. -/
def occupiedSlots (node : Node disk) : Nat :=
  node.sessions.size +
    (node.dialTasks.filter (fun endpoint =>
      node.sessions.values.all (fun session => session.dialEndpoint ≠ some endpoint))).length

omit [Crypto] in
/-- Start dialling a due candidate; false when the slots are full. -/
def dialCandidate (endpoint : Endpoint) : NodeM disk Bool := do
  let node <- get
  if endpoint = node.endpoint ∨ endpoint ∈ node.dialTasks ∨
      node.sessions.values.any (fun session =>
        decide (session.endpoint = some endpoint) && !session.peer.closed) = true then
    return true
  else if node.config.maxPeers ≤ occupiedSlots node ∨
      node.config.maxConcurrentDials ≤ node.dialTasks.length then
    return false
  else
    let jitter <- drawJitter
    let node <- get
    let marked <- lift (node.manager.markAttempt node.config env.now jitter endpoint)
    set { node with manager := marked.2, dialTasks := node.dialTasks ++ [endpoint] }
    return true

omit [Crypto] in
def dialDue : List Endpoint -> NodeM disk Unit
  | [] => pure ()
  | endpoint :: rest => do
      if <- dialCandidate env endpoint then dialDue rest

def tick : NodeM disk Unit := do
  let node <- get
  node.sessions.keys.forM (tickSession env)
  syncTick env
  modify (fun node => { node with manager := node.manager.expire node.config env.now })
  let node <- get
  dialDue env (node.manager.dueCandidates env.now)

/-!
## The dispatcher
-/

omit [Crypto] in
/-- Forget a connection whose socket is closed. -/
def reapPeer (id : Str) : NodeM disk Unit := do
  let node <- get
  set { node with
    closedPeers := node.closedPeers.erase id
    sessions := node.sessions.erase id }
  match node.sessions.get? id with
  | none => pure ()
  | some session =>
      syncDisconnected id
      match session.endpoint with
      | none => pure ()
      | some endpoint =>
          let node <- get
          if node.sessions.values.any (fun other =>
              decide (other.endpoint = some endpoint) && other.live) = false then
            let jitter <- drawJitter
            let node <- get
            let manager <- lift
              (node.manager.markDisconnected node.config env.now jitter endpoint)
            set { node with manager := manager }

omit [Crypto] in
def reapPeers : NodeM disk Unit := do
  let node <- get
  node.closedPeers.forM (reapPeer env)

def runCommand (command : Command) : NodeM disk (Option Bool) := do
  match command with
  | .submit transaction => some <$> submitTransaction store transaction none
  | .block block => some <$> acceptBlock store env block none
  | .read query =>
      let node <- get
      lift (query node.chain)
      return none

/-- Errors for which the dispatcher only drops the peer. -/
def rejectsPeer : PyError -> Bool
  | .networkError .protocol _ => true
  | .networkError .policyLimit _ => true
  | .valueError _ => true
  | _ => false

/-- Errors that are handed to the caller of a command. -/
def answersCaller : PyError -> Bool
  | .typeError _ => true
  | .valueError _ => true
  | .networkError _ _ => true
  | _ => false

/-- A message of a session that is still open; a rejected peer is closed. -/
def handleRemote (id : Str) (packet : Packet) : NodeM disk Unit := do
  let node <- get
  match node.sessions.get? id with
  | none => pure ()
  | some session =>
      if session.peer.closed then pure ()
      else
        tryCatch (remote store env id packet) (fun e =>
          if rejectsPeer e then do
            modifySession id (fun session => { session with error := some (.rejected e) })
            closePeer id
          else throw e)

/-- The answer of one event to its local caller, if it has one. -/
abbrev Answer := Option (Except PyError (Option Bool))

def handleEvent (kind : EventKind) : NodeM disk Answer := do
  match kind with
  | .tick =>
      modify (fun node => { node with tickQueued := false })
      tick env
      return none
  | .remote id packet =>
      handleRemote store env id packet
      return none
  | .command command =>
      tryCatch (do
        let answer <- runCommand store env command
        return some (.ok answer)) (fun e =>
          if answersCaller e then return some (.error e) else throw e)

/-- One turn of the dispatcher; the caller of the event may have been cancelled. -/
def dispatch (cancelled : Bool) : NodeM disk Answer := do
  let node <- get
  if node.lifecycle ≠ .running then return none
  else
    match node.events with
    | [] => return none
    | event :: rest =>
        set { node with events := rest }
        let answer <- tryCatch (do
            reapPeers env
            if cancelled then return none else handleEvent store env event.kind)
          (fun e => do
            fatal e
            return some (.error e))
        release event.size
        return answer

/-!
## Connections
-/

omit [Crypto] in
def newSession (config : NodeConfig) (peer : PeerConnection) (dialEndpoint : Option Endpoint)
    (now : Rat) : Session :=
  { peer := peer
    ready := none
    created := now
    serviceBucket := TokenBucket.create config.serviceRate config.serviceBurst now
    endpoint := dialEndpoint
    dialEndpoint := dialEndpoint
    versionReceived := false
    ackReceived := false
    remoteHeight := 0
    remoteTip := GENESIS_HASH
    pending := Dict.empty
    expired := Dict.empty
    nextStatus := 0
    nextDiscovery := 0
    nextMempool := 0
    nextExport := 0
    nextPing := now + config.pingInterval
    pingNonce := none
    pingDeadline := 0
    syncAfter := 0
    syncState := .idle
    error := none
    rejectedAnchor := none }

/-- A new connection introduces its node. -/
def attach (remote : Endpoint) (dialEndpoint : Option Endpoint) : NodeM disk Str := do
  let connectionId <- drawToken
  let connectionNonce <- drawToken
  let node <- get
  let peer := PeerConnection.create node.config connectionId connectionNonce
    dialEndpoint.isSome remote env.now
  set { node with
    sessions := node.sessions.set connectionId
      (newSession node.config peer dialEndpoint env.now) }
  let current <- tip
  discard (send connectionId
    { payload := .version
        { networkId := NETWORK_ID
          genesisHash := GENESIS_HASH
          nodeId := node.nodeId
          connectionNonce := connectionNonce
          listenPort := node.endpoint.port
          height := current.1
          tipHash := current.2 }
      requestId := none })
  return connectionId

/-- A socket accepted by the listener. -/
def acceptedSocket (remote : Endpoint) : NodeM disk Unit := do
  let node <- get
  if node.lifecycle ≠ .running ∨ node.config.maxPeers ≤ occupiedSlots node then return ()
  else
    match node.config.validateHost remote.host with
    | .error _ => return ()
    | .ok _ => tryCatch (discard (attach env remote none)) fatal

omit [Crypto] in
/-- A local call to connect to an endpoint. -/
def connect (endpoint : Endpoint) : NodeM disk Unit := do
  let node <- get
  if node.lifecycle ≠ .running then
    throw (.networkError .nodeClosed "Node is not running")
  else
    let endpoint <- lift (node.config.validateEndpoint endpoint.host endpoint.port)
    if endpoint = node.endpoint then
      throw (.networkError .peerDisconnected "Cannot connect a node to itself")
    else if endpoint ∈ node.dialTasks ∨
        node.sessions.values.any (fun session =>
          decide (session.endpoint = some endpoint) && !session.peer.closed) = true then
      return ()
    else if node.config.maxPeers ≤ occupiedSlots node ∨
        node.config.maxConcurrentDials ≤ node.dialTasks.length then
      throw (.networkError .nodeBusy "Peer or concurrent dial slots are full")
    else
      let added <- lift (node.manager.addCandidate node.config env.now endpoint false)
      let jitter <- drawJitter
      let marked <- lift (added.2.markAttempt node.config env.now jitter endpoint)
      modify (fun node =>
        { node with manager := marked.2, dialTasks := node.dialTasks ++ [endpoint] })

/-- The socket of a dial is open. -/
def dialled (endpoint remote : Endpoint) : NodeM disk Unit := do
  let node <- get
  if node.lifecycle = .running ∧ endpoint ∈ node.dialTasks then
    discard (attach env remote (some endpoint))

omit [Crypto] in
/-- A dial has failed; its connection, if it has one, is closed. -/
def dialFailed (endpoint : Endpoint) : NodeM disk Unit := do
  let jitter <- drawJitter
  let node <- get
  let manager <- lift (node.manager.markDisconnected node.config env.now jitter endpoint)
  set { node with
    manager := manager
    dialTasks := node.dialTasks.erase endpoint
    sessions := node.sessions.mapValues (fun session =>
      if session.dialEndpoint = some endpoint then
        { session with peer := session.peer.beginClose }
      else session) }

/-!
## Readers, writers and closing tasks
-/

omit [Crypto] in
/-- A reader stops: a broken stream or a protocol error closes the connection,
anything else is remembered as unexpected. -/
def stopReader (id : Str) (e : PyError) : NodeM disk Unit :=
  modifyPeer id (fun peer =>
    { peer with
      unexpectedError :=
        match e with
        | .networkError .protocol _ => peer.unexpectedError
        | .osError => peer.unexpectedError
        | _ => some e }.beginClose)

omit [Crypto] in
/-- Give back what the reader holds. -/
def releaseReading (id : Str) : NodeM disk Unit := do
  let session <- session id
  match session.peer.reading with
  | none => pure ()
  | some size =>
      modifyPeer id (fun peer => { peer with reading := none })
      release size

omit [Crypto] in
/-- A reader has the prefix of a frame. -/
def readPrefix (id : Str) (a b c d : UInt8) : NodeM disk Unit := do
  let node <- get
  match node.sessions.get? id with
  | none => pure ()
  | some session =>
      if session.peer.closed ∨ session.peer.reading.isSome then pure ()
      else
        tryCatch (do
          let size <- lift (frameSize node.config.maxFrameBytes a b c d)
          let message := session.peer.messageBucket.consume env.now 1
          let bytes := session.peer.byteBucket.consume env.now (size + 4)
          modifyPeer id (fun peer =>
            { peer with
              messageBucket := message.2
              byteBucket := if message.1 then bytes.2 else peer.byteBucket })
          if message.1 = false ∨ bytes.1 = false then
            throw (protocolError "incoming rate limit")
          else if <- reserve (size + 4) then
            modifyPeer id (fun peer => { peer with reading := some (size + 4) })
          else modifyPeer id PeerConnection.beginClose) (stopReader id)

omit [Crypto] in
/-- A reader has the body of a frame, of the size its prefix announced. -/
def readBody (id : Str) (body : Bytes) : NodeM disk Unit := do
  let node <- get
  match node.sessions.get? id with
  | none => pure ()
  | some session =>
      match session.peer.reading with
      | none => pure ()
      | some size =>
          if body.length + 4 ≠ size then pure ()
          else
            tryCatch (do
              let taken <- tryCatch (do
                  let packet <- lift (decodeReceived body node.config.maxFrameBytes)
                  if node.lifecycle ≠ .running then return false
                  else
                    enqueue { kind := .remote id packet, size := size }
                    return true)
                (fun e => do
                  releaseReading id
                  throw e)
              if taken then modifyPeer id (fun peer => { peer with reading := none })
              else releaseReading id) (stopReader id)

omit [Crypto] in
/-- The stream of a connection has ended, or its reader has timed out. -/
def readStopped (id : Str) : NodeM disk Unit := do
  let node <- get
  match node.sessions.get? id with
  | none => pure ()
  | some _ =>
      tryCatch (do
        releaseReading id
        throw .osError) (stopReader id)

omit [Crypto] in
/-- The writer has written its oldest frame. -/
def wrote (id : Str) : NodeM disk Unit :=
  modifyPeer id (fun peer => { peer with queue := peer.queue.tail })

omit [Crypto] in
/-- The writer has failed, or the closing task of a rejected connection starts. -/
def startClosing (id : Str) : NodeM disk Unit :=
  modifyPeer id PeerConnection.beginClose

omit [Crypto] in
/-- The closing task is done: the reader has given back its reservation, the
queue is drained and the owner is told. -/
def cleanedUp (id : Str) : NodeM disk Unit := do
  let node <- get
  match node.sessions.get? id with
  | none => pure ()
  | some session =>
      if session.peer.closing = false then pure ()
      else
        releaseReading id
        modifySession id (fun session =>
          { session with
            ready := some (session.ready.getD false)
            peer := { session.peer with queue := [] } })
        modify (fun node =>
          if id ∈ node.closedPeers then node
          else { node with closedPeers := node.closedPeers ++ [id] })
        match session.peer.unexpectedError with
        | none => pure ()
        | some e => fatal e

/-!
## Local callers, the timer and stopping
-/

omit [Crypto] in
/-- The reservation of a command; none when its item cannot be encoded. -/
def callSize : Command -> Option Nat
  | .submit transaction =>
      match Codec.encodeTransaction transaction with
      | .ok data => some (data.length + 4)
      | .error _ => none
  | .block block =>
      match Codec.encodeBlock block with
      | .ok data => some (data.length + 4)
      | .error _ => none
  | .read _ => some 1

omit [Crypto] in
/-- A local call puts its command in the queue, unless its item is rejected. -/
def call (command : Command) : NodeM disk Unit := do
  let node <- get
  if node.lifecycle ≠ .running then
    throw (.networkError .nodeClosed "Node is not running")
  else
    match callSize command with
    | none => return ()
    | some size =>
        if <- reserve size then
          tryCatch (enqueue { kind := .command command, size := size }) (fun e => do
            release size
            throw e)
        else throw (.networkError .nodeBusy "Node inbound command budget is full")

omit [Crypto] in
/-- The timer queues one tick at a time. -/
def timer : NodeM disk Unit := do
  let node <- get
  if node.lifecycle = .running ∧ node.tickQueued = false then
    tryCatch (do
      if <- reserve 1 then
        modify (fun node => { node with tickQueued := true })
        enqueue { kind := .tick, size := 1 }) fatal

omit [Crypto] in
def stop : NodeM disk Unit :=
  modify (fun node =>
    if node.lifecycle = .running then { node with lifecycle := .stopping } else node)

end Chain

end Node

/-- What the event loop of a node may run next. -/
inductive NodeEvent where
  | acceptedSocket (remote : Endpoint)
  | connect (endpoint : Endpoint)
  | dialled (endpoint remote : Endpoint)
  | dialFailed (endpoint : Endpoint)
  | dialDone (endpoint : Endpoint)
  | readPrefix (id : Str) (a b c d : UInt8)
  | readBody (id : Str) (body : Bytes)
  | readStopped (id : Str)
  | wrote (id : Str)
  | startClosing (id : Str)
  | cleanedUp (id : Str)
  | call (command : Command)
  | timer
  | dispatch (cancelled : Bool)
  | stop

namespace Node

variable [Crypto] {disk : Type} (store : Option (ChainStore disk))

/-- One event; its answer is for a local caller. -/
def handle (env : Env) (event : NodeEvent) : NodeM disk Answer :=
  match event with
  | .acceptedSocket remote => do
      acceptedSocket env remote
      return none
  | .connect endpoint => do
      connect env endpoint
      return none
  | .dialled endpoint remote => do
      dialled env endpoint remote
      return none
  | .dialFailed endpoint => do
      dialFailed env endpoint
      return none
  | .dialDone endpoint => do
      modify (fun node => { node with dialTasks := node.dialTasks.erase endpoint })
      return none
  | .readPrefix id a b c d => do
      readPrefix env id a b c d
      return none
  | .readBody id body => do
      readBody id body
      return none
  | .readStopped id => do
      readStopped id
      return none
  | .wrote id => do
      wrote id
      return none
  | .startClosing id => do
      startClosing id
      return none
  | .cleanedUp id => do
      cleanedUp id
      return none
  | .call command => do
      call command
      return none
  | .timer => do
      timer
      return none
  | .dispatch cancelled => dispatch store env cancelled
  | .stop => do
      stop
      return none

/-- A node as a machine: an exception that leaves an event goes to the task that
ran it. -/
def machine : Machine (Node disk) (Env × NodeEvent) (Except PyError Answer) where
  step call node :=
    match handle store call.1 call.2 node with
    | .ok answer node' => (.ok answer, node')
    | .error e node' => (.error e, node')

end Node

end Network

end PyChain
