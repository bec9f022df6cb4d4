import PyChain.Network.Node

/-!
# The tasks of a node

A node runs its startup, its readers and their closing tasks, local callers, a
timer, a dispatcher and a supervisor on one event loop.  A turn is what one of
them runs between two places where it waits; the environment decides who goes
on, what arrives and how a handler ends.  Connection ids do not repeat.
-/

namespace PyChain

open Foundation

namespace Network

inductive NodeState where
  | created
  | starting
  | running
  | stopping
  | stopped
  | failed
deriving DecidableEq, Repr

inductive StartTask where
  | absent
  | opening
  | serving
  | done
deriving DecidableEq, Repr

inductive ReaderTask where
  | absent
  /-- About to look whether its connection is closed. -/
  | resting
  | awaitingPrefix
  /-- Awaiting a body, with the wire size it has reserved. -/
  | awaitingBody (ownedSize : Nat)
  | done
deriving DecidableEq, Repr

inductive CloseTask where
  | absent
  | scheduled
  /-- Waiting for the reader and the writer to end. -/
  | joining
  | waitingClosed
  | done
deriving DecidableEq, Repr

structure Connection where
  /-- Whether the session is in the table of its node. -/
  attached : Bool
  closed : Bool
  reader : ReaderTask
  closeTask : CloseTask
  /-- Whether the id waits for the dispatcher to remove the session. -/
  reported : Bool
  unexpectedError : Option PyError
  messageBucket : TokenBucket
  byteBucket : TokenBucket

inductive DispatcherTask where
  | absent
  /-- About to look at the state of the node. -/
  | looping
  | awaitingEvent
  | handling (event : Event)
  | done

inductive MaintenanceTask where
  | absent
  | looping
  | done
deriving DecidableEq, Repr

inductive CleanupTask where
  | absent
  | scheduled
  /-- Waiting for the cancelled tasks. -/
  | joining
  | closingPeers
  | waitingClosed
  | done
  /-- Ended by an exception. -/
  | raised
deriving DecidableEq, Repr

structure EventLoop where
  config : NodeConfig
  state : NodeState
  inboundEvents : Int
  inboundBytes : Int
  events : List Event
  tickQueued : Bool
  connections : Dict Str Connection
  startTask : StartTask
  dispatcherTask : DispatcherTask
  maintenanceTask : MaintenanceTask
  cleanupTask : CleanupTask
  /-- The exceptions raised so far by the queue and by the accounting. -/
  faults : List PyError

abbrev LoopM := EStateM PyError EventLoop

namespace EventLoop

def create (config : NodeConfig) : EventLoop :=
  { config := config
    state := .created
    inboundEvents := 0
    inboundBytes := 0
    events := []
    tickQueued := false
    connections := Dict.empty
    startTask := .absent
    dispatcherTask := .absent
    maintenanceTask := .absent
    cleanupTask := .absent
    faults := [] }

/-!
## Reservations
-/

/-- Raise an exception and remember it. -/
def fault (e : PyError) : LoopM Unit := do
  modify (fun loop => { loop with faults := loop.faults ++ [e] })
  throw e

def reserve (size : Nat) : LoopM Bool := do
  let loop <- get
  if loop.state ≠ .running ∨ (loop.config.inboundMaxEvents : Int) ≤ loop.inboundEvents ∨
      (loop.config.inboundMaxBytes : Int) < loop.inboundBytes + size then
    return false
  else
    set { loop with
      inboundEvents := loop.inboundEvents + 1
      inboundBytes := loop.inboundBytes + size }
    return true

def release (size : Nat) : LoopM Unit := do
  modify (fun loop =>
    { loop with
      inboundEvents := loop.inboundEvents - 1
      inboundBytes := loop.inboundBytes - size })
  let loop <- get
  if loop.inboundEvents < 0 ∨ loop.inboundBytes < 0 then
    fault (.runtimeError "Node inbound reservation accounting underflow")

/-- The queue holds at most `inbound_max_events` events. -/
def putNowait (event : Event) : LoopM Unit := do
  let loop <- get
  if loop.config.inboundMaxEvents ≤ loop.events.length then fault (.runtimeError "QueueFull")
  else set { loop with events := loop.events ++ [event] }

/-!
## Starting and stopping
-/

def beginStop : LoopM Unit :=
  modify (fun loop =>
    if loop.cleanupTask = .absent then
      { loop with
        state := if loop.state = .failed then .failed else .stopping
        cleanupTask := .scheduled }
    else loop)

def fatal : LoopM Unit := do
  let loop <- get
  if loop.state = .stopping ∨ loop.state = .stopped ∨ loop.state = .failed then return ()
  else
    set { loop with state := .failed }
    beginStop

def start : LoopM Unit := do
  let loop <- get
  if loop.state ≠ .created then
    throw (.networkError .nodeClosed "A Node instance can only be started once")
  else set { loop with state := .starting, startTask := .opening }

/-- What the caller of the startup does when it raises. -/
def startRaises : LoopM Unit := do
  modify (fun loop =>
    { loop with
      state :=
        if loop.state = .stopping ∨ loop.state = .stopped then loop.state else .failed })
  beginStop

def serverOpened : LoopM Unit := do
  let loop <- get
  if loop.startTask = .opening then
    if loop.state ≠ .starting then
      set { loop with startTask := .done }
      startRaises
      throw (.networkError .nodeClosed "Node stopped during startup")
    else
      set { loop with
        state := .running
        startTask := .serving
        dispatcherTask := .looping
        maintenanceTask := .looping }

def startServing : LoopM Unit := do
  let loop <- get
  if loop.startTask = .serving then
    set { loop with startTask := .done }
    if loop.state ≠ .running then
      startRaises
      throw (.networkError .nodeClosed "Node stopped before startup completed")

/-- The startup raises, or only its caller is cancelled. -/
def startFailed (cancelled : Bool) : LoopM Unit := do
  let loop <- get
  if loop.startTask = .opening ∨ loop.startTask = .serving then
    if cancelled = false then set { loop with startTask := .done }
    startRaises

/-!
## Connections
-/

def setConnection (id : Str) (connection : Connection) : LoopM Unit :=
  modify (fun loop =>
    { loop with connections := loop.connections.modify id (fun _ => connection) })

/-- Do something with a connection that was opened. -/
def withConnection (id : Str) (act : Connection -> LoopM Unit) : LoopM Unit := do
  let loop <- get
  match loop.connections.get? id with
  | none => return ()
  | some connection => act connection

end EventLoop

namespace Connection

def create (config : NodeConfig) (started : Bool) (now : Rat) : Connection :=
  { attached := true
    closed := false
    reader := if started then .resting else .absent
    closeTask := .absent
    reported := false
    unexpectedError := none
    messageBucket := TokenBucket.create config.messageRate config.messageBurst now
    byteBucket := TokenBucket.create config.byteRate config.byteBurst now }

def beginClose (connection : Connection) : Connection :=
  if connection.closeTask = .absent then
    { connection with closed := true, closeTask := .scheduled }
  else connection

/-- Whether the rate limits admit a frame; the second bucket is only asked when the
first one agrees. -/
def consume (now : Rat) (wireSize : Nat) (connection : Connection) : Bool × Connection :=
  let message := connection.messageBucket.consume now 1
  let bytes := connection.byteBucket.consume now wireSize
  (message.1 && bytes.1,
    { connection with
      messageBucket := message.2
      byteBucket := if message.1 then bytes.2 else connection.byteBucket })

/-- The reader ends, and its connection is closed. -/
def stopReader (unexpectedError : Option PyError) (connection : Connection) : Connection :=
  { connection with reader := .done, unexpectedError := unexpectedError }.beginClose

/-- What a reader remembers of the exception that ends it: a broken stream, a
timeout and a protocol error are expected. -/
def readerError (e : PyError) (connection : Connection) : Option PyError :=
  match e with
  | .networkError .protocol _ => connection.unexpectedError
  | .osError => connection.unexpectedError
  | _ => some e

end Connection

namespace EventLoop

/-- A socket of the listener or of a dial becomes a session; its reader is not
started when the session cannot be introduced. -/
def attach (id : Str) (started : Bool) (now : Rat) : LoopM Unit := do
  let loop <- get
  if loop.state = .running ∧ id ∉ loop.connections.keys then
    set { loop with
      connections := loop.connections.set id (Connection.create loop.config started now) }

def beginClose (id : Str) : LoopM Unit :=
  withConnection id (fun connection => setConnection id connection.beginClose)

/-- Mark a connection closed; the task that closes it runs later. -/
def closePeer (id : Str) : LoopM Unit :=
  withConnection id (fun connection => setConnection id { connection with closed := true })

def writerStopped (id : Str) (unexpectedError : Option PyError) : LoopM Unit :=
  withConnection id (fun connection =>
    setConnection id
      { connection with
        unexpectedError := unexpectedError.or connection.unexpectedError }.beginClose)

/-- The closing task closes the socket and cancels the reader and the writer. -/
def closeStarts (id : Str) : LoopM Unit :=
  withConnection id (fun connection =>
    if connection.closeTask = .scheduled then
      setConnection id { connection with closeTask := .joining }
    else pure ())

def closeJoined (id : Str) : LoopM Unit :=
  withConnection id (fun connection =>
    if connection.closeTask = .joining ∧
        (connection.reader = .absent ∨ connection.reader = .done) then
      setConnection id { connection with closeTask := .waitingClosed }
    else pure ())

/-- The closing task is done and tells the node. -/
def closeDone (id : Str) (socketError : Option PyError) : LoopM Unit :=
  withConnection id (fun connection =>
    if connection.closeTask = .waitingClosed then do
      let unexpectedError := connection.unexpectedError.or socketError
      setConnection id
        { connection with
          closeTask := .done
          reported := true
          unexpectedError := unexpectedError }
      if unexpectedError.isSome then fatal
    else pure ())

/-!
## Readers
-/

/-- The reader goes on with its loop. -/
def readerResumes (id : Str) : LoopM Unit :=
  withConnection id (fun connection =>
    if connection.reader = .resting then
      if connection.closed then
        setConnection id (connection.stopReader connection.unexpectedError)
      else setConnection id { connection with reader := .awaitingPrefix }
    else pure ())

def readerRaises (id : Str) (e : PyError) : LoopM Unit :=
  withConnection id (fun connection =>
    setConnection id (connection.stopReader (connection.readerError e)))

/-- The four bytes of a prefix have arrived. -/
def readPrefix (id : Str) (a b c d : UInt8) (now : Rat) : LoopM Unit :=
  withConnection id (fun connection => do
    let loop <- get
    if connection.reader = .awaitingPrefix then
      match frameSize loop.config.maxFrameBytes a b c d with
      | .error e => readerRaises id e
      | .ok bodySize =>
          let wireSize := bodySize + 4
          let consumed := connection.consume now wireSize
          setConnection id consumed.2
          if consumed.1 = false then
            readerRaises id (protocolError "incoming rate limit")
          else if <- reserve wireSize then
            setConnection id { consumed.2 with reader := .awaitingBody wireSize }
          else setConnection id (consumed.2.stopReader consumed.2.unexpectedError))

/-- Whether the node takes over a message and its reservation. -/
def onMessage (id : Str) (packet : Packet) (size : Nat) : LoopM Bool := do
  let loop <- get
  let attached :=
    match loop.connections.get? id with
    | none => false
    | some connection => connection.attached
  if loop.state ≠ .running ∨ attached = false then return false
  else
    putNowait { kind := .remote id packet, size := size }
    return true

/-- What the reader does with a body: it gives its reservation back unless the node
takes it over. -/
def receiveBody (id : Str) (body : Bytes) (ownedSize : Nat) : LoopM Unit := do
  let loop <- get
  match decodeReceived body loop.config.maxFrameBytes with
  | .error e =>
      release ownedSize
      throw e
  | .ok packet =>
      let taken <- tryCatch (onMessage id packet ownedSize) (fun e => do
        release ownedSize
        throw e)
      if taken then return () else release ownedSize

/-- A body has arrived, of the size its prefix announced. -/
def readBody (id : Str) (body : Bytes) : LoopM Unit :=
  withConnection id (fun connection =>
    match connection.reader with
    | .awaitingBody ownedSize =>
        if body.length + 4 = ownedSize then do
          setConnection id { connection with reader := .resting }
          tryCatch (receiveBody id body ownedSize) (readerRaises id)
        else pure ()
    | _ => pure ())

/-- The stream breaks or a timeout passes while the reader waits for bytes. -/
def readFailed (id : Str) : LoopM Unit :=
  withConnection id (fun connection =>
    match connection.reader with
    | .awaitingPrefix => readerRaises id .osError
    | .awaitingBody ownedSize => do
        setConnection id { connection with reader := .resting }
        tryCatch (do
          release ownedSize
          throw .osError) (readerRaises id)
    | _ => pure ())

/-- The reader is cancelled where it waits. -/
def readerCancelled (id : Str) : LoopM Unit :=
  withConnection id (fun connection =>
    match connection.reader with
    | .awaitingBody ownedSize => do
        setConnection id { connection with reader := .resting }
        tryCatch (do
          release ownedSize
          setConnection id (connection.stopReader connection.unexpectedError))
          (readerRaises id)
    | .resting => setConnection id (connection.stopReader connection.unexpectedError)
    | .awaitingPrefix => setConnection id (connection.stopReader connection.unexpectedError)
    | _ => pure ())

/-!
## Local callers and the timer
-/

/-- A local call reserves its size and queues its command. -/
def call (command : Command) (size : Nat) : LoopM Unit := do
  let loop <- get
  if loop.state ≠ .running then
    throw (.networkError .nodeClosed "Node is not running")
  else if <- reserve size then
    tryCatch (putNowait { kind := .command command, size := size }) (fun e => do
      release size
      throw e)
  else throw (.networkError .nodeBusy "Node inbound command budget is full")

/-- The timer queues one tick at a time. -/
def maintenanceTurn : LoopM Unit := do
  let loop <- get
  if loop.maintenanceTask = .looping then
    if loop.state ≠ .running then set { loop with maintenanceTask := .done }
    else if loop.tickQueued = false then
      if <- reserve 1 then
        modify (fun loop => { loop with tickQueued := true })
        tryCatch (putNowait { kind := .tick, size := 1 }) (fun _ => do
          fatal
          modify (fun loop => { loop with maintenanceTask := .done }))

/-!
## The dispatcher
-/

/-- The dispatcher goes on with its loop. -/
def dispatcherLoops : LoopM Unit := do
  let loop <- get
  match loop.dispatcherTask with
  | .looping =>
      if loop.state = .running then set { loop with dispatcherTask := .awaitingEvent }
      else set { loop with dispatcherTask := .done }
  | _ => return ()

/-- The dispatcher takes the oldest event. -/
def dispatcherTakes : LoopM Unit := do
  let loop <- get
  match loop.dispatcherTask, loop.events with
  | .awaitingEvent, event :: rest =>
      set { loop with events := rest, dispatcherTask := .handling event }
  | _, _ => return ()

/-- The handler removes a session whose connection is closed. -/
def reapPeer (id : Str) : LoopM Unit :=
  withConnection id (fun connection =>
    if connection.reported then
      setConnection id { connection with reported := false, attached := false }
    else pure ())

/-- How the handling of an event ends. -/
inductive Handled where
  /-- The caller is cancelled, or the session of a message is gone. -/
  | skipped
  | completed
  | peerRejected
  | commandError
  /-- Removing closed sessions fails. -/
  | reapFailed
  | failed
deriving DecidableEq, Repr

/-- The last thing a handler does. -/
def handlerEnds (handled : Handled) (event : Event) : LoopM Unit :=
  match handled, event.kind with
  | .skipped, _ => pure ()
  | .reapFailed, _ => fatal
  | .failed, .tick => do
      modify (fun loop => { loop with tickQueued := false })
      fatal
  | .failed, _ => fatal
  | _, .tick => modify (fun loop => { loop with tickQueued := false })
  | .peerRejected, .remote id _ => closePeer id
  | _, _ => pure ()

/-- The handler of an event ends, and the event is released. -/
def dispatcherReleases (handled : Handled) : LoopM Unit := do
  let loop <- get
  match loop.dispatcherTask with
  | .handling event =>
      handlerEnds handled event
      modify (fun loop => { loop with dispatcherTask := .looping })
      tryCatch (release event.size) (fun e => do
        modify (fun loop => { loop with dispatcherTask := .done })
        throw e)
  | _ => return ()

/-!
## The supervisor
-/

/-- The supervisor cancels the other tasks of its node. -/
def cleanupStarts : LoopM Unit := do
  let loop <- get
  if loop.cleanupTask = .scheduled then set { loop with cleanupTask := .joining }

def startCancelled : LoopM Unit := do
  let loop <- get
  if loop.cleanupTask = .joining ∧ loop.startTask ≠ .absent then
    set { loop with startTask := .done }

def dispatcherCancelled : LoopM Unit := do
  let loop <- get
  match loop.cleanupTask, loop.dispatcherTask with
  | .joining, .looping => set { loop with dispatcherTask := .done }
  | .joining, .awaitingEvent => set { loop with dispatcherTask := .done }
  | _, _ => return ()

def maintenanceCancelled : LoopM Unit := do
  let loop <- get
  if loop.cleanupTask = .joining ∧ loop.maintenanceTask = .looping then
    set { loop with maintenanceTask := .done }

def DispatcherEnded (loop : EventLoop) : Bool :=
  match loop.dispatcherTask with
  | .absent => true
  | .done => true
  | _ => false

/-- The cancelled tasks are done, and every session is closed. -/
def cleanupJoined : LoopM Unit := do
  let loop <- get
  if loop.cleanupTask = .joining ∧ loop.DispatcherEnded = true ∧
      (loop.startTask = .absent ∨ loop.startTask = .done) ∧
      (loop.maintenanceTask = .absent ∨ loop.maintenanceTask = .done) then
    set { loop with cleanupTask := .closingPeers }

/-- The closing tasks of the sessions are done. -/
def peersClosed : LoopM Unit := do
  let loop <- get
  if loop.cleanupTask = .closingPeers ∧
      loop.connections.values.all (fun connection =>
        !connection.attached || decide (connection.closeTask = .done)) = true then
    set { loop with cleanupTask := .waitingClosed }

/-- Release the events that were not dispatched. -/
def drain : List Event -> LoopM Unit
  | [] => pure ()
  | event :: rest => do
      modify (fun loop => { loop with events := rest })
      release event.size
      drain rest

/-- The sessions are forgotten; closing the storage may fail. -/
def cleanedUp (storageFailed : Bool) (loop : EventLoop) : EventLoop :=
  { loop with
    connections := loop.connections.mapValues (fun connection =>
      { connection with attached := false, reported := false })
    tickQueued := false
    state := if storageFailed = true ∨ loop.state = .failed then .failed else .stopped
    cleanupTask := .done }

/-- The listener is closed, and the supervisor empties the queue. -/
def cleanupFinishes (storageFailed : Bool) : LoopM Unit := do
  let loop <- get
  if loop.cleanupTask = .waitingClosed then
    tryCatch (do
      drain loop.events
      modify (cleanedUp storageFailed))
      (fun e => do
        modify (fun loop => { loop with cleanupTask := .raised })
        throw e)

/-!
## Turns
-/

inductive Turn where
  | start
  | serverOpened
  | startServing
  | startFailed (cancelled : Bool)
  | attach (id : Str) (started : Bool) (now : Rat)
  | acceptFailed
  | beginClose (id : Str)
  | writerStopped (id : Str) (unexpectedError : Option PyError)
  | closeStarts (id : Str)
  | closeJoined (id : Str)
  | closeDone (id : Str) (socketError : Option PyError)
  | readerResumes (id : Str)
  | readPrefix (id : Str) (a b c d : UInt8) (now : Rat)
  | readBody (id : Str) (body : Bytes)
  | readFailed (id : Str)
  | readerCancelled (id : Str)
  | call (command : Command) (size : Nat)
  | maintenanceTurn
  | dispatcherLoops
  | dispatcherTakes
  | reapPeer (id : Str)
  | closePeer (id : Str)
  | overflow (id : Str)
  | dispatcherReleases (handled : Handled)
  | stop
  | cleanupStarts
  | startCancelled
  | dispatcherCancelled
  | maintenanceCancelled
  | cleanupJoined
  | peersClosed
  | cleanupFinishes (storageFailed : Bool)

/-- What a handler does to connections before it ends. -/
def Turn.ofHandler : Turn -> Bool
  | reapPeer _ => true
  | closePeer _ => true
  | overflow _ => true
  | dispatcherReleases _ => true
  | _ => false

def handling (loop : EventLoop) : Bool :=
  match loop.dispatcherTask with
  | .handling _ => true
  | _ => false

def act : Turn -> LoopM Unit
  | .start => start
  | .serverOpened => serverOpened
  | .startServing => startServing
  | .startFailed cancelled => startFailed cancelled
  | .attach id started now => attach id started now
  | .acceptFailed => fatal
  | .beginClose id => beginClose id
  | .writerStopped id unexpectedError => writerStopped id unexpectedError
  | .closeStarts id => closeStarts id
  | .closeJoined id => closeJoined id
  | .closeDone id socketError => closeDone id socketError
  | .readerResumes id => readerResumes id
  | .readPrefix id a b c d now => readPrefix id a b c d now
  | .readBody id body => readBody id body
  | .readFailed id => readFailed id
  | .readerCancelled id => readerCancelled id
  | .call command size => call command size
  | .maintenanceTurn => maintenanceTurn
  | .dispatcherLoops => dispatcherLoops
  | .dispatcherTakes => dispatcherTakes
  | .reapPeer id => reapPeer id
  | .closePeer id => closePeer id
  | .overflow id => beginClose id
  | .dispatcherReleases handled => dispatcherReleases handled
  | .stop => beginStop
  | .cleanupStarts => cleanupStarts
  | .startCancelled => startCancelled
  | .dispatcherCancelled => dispatcherCancelled
  | .maintenanceCancelled => maintenanceCancelled
  | .cleanupJoined => cleanupJoined
  | .peersClosed => peersClosed
  | .cleanupFinishes storageFailed => cleanupFinishes storageFailed

/-- The event loop of a node.  A handler is not interrupted: while an event is
being dispatched nothing else runs. -/
def machine : Machine EventLoop Turn (Except PyError Unit) where
  step turn loop :=
    if loop.handling = turn.ofHandler then
      match act turn loop with
      | .ok _ loop' => (.ok (), loop')
      | .error e loop' => (.error e, loop')
    else (.ok (), loop)

end EventLoop

end Network

end PyChain
