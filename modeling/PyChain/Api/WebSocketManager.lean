import PyChain.Foundation.Dict
import PyChain.Foundation.Machine
import PyChain.Foundation.Text

/-!
# The WebSocket manager

Every connection has a handler on the event loop, and a clean-up task of its own
from the moment the handler leaves its body.  A turn is what one task runs between
two places where it waits; the environment decides what the transport and the node
answer and when a task is cancelled.  The sections under the lock of the manager do
not wait, so the lock is free at the end of every turn.  Cancelling the handlers
when the manager stops is one cancellation for each of them.
-/

namespace PyChain

open Foundation

namespace Api

structure WebSocketConfig where
  wsMaxClients : Nat
  wsMaxClientsPerIp : Nat
  wsMaxMessageBytes : Nat
  wsClientQueueSize : Nat
  maxClients_pos : 0 < wsMaxClients
  maxClientsPerIp_pos : 0 < wsMaxClientsPerIp
  queueSize_pos : 0 < wsClientQueueSize

/-- A message for the clients: its type, if it has one, and the rest. -/
structure Event (payload : Type) where
  type : Option Str
  payload : payload
deriving DecidableEq

inductive Frame (payload : Type) where
  | event (message : Event payload)
  | text (message : Str)
deriving DecidableEq

def WebSocketConfig.standard : WebSocketConfig :=
  { wsMaxClients := 50
    wsMaxClientsPerIp := 5
    wsMaxMessageBytes := 4096
    wsClientQueueSize := 64
    maxClients_pos := by decide
    maxClientsPerIp_pos := by decide
    queueSize_pos := by decide }

structure ClientSession (payload : Type) where
  ip : Str
  queue : List (Frame payload)
  /-- The event that ends the reader and the writer. -/
  done : Bool
  closeCode : Nat
deriving DecidableEq

inductive HandlerTask where
  /-- Closing the transport of a connection that was not admitted. -/
  | refused (code : Nat)
  | accepting
  | awaitingStatus
  | serving
  /-- Waiting for the clean-up behind the shield. -/
  | shielded
  /-- Waiting for the clean-up itself, after a cancellation. -/
  | unshielded
  | ended
deriving DecidableEq, Repr

inductive CleanupTask where
  | absent
  | created
  | awaitingWriter
  | closing (code : Nat)
  | done
  /-- Cancelled before it got to its last section. -/
  | cancelled
deriving DecidableEq, Repr

structure Connection where
  ip : Str
  handler : HandlerTask
  cleanup : CleanupTask
deriving DecidableEq, Repr

/-- What the reader of a connection gets; nothing within a second is a timeout. -/
inductive Received where
  | timeout (idle : Bool)
  | disconnect
  | bytes
  | text (message : Str)
  | other
  | failure

structure AttributeError where
  message : Str
deriving DecidableEq, Repr

/-- The clients by their WebSockets, the admitted WebSockets, and the tasks of all
connections so far. -/
structure WebSocketManager (payload : Type) where
  running : Bool
  totalReserved : Int
  ipCounts : Dict Str Int
  clients : Dict Nat (ClientSession payload)
  handlers : List Nat
  connections : Dict Nat Connection

def CLOSE_NORMAL : Nat := 1000

def CLOSE_GOING_AWAY : Nat := 1001

def CLOSE_UNSUPPORTED_DATA : Nat := 1003

def CLOSE_POLICY_VIOLATION : Nat := 1008

def CLOSE_MESSAGE_TOO_BIG : Nat := 1009

def CLOSE_TRY_AGAIN_LATER : Nat := 1013

variable {payload : Type}

/-- Progress and status, which a slow client may miss. -/
def Event.isRoutine (message : Event payload) : Bool :=
  decide (message.type = some (str "mining_progress")) ||
    decide (message.type = some (str "node_status"))

def nodeStatus (status : payload) : Event payload :=
  { type := some (str "node_status")
    payload := status }

namespace ClientSession

/-- Put a frame in the queue if it is not full. -/
def putNowait (capacity : Nat) (frame : Frame payload) (session : ClientSession payload) :
    Option (ClientSession payload) :=
  if session.queue.length < capacity then
    some { session with queue := session.queue ++ [frame] }
  else none

def disconnectSlow (session : ClientSession payload) : ClientSession payload :=
  { session with
    closeCode := CLOSE_TRY_AGAIN_LATER
    done := true }

/-- A critical message for a full queue: make room by one routine event, or give up.
A frame that is a plain string has no type to look at. -/
def makeRoom (capacity : Nat) (message : Event payload) (session : ClientSession payload) :
    Option AttributeError × ClientSession payload :=
  match session.queue with
  | [] => (none, session.disconnectSlow)
  | .text _ :: rest =>
      (some { message := str "'str' object has no attribute 'get'" },
        { session with queue := rest })
  | .event old :: rest =>
      let session := { session with queue := rest }
      if old.isRoutine then
        match session.putNowait capacity (.event message) with
        | some session => (none, session)
        | none => (none, session.disconnectSlow)
      else
        match session.putNowait capacity (.event old) with
        | some session => (none, session.disconnectSlow)
        | none => (none, session.disconnectSlow)

/-- The body of the loop over the clients. -/
def offer (capacity : Nat) (message : Event payload) (session : ClientSession payload) :
    Option AttributeError × ClientSession payload :=
  if session.done then (none, session)
  else
    match session.putNowait capacity (.event message) with
    | some session => (none, session)
    | none => if message.isRoutine then (none, session) else session.makeRoom capacity message

end ClientSession

namespace WebSocketManager

def new : WebSocketManager payload :=
  { running := false
    totalReserved := 0
    ipCounts := Dict.empty
    clients := Dict.empty
    handlers := []
    connections := Dict.empty }

def setConnection (manager : WebSocketManager payload) (id : Nat) (connection : Connection) :
    WebSocketManager payload :=
  { manager with connections := manager.connections.modify id (fun _ => connection) }

def modifyClient (manager : WebSocketManager payload) (id : Nat)
    (f : ClientSession payload -> ClientSession payload) : WebSocketManager payload :=
  { manager with clients := manager.clients.modify id f }

/-- The task of a connection, if it is at the given place. -/
def atPlace (manager : WebSocketManager payload) (id : Nat) (place : HandlerTask)
    (next : Connection -> WebSocketManager payload) : WebSocketManager payload :=
  match manager.connections.get? id with
  | none => manager
  | some connection => if connection.handler = place then next connection else manager

/-!
## Handlers
-/

def reserve (manager : WebSocketManager payload) (id : Nat) (ip : Str) :
    WebSocketManager payload :=
  { manager with
    totalReserved := manager.totalReserved + 1
    ipCounts := manager.ipCounts.set ip ((manager.ipCounts.get? ip).getD 0 + 1)
    handlers := manager.handlers ++ [id] }

/-- Why a connection is not admitted. -/
def rejectCode (config : WebSocketConfig) (manager : WebSocketManager payload) (ip : Str) :
    Option Nat :=
  if manager.running = false ∨ (config.wsMaxClients : Int) ≤ manager.totalReserved then
    some CLOSE_TRY_AGAIN_LATER
  else if (config.wsMaxClientsPerIp : Int) ≤ (manager.ipCounts.get? ip).getD 0 then
    some CLOSE_POLICY_VIOLATION
  else none

def addConnection (manager : WebSocketManager payload) (id : Nat) (ip : Str)
    (handler : HandlerTask) : WebSocketManager payload :=
  { manager with
    connections := manager.connections.set id
      { ip := ip
        handler := handler
        cleanup := .absent } }

/-- A handler starts: refuse the connection, or reserve its slot and accept it. -/
def connect (config : WebSocketConfig) (id : Nat) (host : Option Str) (originAllowed : Bool)
    (manager : WebSocketManager payload) : WebSocketManager payload :=
  let ip : Str :=
    match host with
    | none => str "127.0.0.1"
    | some host => if host = [] then str "127.0.0.1" else host
  if id ∈ manager.connections.keys then manager
  else if originAllowed = false then
    manager.addConnection id ip (.refused CLOSE_POLICY_VIOLATION)
  else
    match manager.rejectCode config ip with
    | some code => manager.addConnection id ip (.refused code)
    | none => (manager.reserve id ip).addConnection id ip .accepting

/-- Leave the body of a handler: the clean-up is a task of its own. -/
def leave (id : Nat) (connection : Connection) (manager : WebSocketManager payload) :
    WebSocketManager payload :=
  manager.setConnection id { connection with handler := .shielded, cleanup := .created }

def refusedClosed (id : Nat) (manager : WebSocketManager payload) : WebSocketManager payload :=
  match manager.connections.get? id with
  | some { ip := ip, handler := .refused _, cleanup := cleanup } =>
      manager.setConnection id { ip := ip, handler := .ended, cleanup := cleanup }
  | _ => manager

def accepted (id : Nat) (success : Bool) (manager : WebSocketManager payload) :
    WebSocketManager payload :=
  manager.atPlace id .accepting (fun connection =>
    if success then manager.setConnection id { connection with handler := .awaitingStatus }
    else manager.leave id connection)

/-- The condition of the reader loop. -/
def serves (id : Nat) (manager : WebSocketManager payload) : Bool :=
  manager.running &&
    (match manager.clients.get? id with
      | none => false
      | some session => !session.done)

/-- Wait for the next message, or leave. -/
def serveOn (id : Nat) (connection : Connection) (manager : WebSocketManager payload) :
    WebSocketManager payload :=
  if manager.serves id then manager.setConnection id { connection with handler := .serving }
  else manager.leave id connection

def statusAnswered (id : Nat) (answer : Option payload) (manager : WebSocketManager payload) :
    WebSocketManager payload :=
  manager.atPlace id .awaitingStatus (fun connection =>
    match answer with
    | none => manager.leave id connection
    | some status =>
        { manager with
          clients := manager.clients.set id
            { ip := connection.ip
              queue := [.event (nodeStatus status)]
              done := false
              closeCode := CLOSE_NORMAL } }.serveOn id connection)

/-- Leave the reader loop with a close code. -/
def leaveWith (id : Nat) (connection : Connection) (code : Nat)
    (manager : WebSocketManager payload) : WebSocketManager payload :=
  (manager.modifyClient id (fun session => { session with closeCode := code })).leave id
    connection

def pong (config : WebSocketConfig) (id : Nat) (connection : Connection)
    (manager : WebSocketManager payload) : WebSocketManager payload :=
  match manager.clients.get? id with
  | none => manager
  | some session =>
      match session.putNowait config.wsClientQueueSize (.text (str "pong")) with
      | some session => (manager.modifyClient id (fun _ => session)).serveOn id connection
      | none => manager.leaveWith id connection CLOSE_TRY_AGAIN_LATER

/-- One turn of the reader loop. -/
def received (config : WebSocketConfig) (id : Nat) (input : Received)
    (manager : WebSocketManager payload) : WebSocketManager payload :=
  manager.atPlace id .serving (fun connection =>
    match manager.clients.get? id with
    | none => manager
    | some session =>
        if session.done then manager.leave id connection
        else
          match input with
          | .timeout idle =>
              if idle then manager.leaveWith id connection CLOSE_POLICY_VIOLATION
              else manager.serveOn id connection
          | .disconnect => manager.leave id connection
          | .failure => manager.leave id connection
          | .other => manager.serveOn id connection
          | .bytes => manager.leaveWith id connection CLOSE_UNSUPPORTED_DATA
          | .text message =>
              if config.wsMaxMessageBytes < (encodeUtf8 message).length then
                manager.leaveWith id connection CLOSE_MESSAGE_TOO_BIG
              else if message = str "ping" then manager.pong config id connection
              else manager.serveOn id connection)

/-- The writer takes the next frame to send. -/
def writerTakes (id : Nat) (manager : WebSocketManager payload) : WebSocketManager payload :=
  manager.modifyClient id (fun session => { session with queue := session.queue.tail })

def writerFails (id : Nat) (manager : WebSocketManager payload) : WebSocketManager payload :=
  manager.modifyClient id ClientSession.disconnectSlow

/-!
## Clean-up
-/

/-- The last section of the clean-up: give the slot back. -/
def release (id : Nat) (ip : Str) (manager : WebSocketManager payload) :
    WebSocketManager payload :=
  let manager := { manager with clients := manager.clients.erase id }
  if id ∈ manager.handlers then
    let count := (manager.ipCounts.get? ip).getD 0 - 1
    { manager with
      handlers := manager.handlers.filter (fun other => decide (other ≠ id))
      totalReserved := manager.totalReserved - 1
      ipCounts :=
        if count = 0 then manager.ipCounts.erase ip else manager.ipCounts.set ip count }
  else manager

def cleanupCode (id : Nat) (manager : WebSocketManager payload) : Nat :=
  if manager.running = false then CLOSE_GOING_AWAY
  else
    match manager.clients.get? id with
    | none => CLOSE_NORMAL
    | some session => session.closeCode

def beginClosing (id : Nat) (connection : Connection) (manager : WebSocketManager payload) :
    WebSocketManager payload :=
  manager.setConnection id { connection with cleanup := .closing (manager.cleanupCode id) }

def finishCleanup (id : Nat) (connection : Connection) (manager : WebSocketManager payload) :
    WebSocketManager payload :=
  (manager.release id connection.ip).setConnection id { connection with cleanup := .done }

/-- The clean-up task goes on from where it waits. -/
def cleanupResumes (id : Nat) (manager : WebSocketManager payload) : WebSocketManager payload :=
  match manager.connections.get? id with
  | none => manager
  | some connection =>
      match connection.cleanup with
      | .created =>
          match manager.clients.get? id with
          | none => manager.beginClosing id connection
          | some _ =>
              let manager :=
                manager.modifyClient id (fun session => { session with done := true })
              manager.setConnection id { connection with cleanup := .awaitingWriter }
      | .awaitingWriter => manager.beginClosing id connection
      | .closing _ => manager.finishCleanup id connection
      | _ => manager

/-- The clean-up task is cancelled: only its closing is inside a `finally`. -/
def cleanupCancelled (id : Nat) (manager : WebSocketManager payload) :
    WebSocketManager payload :=
  match manager.connections.get? id with
  | none => manager
  | some connection =>
      match connection.cleanup with
      | .created => manager.setConnection id { connection with cleanup := .cancelled }
      | .awaitingWriter => manager.setConnection id { connection with cleanup := .cancelled }
      | .closing _ => manager.finishCleanup id connection
      | _ => manager

/-- The handler goes on when its clean-up has ended. -/
def handlerResumes (id : Nat) (manager : WebSocketManager payload) : WebSocketManager payload :=
  match manager.connections.get? id with
  | none => manager
  | some connection =>
      if (connection.handler = .shielded ∨ connection.handler = .unshielded) ∧
          (connection.cleanup = .done ∨ connection.cleanup = .cancelled) then
        manager.setConnection id { connection with handler := .ended }
      else manager

/-- A cancellation reaches the handler where it waits.  Without the shield it goes on to
the clean-up. -/
def handlerCancelled (id : Nat) (manager : WebSocketManager payload) :
    WebSocketManager payload :=
  match manager.connections.get? id with
  | none => manager
  | some connection =>
      match connection.handler with
      | .refused _ => manager.setConnection id { connection with handler := .ended }
      | .accepting => manager.leave id connection
      | .awaitingStatus => manager.leave id connection
      | .serving => manager.leave id connection
      | .shielded => manager.setConnection id { connection with handler := .unshielded }
      | .unshielded => manager.cleanupCancelled id
      | .ended => manager

/-!
## Broadcasts
-/

/-- The loop over the clients; an exception ends it. -/
def offerAll (config : WebSocketConfig) (message : Event payload) :
    List Nat -> WebSocketManager payload -> Option AttributeError × WebSocketManager payload
  | [], manager => (none, manager)
  | id :: rest, manager =>
      match manager.clients.get? id with
      | none => offerAll config message rest manager
      | some session =>
          match session.offer config.wsClientQueueSize message with
          | (some e, session) => (some e, manager.modifyClient id (fun _ => session))
          | (none, session) =>
              offerAll config message rest (manager.modifyClient id (fun _ => session))

def broadcast (config : WebSocketConfig) (message : Event payload)
    (manager : WebSocketManager payload) : Option AttributeError × WebSocketManager payload :=
  offerAll config message manager.clients.keys manager

/-!
## The machine
-/

inductive Turn (payload : Type) where
  | start
  | stop
  | connect (id : Nat) (host : Option Str) (originAllowed : Bool)
  | refusedClosed (id : Nat)
  | accepted (id : Nat) (success : Bool)
  | statusAnswered (id : Nat) (answer : Option payload)
  | received (id : Nat) (input : Received)
  | writerTakes (id : Nat)
  | writerFails (id : Nat)
  | cleanupResumes (id : Nat)
  | cleanupCancelled (id : Nat)
  | handlerResumes (id : Nat)
  | handlerCancelled (id : Nat)
  | broadcast (message : Event payload)

/-- One turn; a turn of a task that does not wait there does nothing. -/
def perform (config : WebSocketConfig) (turn : Turn payload)
    (manager : WebSocketManager payload) : Option AttributeError × WebSocketManager payload :=
  match turn with
  | .start => (none, { manager with running := true })
  | .stop => (none, { manager with running := false })
  | .connect id host originAllowed => (none, manager.connect config id host originAllowed)
  | .refusedClosed id => (none, manager.refusedClosed id)
  | .accepted id success => (none, manager.accepted id success)
  | .statusAnswered id answer => (none, manager.statusAnswered id answer)
  | .received id input => (none, manager.received config id input)
  | .writerTakes id => (none, manager.writerTakes id)
  | .writerFails id => (none, manager.writerFails id)
  | .cleanupResumes id => (none, manager.cleanupResumes id)
  | .cleanupCancelled id => (none, manager.cleanupCancelled id)
  | .handlerResumes id => (none, manager.handlerResumes id)
  | .handlerCancelled id => (none, manager.handlerCancelled id)
  | .broadcast message => manager.broadcast config message

def machine (config : WebSocketConfig) :
    Machine (WebSocketManager payload) (Turn payload) (Option AttributeError) :=
  { step := perform config }

/-- The manager after some turns, from its construction. -/
def after (config : WebSocketConfig) (turns : List (Turn payload)) : WebSocketManager payload :=
  (machine config).run turns new

end WebSocketManager

end Api

end PyChain
