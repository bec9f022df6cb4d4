import PyChain.Network.Node

/-!
# Dials and their callers

A dial opens one socket, and it keeps its place among the dials until its connection is
closed.  A caller of `connect` who meets a session that is not ready waits in the middle
of its loop over the sessions, and goes on from there when the session fails.
-/

namespace PyChain

open Foundation

namespace Network

def Session.isOpen (session : Session) : Bool :=
  !session.peer.closed

/-- A caller of `connect` with the session it awaits; the loop notices when the size of
the table has changed. -/
structure Caller where
  endpoint : Endpoint
  awaited : Str
  tableSize : Nat
deriving DecidableEq, Repr

/-- A node with the dials whose socket is open and with the callers who wait. -/
structure Dialling (disk : Type) where
  node : Node disk
  opened : List Endpoint
  callers : List Caller

inductive DialEvent where
  | node (event : NodeEvent)
  /-- A dial raises and waits for its connection to close. -/
  | dialRaises (endpoint : Endpoint)
  /-- A loop over a table that changes may miss sessions; these it still sees. -/
  | connectResumes (caller : Caller) (seen : List Str)

namespace Dialling

variable {disk : Type}

def start (node : Node disk) : Dialling disk :=
  { node := node, opened := [], callers := [] }

/-!
## Callers
-/

/-- The next session a caller may use. -/
def scan (endpoint : Endpoint) (items : List (Str × Session)) : Option (Str × Session) :=
  items.find? (fun item => decide (item.2.endpoint = some endpoint) && item.2.isOpen)

/-- The callers a new call of `connect` adds. -/
def waits (node : Node disk) (endpoint : Endpoint) : List Caller :=
  match scan endpoint node.sessions.items with
  | none => []
  | some (id, session) =>
      if session.ready = none then
        [{ endpoint := endpoint, awaited := id, tableSize := node.sessions.size }]
      else []

def waitsAfter (node : Node disk) : NodeEvent -> List Caller
  | .connect endpoint =>
      match node.config.validateEndpoint endpoint.host endpoint.port with
      | .error _ => []
      | .ok endpoint =>
          if node.lifecycle ≠ .running ∨ endpoint = node.endpoint then []
          else waits node endpoint
  | _ => []

/-- Whether a session is known not to become ready. -/
def settled (node : Node disk) (id : Str) : Bool :=
  match node.sessions.get? id with
  | none => true
  | some session => decide (session.ready = some false)

/-- The end of `connect`: await a dial or start one. -/
def startDial (env : Env) (endpoint : Endpoint) : NodeM disk Unit := do
  let node <- get
  if endpoint ∈ node.dialTasks then return ()
  else if node.config.maxPeers ≤ Node.occupiedSlots node ∨
      node.config.maxConcurrentDials ≤ node.dialTasks.length then
    throw (.networkError .nodeBusy "Peer or concurrent dial slots are full")
  else
    let added <- Node.lift (node.manager.addCandidate node.config env.now endpoint false)
    let jitter <- Node.drawJitter
    let marked <- Node.lift (added.2.markAttempt node.config env.now jitter endpoint)
    modify (fun node =>
      { node with manager := marked.2, dialTasks := node.dialTasks ++ [endpoint] })

/-- A caller goes on with its loop; it may wait again. -/
def connectResumes (env : Env) (caller : Caller) (seen : List Str) :
    NodeM disk (List Caller) := do
  let node <- get
  if node.sessions.size ≠ caller.tableSize then
    throw (.runtimeError "dictionary changed size during iteration")
  else
    match scan caller.endpoint (node.sessions.items.filter (fun item => item.1 ∈ seen)) with
    | some (id, session) =>
        return if session.ready = none then [{ caller with awaited := id }] else []
    | none =>
        startDial env caller.endpoint
        return []

/-!
## Dials
-/

/-- What a dial does when it raises, before it waits for its connection to close. -/
def dialRaises (env : Env) (endpoint : Endpoint) : NodeM disk Unit := do
  let jitter <- Node.drawJitter
  let node <- get
  let manager <- Node.lift (node.manager.markDisconnected node.config env.now jitter endpoint)
  set { node with
    manager := manager
    sessions := node.sessions.mapValues (fun session =>
      if session.dialEndpoint = some endpoint then
        { session with peer := session.peer.beginClose }
      else session) }

/-- The dials whose socket an event opens. -/
def opens (node : Node disk) : NodeEvent -> List Endpoint
  | .dialled endpoint _ =>
      if node.lifecycle = .running ∧ endpoint ∈ node.dialTasks then [endpoint] else []
  | _ => []

def admits (dialling : Dialling disk) : NodeEvent -> Bool
  | .dialled endpoint _ => decide (endpoint ∉ dialling.opened)
  | _ => true

/-- The dials that are over are forgotten. -/
def settle (node : Node disk) (opened : List Endpoint) (callers : List Caller) : Dialling disk :=
  { node := node
    opened := opened.filter (fun endpoint => endpoint ∈ node.dialTasks)
    callers := callers }

variable [Crypto] (store : Option (ChainStore disk))

/-- A node with its dials as a machine. -/
def machine : Machine (Dialling disk) (Env × DialEvent) (Except PyError Unit) where
  step call dialling :=
    match call.2 with
    | .node event =>
        if dialling.admits event then
          let opened := dialling.opened ++ opens dialling.node event
          match Node.handle store call.1 event dialling.node with
          | .ok _ node =>
              (.ok (), settle node opened
                (dialling.callers ++ waitsAfter dialling.node event))
          | .error e node => (.error e, settle node opened dialling.callers)
        else (.ok (), dialling)
    | .dialRaises endpoint =>
        if endpoint ∈ dialling.node.dialTasks then
          match dialRaises call.1 endpoint dialling.node with
          | .ok _ node => (.ok (), settle node dialling.opened dialling.callers)
          | .error e node => (.error e, settle node dialling.opened dialling.callers)
        else (.ok (), dialling)
    | .connectResumes caller seen =>
        if caller ∈ dialling.callers ∧ settled dialling.node caller.awaited = true then
          let callers := dialling.callers.erase caller
          match connectResumes call.1 caller seen dialling.node with
          | .ok waiting node => (.ok (), settle node dialling.opened (callers ++ waiting))
          | .error e node => (.error e, settle node dialling.opened callers)
        else (.ok (), dialling)

end Dialling

end Network

end PyChain
