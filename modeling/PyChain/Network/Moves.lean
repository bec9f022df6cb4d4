import PyChain.Network.Failures
import PyChain.Network.Node
import PyChain.Network.SignedItems

/-!
# What a handler may do

Every handler of a node is a sequence of small moves: a message queued, a field
of a session changed, a call of the chain, an update of the synchronisation
state.  A move records what was known when it was made, so each invariant of a
node is a case analysis on moves.
-/

namespace PyChain

open Foundation

namespace Network

/-- The last block of a chain, by height and hash. -/
def TipIs [Crypto] (chain : Blockchain) (height : Nat) (tipHash : Str) : Prop :=
  exists block, chain.blocks.getLast? = some block ∧ chain.blocks.length = height + 1 ∧
    block.hash = tipHash

/-- An endpoint that the configuration accepts as it is. -/
def NodeConfig.Accepts (config : NodeConfig) (endpoint : Endpoint) : Prop :=
  config.validateEndpoint endpoint.host endpoint.port = .ok endpoint

/-- Requests, answers and the messages of a handshake that carry no ledger item. -/
def MessageType.isControl : MessageType -> Bool
  | .peers => false
  | .newTransaction => false
  | .newBlock => false
  | .blocks => false
  | .mempool => false
  | _ => true

/-- The frame limit admits every control message. -/
def NodeConfig.AdmitsControl (config : NodeConfig) : Prop :=
  forall packet : Packet, packet.Valid -> packet.payload.type.isControl = true ->
    exists frame, encodeMessage packet.toMessage config.maxFrameBytes = .ok frame

/-!
## What an event carries
-/

/-- The messages that pass on a ledger item. -/
def Payload.isRelay : Payload -> Bool
  | .newTransaction _ => true
  | .newBlock _ => true
  | _ => false

section Items

variable [Crypto] (maxItemBytes : Nat)

def Payload.Submits : Payload -> Transaction -> Prop
  | .newTransaction encoded, transaction =>
      unpackTransaction encoded maxItemBytes = .ok transaction
  | .mempool payload, transaction =>
      exists encoded, encoded ∈ payload.transactions ∧
        unpackTransaction encoded maxItemBytes = .ok transaction
  | _, _ => False

def Payload.Brings : Payload -> Block -> Prop
  | .newBlock encoded, block => unpackBlock encoded maxItemBytes = .ok block
  | .blocks payload, block =>
      exists encoded, encoded ∈ payload.blocks ∧ unpackBlock encoded maxItemBytes = .ok block
  | _, _ => False

/-- The transactions that come with an event on their own. -/
def EventKind.Submits : EventKind -> Transaction -> Prop
  | .command (.submit submitted), transaction => submitted = transaction
  | .remote _ packet, transaction => packet.payload.Submits maxItemBytes transaction
  | _, _ => False

/-- The blocks that come with an event. -/
def EventKind.Brings : EventKind -> Block -> Prop
  | .command (.block brought), block => brought = block
  | .remote _ packet, block => packet.payload.Brings maxItemBytes block
  | _, _ => False

end Items

/-!
## Health
-/

/-- What a session knows about its peer is complete. -/
structure Session.Healthy (config : NodeConfig) (session : Session) : Prop where
  introduced : session.versionReceived = true ->
    session.peer.nodeId.isSome = true ∧ session.peer.remoteNonce.isSome = true ∧
      session.endpoint.isSome = true
  established : session.peer.established = true -> session.versionReceived = true
  endpoint : forall endpoint, session.endpoint = some endpoint -> config.Accepts endpoint

/-- Candidates are kept under their accepted endpoints. -/
def PeerManager.Healthy (config : NodeConfig) (manager : PeerManager) : Prop :=
  forall endpoint entry, manager.entries.get? endpoint = some entry ->
    entry.endpoint = endpoint ∧ config.Accepts endpoint

/-- A download can be asked for. -/
structure PendingDownload.Healthy (download : PendingDownload) : Prop where
  tip : isHash download.tip = true
  token : forall token, download.token = some token -> isToken token = true
  start : download.token = none -> download.cursor = 0
  cursor : download.cursor ≤ MAX_HEIGHT

/-- The reserved bytes are those of the live snapshots. -/
structure SyncManager.Accounted (globalBytes : Nat) (sync : SyncManager) : Prop where
  sum : sync.snapshotBytes = sync.exports.total (fun snapshot => (snapshot.size : Int))
  bounded : sync.snapshotBytes ≤ globalBytes

def SyncManager.Healthy (sync : SyncManager) : Prop :=
  forall id download, sync.downloads.get? id = some download -> download.Healthy

namespace Node

variable {disk : Type}

structure Healthy (node : Node disk) : Prop where
  usable : Blockchain.ensureUsable node.chain = .ok ()
  nonempty : node.chain.blocks ≠ []
  height : node.chain.blocks.length ≤ MAX_HEIGHT + 1
  admits : node.config.AdmitsControl
  sessions : forall id session, node.sessions.get? id = some session ->
    session.Healthy node.config
  manager : node.manager.Healthy node.config
  dialTasks : forall endpoint, endpoint ∈ node.dialTasks -> node.config.Accepts endpoint
  sync : node.sync.Healthy

/-- Errors that close only the offending session. -/
def Rejected (e : PyError) (node : Node disk) : Prop :=
  node.Healthy -> rejectsPeer e = true

/-- Errors that a healthy node does not raise. -/
def Unhealthy (_ : PyError) (node : Node disk) : Prop :=
  ¬ node.Healthy

theorem Unhealthy.rejected {e : PyError} {node : Node disk} (h : Unhealthy e node) :
    Rejected e node :=
  fun hhealthy => (h hhealthy).elim

theorem rejected_of_refusal {e : PyError} {node : Node disk} (h : Refusal e) :
    Rejected e node := by
  intro _
  cases e with
  | networkError kind message =>
      cases kind with
      | protocol => rfl
      | policyLimit => rfl
      | _ => exact h.elim
  | _ => exact h.elim

/-!
## Moves of a session
-/

/-- A change that leaves alone what the other end has said and what is said to it. -/
structure Quiet (session next : Session) : Prop where
  peer : next.peer = session.peer
  endpoint : next.endpoint = session.endpoint
  dialEndpoint : next.dialEndpoint = session.dialEndpoint
  versionReceived : next.versionReceived = session.versionReceived
  ackReceived : next.ackReceived = session.ackReceived
  remoteHeight : next.remoteHeight = session.remoteHeight
  remoteTip : next.remoteTip = session.remoteTip
  rejectedAnchor : next.rejectedAnchor = session.rejectedAnchor ∨ next.rejectedAnchor = none
  syncState : next.syncState = session.syncState ∨ next.syncState ≠ .diverged
  error : next.error = session.error ∨
    next.error ≠ some (.failed (.remote .forkUnsupported))

section Chain

variable [Crypto] (store : Option (ChainStore disk)) (input : EventKind)

/-- What a node may say on a session, gossip apart. -/
def Says (id : Str) (chain : Blockchain) (session : Session) : Payload -> Prop
  | .version _ => False
  | .verack => session.versionReceived = true ∧
      exists payload requestId, input = .remote id { payload := .version payload
                                                     requestId := requestId }
  | .status payload => TipIs chain payload.height payload.tipHash
  | .blocks payload => TipIs chain payload.tipHeight payload.tipHash
  | .getBlocks payload =>
      TipIs chain payload.anchorHeight payload.anchorHash ∧
        payload.anchorHeight < session.remoteHeight
  | .error code _ =>
      code ≠ .forkUnsupported ∧
        (code = .unknownAnchor ->
          exists payload requestId,
            input = .remote id { payload := .getBlocks payload, requestId := requestId } ∧
              (chain.blocks[payload.anchorHeight]?).map Block.hash ≠ some payload.anchorHash)
  | .newTransaction _ => False
  | .newBlock _ => False
  | _ => True

/-- The height and tip a message reports. -/
def Reports : Payload -> Nat -> Str -> Prop
  | .status payload, height, tipHash => payload.height = height ∧ payload.tipHash = tipHash
  | .blocks payload, height, tipHash =>
      payload.tipHeight = height ∧ payload.tipHash = tipHash
  | _, _, _ => False

/-- A call of the chain that an event may lead to: its item comes with the event,
and a block is offered on top of the tip. -/
inductive Offered (config : NodeConfig) (chain : Blockchain) : Blockchain.Call -> Prop where
  | submit {transaction : Transaction} :
      input.Submits config.maxItemBytes transaction ->
      Offered config chain (.submitTransaction transaction)
  | block {block : Block} {height wallClock : Nat} :
      TipIs chain height block.previousBlockHash -> input.Brings config.maxItemBytes block ->
      Offered config chain (.addBlock block { currentTime := none, wallClock := wallClock })

/-- Put a session in the place of another. -/
def replace (node : Node disk) (id : Str) (session : Session) : Node disk :=
  { node with sessions := node.sessions.modify id (fun _ => session) }

/-- Moves that neither touch the chain nor the synchronisation state. -/
inductive Talk (speech : Str -> Blockchain -> Session -> Payload -> Prop) :
    Node disk -> Node disk -> Prop where
  | counted {node : Node disk} (counters : Counters) :
      Talk speech node { node with counters := counters }
  | drew {node : Node disk} : Talk speech node { node with drawn := node.drawn + 1 }
  | quiet {node : Node disk} {id : Str} {session next : Session} :
      node.sessions.get? id = some session -> Quiet session next ->
      Talk speech node (node.replace id next)
  | queued {node : Node disk} {id : Str} {session : Session} {packet : Packet} :
      node.sessions.get? id = some session -> node.lifecycle = .running ->
      session.peer.closed = false -> speech id node.chain session packet.payload ->
      Talk speech node (node.replace id
        { session with peer := { session.peer with queue := session.peer.queue ++ [packet] } })
  | overflowed {node : Node disk} {id : Str} {session : Session} :
      node.sessions.get? id = some session -> session.peer.closed = false ->
      Talk speech node (node.replace id { session with peer := session.peer.beginClose })

/-- The node after a call of its chain. -/
def called (node : Node disk) (call : Blockchain.Call) : Node disk :=
  { node with
    chain := (Blockchain.perform store call node.chain node.disk).2.1
    disk := (Blockchain.perform store call node.chain node.disk).2.2 }

/-- Why a session is found to have diverged. -/
def Divergence (id : Str) (chain : Blockchain) (session : Session) : Prop :=
  (exists tipHash, TipIs chain session.remoteHeight tipHash ∧ session.remoteTip ≠ tipHash) ∨
    session.rejectedAnchor.isSome = true ∨
    exists message requestId,
      input = .remote id { payload := .error .forkUnsupported message
                           requestId := requestId }

/-- Another open connection to the same node has no larger rank. -/
def Outranked (node : Node disk) (id : Str) (session : Session) : Prop :=
  exists other rival rank better, other ≠ id ∧ node.sessions.get? other = some rival ∧
    rival.peer.closed = false ∧ rival.versionReceived = true ∧
    rival.peer.nodeId = session.peer.nodeId ∧
    connectionRank node.nodeId session = .ok rank ∧
    connectionRank node.nodeId rival = .ok better ∧ Rank.lt rank better = false

inductive Move : Node disk -> Node disk -> Prop where
  | talk {node next : Node disk} : Talk (Says input) node next -> Move node next
  | relayed {node next : Node disk} :
      Talk (fun _ _ _ payload => payload.isRelay = true) node next -> Move node next
  | quietAll {node : Node disk} {f : Session -> Session} :
      (forall session, Quiet session (f session)) ->
      Move node { node with sessions := node.sessions.mapValues f }
  | performed {node : Node disk} {call : Blockchain.Call} :
      Offered input node.config node.chain call -> Move node (node.called store call)
  | synced {node : Node disk} {sync : SyncManager} :
      (node.sync.Accounted node.config.snapshotGlobalBytes ->
        sync.Accounted node.config.snapshotGlobalBytes) ->
      ((forall id packet, input = .remote id packet -> packet.Valid) ->
        node.sync.Healthy -> sync.Healthy) ->
      Move node { node with sync := sync }
  | managed {node : Node disk} {manager : PeerManager} {dialTasks : List Endpoint} :
      (node.manager.Healthy node.config -> manager.Healthy node.config) ->
      ((forall endpoint, endpoint ∈ node.dialTasks -> node.config.Accepts endpoint) ->
        forall endpoint, endpoint ∈ dialTasks -> node.config.Accepts endpoint) ->
      Move node { node with manager := manager, dialTasks := dialTasks }
  | closed {node : Node disk} {id : Str} {session : Session} :
      node.sessions.get? id = some session ->
      Move node (node.replace id
        { session with peer := { session.peer with closed := true } })
  | superseded {node : Node disk} {id : Str} {session : Session} :
      node.sessions.get? id = some session -> session.versionReceived = true ->
      Outranked node id session ->
      Move node (node.replace id
        { session with peer := { session.peer with closed := true } })
  | introduced {node : Node disk} {id : Str} {session : Session} {payload : VersionPayload}
      {requestId : Option Str} {endpoint : Endpoint} :
      node.sessions.get? id = some session -> session.peer.established = false ->
      input = .remote id { payload := .version payload, requestId := requestId } ->
      checkVersion node session payload = .ok endpoint ->
      Move node (node.replace id
        { session with
          endpoint := some endpoint
          peer :=
            { session.peer with
              nodeId := some payload.nodeId
              remoteNonce := some payload.connectionNonce }
          remoteHeight := payload.height
          remoteTip := payload.tipHash
          versionReceived := true })
  | acknowledged {node : Node disk} {id : Str} {session : Session}
      {requestId : Option Str} :
      node.sessions.get? id = some session -> session.peer.established = false ->
      input = .remote id { payload := .verack, requestId := requestId } ->
      session.versionReceived = true -> session.ackReceived = false ->
      Move node (node.replace id { session with ackReceived := true })
  | established {node : Node disk} {id : Str} {session : Session} :
      node.sessions.get? id = some session -> session.peer.closed = false ->
      session.versionReceived = true -> session.ackReceived = true ->
      (forall other rival, other ≠ id -> node.sessions.get? other = some rival ->
        rival.peer.nodeId = session.peer.nodeId -> rival.versionReceived = true ->
        rival.peer.closed = true) ->
      Move node (node.replace id
        { session with peer := { session.peer with established := true } })
  | heard {node : Node disk} {id : Str} {session : Session} {packet : Packet} {height : Nat}
      {tipHash : Str} :
      node.sessions.get? id = some session -> input = .remote id packet ->
      Reports packet.payload height tipHash ->
      Move node (node.replace id
        { session with remoteHeight := height, remoteTip := tipHash })
  | diverged {node : Node disk} {id : Str} {session next : Session} :
      node.sessions.get? id = some session -> Divergence input id node.chain session ->
      Quiet { session with
        syncState := .diverged
        error := some (.failed (.remote .forkUnsupported)) } next ->
      Move node (node.replace id next)
  | refused {node : Node disk} {id : Str} {session : Session} {message : Str}
      {requestId : Option Str} {anchor : Nat × Str} :
      node.sessions.get? id = some session ->
      input = .remote id { payload := .error .unknownAnchor message
                           requestId := requestId } ->
      Move node (node.replace id { session with rejectedAnchor := some anchor })
  | ticked {node : Node disk} : Move node { node with tickQueued := false }

/-!
## What moves keep
-/

section Replace

variable {node : Node disk} {id : Str} {session next : Session}

omit [Crypto] in
theorem get?_replace (hsession : node.sessions.get? id = some session) (other : Str) :
    (node.replace id next).sessions.get? other =
      if other = id then some next else node.sessions.get? other := by
  change (node.sessions.modify id _).get? other = _
  rw [Dict.get?_modify]
  by_cases h : other = id
  · rw [if_pos h, if_pos h, h, hsession]
    rfl
  · rw [if_neg h, if_neg h]

omit [Crypto] in
theorem get?_replace_self (hsession : node.sessions.get? id = some session) :
    (node.replace id next).sessions.get? id = some next := by
  rw [get?_replace hsession, if_pos rfl]

omit [Crypto] in
theorem replace_replace (later : Session) :
    (node.replace id next).replace id later = node.replace id later := by
  unfold replace
  rw [Dict.modify_modify]

omit [Crypto] in
theorem modifySession_run (hsession : node.sessions.get? id = some session)
    (f : Session -> Session) :
    modifySession id f node = .ok ⟨⟩ (node.replace id (f session)) := by
  unfold replace
  rw [← Dict.modify_of_get? hsession]
  rfl

end Replace

/-- What no handler changes, and how the rest may grow. -/
structure Steady (node next : Node disk) : Prop where
  config : next.config = node.config
  nodeId : next.nodeId = node.nodeId
  endpoint : next.endpoint = node.endpoint
  entropy : next.entropy = node.entropy
  lifecycle : next.lifecycle = node.lifecycle
  failure : next.failure = node.failure
  events : next.events = node.events
  inboundEvents : next.inboundEvents = node.inboundEvents
  inboundBytes : next.inboundBytes = node.inboundBytes
  closedPeers : next.closedPeers = node.closedPeers
  keys : next.sessions.keys = node.sessions.keys
  drawn : node.drawn ≤ next.drawn
  blocks : node.chain.blocks <+: next.chain.blocks

omit [Crypto] in
theorem Steady.refl (node : Node disk) : Steady node node :=
  ⟨rfl, rfl, rfl, rfl, rfl, rfl, rfl, rfl, rfl, rfl, rfl, le_refl _, List.prefix_rfl⟩

omit [Crypto] in
theorem Steady.trans {node middle next : Node disk} (h : Steady node middle)
    (h' : Steady middle next) : Steady node next :=
  ⟨h'.config.trans h.config, h'.nodeId.trans h.nodeId, h'.endpoint.trans h.endpoint,
    h'.entropy.trans h.entropy, h'.lifecycle.trans h.lifecycle, h'.failure.trans h.failure,
    h'.events.trans h.events, h'.inboundEvents.trans h.inboundEvents,
    h'.inboundBytes.trans h.inboundBytes, h'.closedPeers.trans h.closedPeers,
    h'.keys.trans h.keys, h.drawn.trans h'.drawn, h.blocks.trans h'.blocks⟩

omit [Crypto] in
theorem steady_replace (node : Node disk) (id : Str) (session : Session) :
    Steady node (node.replace id session) :=
  { Steady.refl node with keys := Dict.keys_modify _ _ _ }

theorem perform_blocks {chain : Blockchain} {call : Blockchain.Call} (d : disk) :
    (Blockchain.perform store call chain d).2.1.blocks = chain.blocks ∨
      exists block tip, chain.blocks.getLast? = some tip ∧ block.previousBlockHash = tip.hash ∧
        (Blockchain.perform store call chain d).2.1.blocks = chain.blocks ++ [block] := by
  rcases Blockchain.perform_live store call chain d with hsame | ⟨block, hprepares⟩
  · exact Or.inl (congrArg Blockchain.Live.blocks hsame)
  · generalize hnext : Blockchain.live (Blockchain.perform store call chain d).2.1 = next
      at hprepares
    have hblocks : (Blockchain.perform store call chain d).2.1.blocks = next.blocks :=
      congrArg Blockchain.Live.blocks hnext
    rw [hblocks]
    cases hprepares with
    | @addBlock block tip _ _ _ htip _ hlinked _ _ _ =>
        exact Or.inr ⟨block, tip, htip, hlinked.previousHash, rfl⟩
    | submitTransaction _ => exact Or.inl rfl
    | removePendingTransaction _ => exact Or.inl rfl

omit [Crypto] in
theorem Talk.steady {speech : Str -> Blockchain -> Session -> Payload -> Prop}
    {node next : Node disk} (h : Talk speech node next) :
    Steady node next := by
  cases h with
  | counted counters => exact { Steady.refl node with }
  | drew => exact { Steady.refl node with drawn := Nat.le_succ _ }
  | quiet _ _ => exact steady_replace _ _ _
  | queued _ _ _ _ => exact steady_replace _ _ _
  | overflowed _ _ => exact steady_replace _ _ _

theorem Move.steady {node next : Node disk} (h : Move store input node next) :
    Steady node next := by
  cases h with
  | talk h => exact h.steady
  | relayed h => exact h.steady
  | quietAll _ => exact { Steady.refl node with keys := Dict.keys_mapValues _ _ }
  | performed _ =>
      refine { Steady.refl node with blocks := ?_ }
      rcases perform_blocks store node.disk with h | ⟨block, _, _, _, h⟩
      · exact ⟨[], by rw [List.append_nil]; exact h.symm⟩
      · exact ⟨[block], h.symm⟩
  | synced _ _ => exact { Steady.refl node with }
  | managed _ _ => exact { Steady.refl node with }
  | closed _ => exact steady_replace _ _ _
  | superseded _ _ _ => exact steady_replace _ _ _
  | introduced _ _ _ _ => exact steady_replace _ _ _
  | acknowledged _ _ _ _ _ => exact steady_replace _ _ _
  | established _ _ _ _ _ => exact steady_replace _ _ _
  | heard _ _ _ => exact steady_replace _ _ _
  | diverged _ _ _ => exact steady_replace _ _ _
  | refused _ _ => exact steady_replace _ _ _
  | ticked => exact { Steady.refl node with }

variable {store input}

theorem moves_steady {node next : Node disk}
    (h : Relation.ReflTransGen (Move store input) node next) : Steady node next := by
  induction h with
  | refl => exact Steady.refl node
  | tail _ hlast ih => exact ih.trans hlast.steady

structure Apart (node next : Node disk) : Prop where
  chain : next.chain = node.chain
  disk : next.disk = node.disk
  sync : next.sync = node.sync
  manager : next.manager = node.manager
  dialTasks : next.dialTasks = node.dialTasks

section Talking

variable {speech : Str -> Blockchain -> Session -> Payload -> Prop} {node next : Node disk}

omit [Crypto] in
theorem Talk.apart (h : Talk speech node next) : Apart node next := by
  cases h with
  | counted _ => exact ⟨rfl, rfl, rfl, rfl, rfl⟩
  | drew => exact ⟨rfl, rfl, rfl, rfl, rfl⟩
  | quiet _ _ => exact ⟨rfl, rfl, rfl, rfl, rfl⟩
  | queued _ _ _ _ => exact ⟨rfl, rfl, rfl, rfl, rfl⟩
  | overflowed _ _ => exact ⟨rfl, rfl, rfl, rfl, rfl⟩

omit [Crypto] in
theorem talk_apart (h : Relation.ReflTransGen (Talk speech) node next) : Apart node next := by
  induction h with
  | refl => exact ⟨rfl, rfl, rfl, rfl, rfl⟩
  | tail _ hlast ih =>
      have hlater := hlast.apart
      exact ⟨hlater.chain.trans ih.chain, hlater.disk.trans ih.disk,
        hlater.sync.trans ih.sync, hlater.manager.trans ih.manager,
        hlater.dialTasks.trans ih.dialTasks⟩

omit [Crypto] in
theorem talk_steady (h : Relation.ReflTransGen (Talk speech) node next) :
    Steady node next := by
  induction h with
  | refl => exact Steady.refl node
  | tail _ hlast ih => exact ih.trans hlast.steady

end Talking

/-!
## Gossip

A handler passes an item on only right after its chain has accepted it, and
then at most once on each session.
-/

/-- The gossip that waits in the queue of a session. -/
def relays (session : Session) : List Payload :=
  (session.peer.queue.map Packet.payload).filter Payload.isRelay

def Silent (node next : Node disk) : Prop :=
  forall id session, node.sessions.get? id = some session ->
    exists later, next.sessions.get? id = some later ∧ relays later = relays session

omit [Crypto] in
theorem Silent.refl (node : Node disk) : Silent node node :=
  fun _ session hsession => ⟨session, hsession, rfl⟩

omit [Crypto] in
theorem Silent.trans {node middle next : Node disk} (h : Silent node middle)
    (h' : Silent middle next) : Silent node next := by
  intro id session hsession
  rcases h id session hsession with ⟨later, hlater, heq⟩
  rcases h' id later hlater with ⟨last, hlast, heq'⟩
  exact ⟨last, hlast, heq'.trans heq⟩

omit [Crypto] in
theorem silent_of_sessions {node next : Node disk} (h : next.sessions = node.sessions) :
    Silent node next := by
  intro id session hsession
  rw [h]
  exact ⟨session, hsession, rfl⟩

omit [Crypto] in
theorem silent_replace {node : Node disk} {id : Str} {session later : Session}
    (hsession : node.sessions.get? id = some session) (h : relays later = relays session) :
    Silent node (node.replace id later) := by
  intro other known hknown
  rw [get?_replace hsession]
  by_cases hsame : other = id
  · rw [if_pos hsame]
    rw [hsame, hsession] at hknown
    rw [← Option.some.inj hknown]
    exact ⟨later, rfl, h⟩
  · rw [if_neg hsame]
    exact ⟨known, hknown, rfl⟩

omit [Crypto] in
theorem relays_beginClose (session : Session) :
    relays { session with peer := session.peer.beginClose } = relays session := by
  unfold relays PeerConnection.beginClose
  split
  · rfl
  · rfl

omit [Crypto] in
theorem Talk.silent {speech : Str -> Blockchain -> Session -> Payload -> Prop}
    {node next : Node disk}
    (hplain : forall id chain session payload, speech id chain session payload ->
      payload.isRelay = false)
    (h : Talk speech node next) : Silent node next := by
  cases h with
  | counted _ => exact silent_of_sessions rfl
  | drew => exact silent_of_sessions rfl
  | quiet hsession hquiet =>
      apply silent_replace hsession
      unfold relays
      rw [hquiet.peer]
  | @queued _ _ packet hsession _ _ hspeech =>
      apply silent_replace hsession
      unfold relays
      rw [List.map_append, List.filter_append, List.map_singleton,
        List.filter_singleton, hplain _ _ _ _ hspeech]
      exact List.append_nil _
  | overflowed hsession _ =>
      apply silent_replace hsession
      exact relays_beginClose _

theorem Says.plain {id : Str} {chain : Blockchain} {session : Session} {payload : Payload}
    (h : Says input id chain session payload) : payload.isRelay = false := by
  cases payload with
  | newTransaction _ => exact h.elim
  | newBlock _ => exact h.elim
  | _ => rfl

/-- A move that leaves the chain and the gossip alone. -/
def Calm (store : Option (ChainStore disk)) (input : EventKind) (node next : Node disk) :
    Prop :=
  Move store input node next ∧ next.chain = node.chain ∧ Silent node next

theorem Talk.calm {node next : Node disk} (h : Talk (Says input) node next) :
    Calm store input node next :=
  ⟨Move.talk h, h.apart.chain, h.silent (fun _ _ _ _ => Says.plain)⟩

theorem calm_chain {node next : Node disk}
    (h : Relation.ReflTransGen (Calm store input) node next) : next.chain = node.chain := by
  induction h with
  | refl => rfl
  | tail _ hlast ih => exact hlast.right.left.trans ih

theorem calm_silent {node next : Node disk}
    (h : Relation.ReflTransGen (Calm store input) node next) : Silent node next := by
  induction h with
  | refl => exact Silent.refl node
  | tail _ hlast ih => exact ih.trans hlast.right.right

theorem calm_moves {node next : Node disk}
    (h : Relation.ReflTransGen (Calm store input) node next) :
    Relation.ReflTransGen (Move store input) node next :=
  h.lift id (fun _ _ hstep => hstep.left)

theorem calm_steady {node next : Node disk}
    (h : Relation.ReflTransGen (Calm store input) node next) : Steady node next :=
  moves_steady (calm_moves h)

/-- The message that passes on the item of a call. -/
def Relays (config : NodeConfig) : Blockchain.Call -> Payload -> Prop
  | .submitTransaction transaction, .newTransaction encoded =>
      packTransaction transaction config.maxItemBytes = .ok encoded
  | .addBlock block _, .newBlock encoded =>
      packBlock block config.maxItemBytes = .ok encoded
  | _, _ => False

/-- The item of a call is passed on at most once on each session. -/
def Echoes (call : Blockchain.Call) (node next : Node disk) : Prop :=
  forall id session, node.sessions.get? id = some session ->
    exists later, next.sessions.get? id = some later ∧
      (relays later = relays session ∨
        exists payload, Relays node.config call payload ∧
          relays later = relays session ++ [payload])

/-- The acts of a handler: calm moves, calls of the chain that fail, and calls that
succeed with the gossip that follows them. -/
inductive Act (store : Option (ChainStore disk)) (input : EventKind) :
    Node disk -> Node disk -> Prop where
  | calm {node next : Node disk} : Calm store input node next -> Act store input node next
  | refused {node : Node disk} {call : Blockchain.Call} :
      Offered input node.config node.chain call ->
      (Blockchain.perform store call node.chain node.disk).1 ≠ .ok true ->
      Act store input node (node.called store call)
  | accepted {node next : Node disk} {call : Blockchain.Call} :
      Offered input node.config node.chain call ->
      (Blockchain.perform store call node.chain node.disk).1 = .ok true ->
      Relation.ReflTransGen (Move store input) (node.called store call) next ->
      next.chain = (node.called store call).chain ->
      Echoes call (node.called store call) next -> Act store input node next

theorem Act.moves {node next : Node disk} (h : Act store input node next) :
    Relation.ReflTransGen (Move store input) node next := by
  cases h with
  | calm h => exact Relation.ReflTransGen.single h.left
  | refused hoffered _ => exact Relation.ReflTransGen.single (Move.performed hoffered)
  | accepted hoffered _ hmoves _ _ =>
      exact Relation.ReflTransGen.head (Move.performed hoffered) hmoves

theorem acts_moves {node next : Node disk}
    (h : Relation.ReflTransGen (Act store input) node next) :
    Relation.ReflTransGen (Move store input) node next := by
  induction h with
  | refl => exact Relation.ReflTransGen.refl
  | tail _ hlast ih => exact ih.trans hlast.moves

theorem TipIs.isHash {chain : Blockchain} {height : Nat} {tipHash : Str}
    (h : TipIs chain height tipHash) : isHash tipHash = true := by
  rcases h with ⟨block, _, _, heq⟩
  rw [← heq]
  exact block.hash_isHash

theorem TipIs.height_le {node : Node disk} {height : Nat} {tipHash : Str}
    (h : TipIs node.chain height tipHash) (hhealthy : node.Healthy) : height ≤ MAX_HEIGHT := by
  rcases h with ⟨_, _, hlength, _⟩
  have hbound := hhealthy.height
  omega

omit [Crypto] in
theorem Steady.session {node next : Node disk} (h : Steady node next) {id : Str}
    {session : Session} (hsession : node.sessions.get? id = some session) :
    exists later, next.sessions.get? id = some later := by
  apply Dict.exists_get?_of_mem_keys
  rw [h.keys]
  exact Dict.mem_keys_of_get? hsession

end Chain

end Node

end Network

end PyChain
