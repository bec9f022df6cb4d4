import PyChain.Network.Handlers

/-!
# Turns of the event loop

What an event of a node does besides the handlers of its dispatcher: sockets
open and close, readers queue what they decode, writers take what is queued.
-/

namespace PyChain

open Foundation

namespace Network

namespace Node

variable {disk : Type}

/-- Readers, writers and closing tasks only change the transport of a session. -/
structure Carried (session next : Session) : Prop where
  rest : next = { session with peer := next.peer, ready := next.ready }
  peer : next.peer =
    { session.peer with
      established := next.peer.established
      closed := next.peer.closed
      closing := next.peer.closing
      unexpectedError := next.peer.unexpectedError
      queue := next.peer.queue
      reading := next.peer.reading
      messageBucket := next.peer.messageBucket
      byteBucket := next.peer.byteBucket }
  closed : session.peer.closed = true -> next.peer.closed = true
  established : next.peer.established = session.peer.established ∨
    next.peer.established = false ∧ next.peer.closed = true
  queue : next.peer.queue = session.peer.queue ∨
    next.peer.queue = [] ∧ session.peer.closing = true

theorem Carried.beginClose (session : Session) :
    Carried session { session with peer := session.peer.beginClose } := by
  unfold PeerConnection.beginClose
  split
  · exact ⟨rfl, rfl, fun h => h, Or.inl rfl, Or.inl rfl⟩
  · exact ⟨rfl, rfl, fun _ => rfl, Or.inr ⟨rfl, rfl⟩, Or.inl rfl⟩

section Chain

variable [Crypto] (event : NodeEvent)

/-- What an event may queue for the dispatcher. -/
def Queues (config : NodeConfig) : EventKind -> Prop
  | .tick => event = .timer
  | .remote id packet =>
      exists body, event = .readBody id body ∧
        decodeReceived body config.maxFrameBytes = .ok packet
  | .command command => event = .call command

/-- What a new connection says first. -/
def Greets (nodeId : Str) (_ : Str) (chain : Blockchain) (session : Session) :
    Payload -> Prop
  | .version payload =>
      payload.nodeId = nodeId ∧ payload.connectionNonce = session.peer.connectionNonce ∧
        TipIs chain payload.height payload.tipHash
  | _ => False

/-- The node with a new connection. -/
def opened (node : Node disk) (remote : Endpoint) (dialEndpoint : Option Endpoint) (now : Rat) :
    Node disk :=
  { node with
    drawn := node.drawn + 2
    sessions := node.sessions.set (node.entropy.token node.drawn)
      (newSession node.config
        (PeerConnection.create node.config (node.entropy.token node.drawn)
          (node.entropy.token (node.drawn + 1)) dialEndpoint.isSome remote now)
        dialEndpoint now) }

/-- The turns of the event loop. -/
inductive Turn : Node disk -> Node disk -> Prop where
  | bookkept {node : Node disk} {inboundEvents inboundBytes : Int} {drawn : Nat}
      {tickQueued : Bool} :
      node.drawn ≤ drawn ->
      Turn node { node with
        inboundEvents := inboundEvents
        inboundBytes := inboundBytes
        drawn := drawn
        tickQueued := tickQueued }
  | ended {node : Node disk} {lifecycle : Lifecycle} {failure : Option PyError} :
      lifecycle ≠ .running ->
      Turn node { node with lifecycle := lifecycle, failure := failure }
  | managed {node : Node disk} {manager : PeerManager} {dialTasks : List Endpoint} :
      (node.manager.Healthy node.config -> manager.Healthy node.config) ->
      ((forall endpoint, endpoint ∈ node.dialTasks -> node.config.Accepts endpoint) ->
        forall endpoint, endpoint ∈ dialTasks -> node.config.Accepts endpoint) ->
      Turn node { node with manager := manager, dialTasks := dialTasks }
  | synced {node : Node disk} {sync : SyncManager} :
      (node.sync.Accounted node.config.snapshotGlobalBytes ->
        sync.Accounted node.config.snapshotGlobalBytes) ->
      (node.sync.Healthy -> sync.Healthy) -> Turn node { node with sync := sync }
  | carried {node : Node disk} {id : Str} {f : Session -> Session} :
      (forall session, node.sessions.get? id = some session -> Carried session (f session)) ->
      Turn node { node with sessions := node.sessions.modify id f }
  | carriedAll {node : Node disk} {f : Session -> Session} :
      (forall session, Carried session (f session)) ->
      Turn node { node with sessions := node.sessions.mapValues f }
  | written {node : Node disk} {id : Str} :
      event = .wrote id ->
      Turn node { node with
        sessions := node.sessions.modify id (fun session =>
          { session with peer := { session.peer with queue := session.peer.queue.tail } }) }
  | opened {node : Node disk} {remote : Endpoint} {dialEndpoint : Option Endpoint} {now : Rat} :
      (forall endpoint, dialEndpoint = some endpoint -> endpoint ∈ node.dialTasks) ->
      Turn node (node.opened remote dialEndpoint now)
  | greeted {node next : Node disk} : Talk (Greets node.nodeId) node next -> Turn node next
  | received {node : Node disk} {item : Event} :
      node.lifecycle = .running -> Queues event node.config item.kind ->
      Turn node { node with events := node.events ++ [item] }
  | popped {node : Node disk} {item : Event} {rest : List Event} :
      node.events = item :: rest -> Turn node { node with events := rest }
  | left {node : Node disk} {id : Str} {session : Session} :
      node.sessions.get? id = some session -> session.peer.closing = true ->
      Turn node { node with closedPeers := node.closedPeers ++ [id] }
  | reaped {node : Node disk} {id : Str} :
      id ∈ node.closedPeers ->
      Turn node { node with
        closedPeers := node.closedPeers.erase id
        sessions := node.sessions.erase id }

variable {event} {node : Node disk}

/-!
## Reservations
-/

theorem reserve_leads {size : Nat} {raised : PyError -> Node disk -> Prop} :
    Leads (Turn event) (reserve size) node
      (fun answer node' => answer = true -> node.lifecycle = .running ∧
        node'.lifecycle = .running ∧ node'.sessions = node.sessions ∧
        node'.config = node.config) raised := by
  unfold reserve
  apply leads_get_bind
  apply leads_ite
  · intro _
    apply leads_pure
    intro h
    cases h
  · intro hroom
    have hrunning : node.lifecycle = .running := by
      by_contra h
      exact hroom (Or.inl h)
    have hmove : Turn event node
        { node with
          inboundEvents := node.inboundEvents + 1
          inboundBytes := node.inboundBytes + size } := Turn.bookkept (le_refl _)
    exact leads_of_ok rfl (Relation.ReflTransGen.single hmove)
      (fun _ => ⟨hrunning, hrunning, rfl, rfl⟩)

theorem release_leads {size : Nat} :
    Leads (Turn event) (release size) node (fun _ node' => node'.sessions = node.sessions)
      (fun _ node' => node'.sessions = node.sessions) := by
  unfold release
  have hmove : Turn event node
      { node with
        inboundEvents := node.inboundEvents - 1
        inboundBytes := node.inboundBytes - size } := Turn.bookkept (le_refl _)
  refine leads_modify_bind (Relation.ReflTransGen.single hmove) ?_
  apply leads_get_bind
  apply leads_ite
  · intro _
    exact leads_throw rfl
  · intro _
    exact leads_pure rfl

theorem enqueue_leads {item : Event} (hrunning : node.lifecycle = .running)
    (hqueues : Queues event node.config item.kind) :
    Leads (Turn event) (enqueue item) node (fun _ node' => node'.sessions = node.sessions)
      (fun _ node' => node' = node) := by
  unfold enqueue
  apply leads_get_bind
  apply leads_ite
  · intro _
    exact leads_throw rfl
  · intro _
    exact leads_of_ok rfl (Relation.ReflTransGen.single (Turn.received hrunning hqueues)) rfl

theorem fatal_leads {e : PyError} {raised : PyError -> Node disk -> Prop} :
    Leads (Turn event) (fatal e) node (fun _ node' => node'.sessions = node.sessions)
      raised := by
  unfold fatal
  refine leads_modify ?_ ?_
  · split
    · exact Relation.ReflTransGen.single (Turn.ended (by decide))
    · exact Relation.ReflTransGen.refl
  · split
    · rfl
    · rfl

/-!
## Readers, writers and closing tasks
-/

theorem modifyPeer_leads {id : Str} {f : PeerConnection -> PeerConnection}
    {raised : PyError -> Node disk -> Prop}
    (hcarried : forall session, node.sessions.get? id = some session ->
      Carried session { session with peer := f session.peer }) :
    Leads (Turn event) (modifyPeer id f) node
      (fun _ node' => node'.sessions = node.sessions.modify id
        (fun session => { session with peer := f session.peer }) ∧
          node'.lifecycle = node.lifecycle ∧ node'.config = node.config) raised := by
  exact leads_modify (Relation.ReflTransGen.single (Turn.carried hcarried)) ⟨rfl, rfl, rfl⟩

theorem leads_transport {id : Str} {f : PeerConnection -> PeerConnection}
    {raised : PyError -> Node disk -> Prop}
    (hcarried : forall session : Session, Carried session { session with peer := f session.peer }) :
    Leads (Turn event) (modifyPeer id f) node (fun _ _ => True) raised :=
  (modifyPeer_leads (fun session _ => hcarried session)).true

theorem stopReader_leads {id : Str} {e : PyError} {raised : PyError -> Node disk -> Prop} :
    Leads (Turn event) (stopReader id e) node (fun _ _ => True) raised := by
  unfold stopReader
  apply leads_transport
  intro session
  unfold PeerConnection.beginClose
  simp only
  split
  · exact ⟨rfl, rfl, fun h => h, Or.inl rfl, Or.inl rfl⟩
  · exact ⟨rfl, rfl, fun _ => rfl, Or.inr ⟨rfl, rfl⟩, Or.inl rfl⟩

theorem releaseReading_leads {id : Str} {known : Session}
    (hknown : node.sessions.get? id = some known) :
    Leads (Turn event) (releaseReading id) node
      (fun _ node' => node'.sessions.get? id = some
        { known with peer := { known.peer with reading := none } })
      (fun _ _ => True) := by
  unfold releaseReading
  apply leads_session_bind hknown
  cases hreading : known.peer.reading with
  | none =>
      have hsame : ({ known with peer := { known.peer with reading := none } } : Session) =
          known := by
        rw [← hreading]
      rw [hsame]
      exact leads_pure hknown
  | some size =>
      have hcarried : forall session, node.sessions.get? id = some session ->
          Carried session { session with peer := { session.peer with reading := none } } :=
        fun _ _ => ⟨rfl, rfl, fun h => h, Or.inl rfl, Or.inl rfl⟩
      refine leads_bind (modifyPeer_leads hcarried) ?_
      rintro _ later _ ⟨hsessions, _, _⟩
      refine release_leads.weaken ?_ (fun _ _ _ _ => trivial)
      intro _ last _ hsame
      rw [hsame, hsessions, Dict.get?_modify, if_pos rfl, hknown]
      rfl

theorem readPrefix_leads {env : Env} {id : Str} {a b c d : UInt8}
    {raised : PyError -> Node disk -> Prop} :
    Leads (Turn event) (readPrefix env id a b c d) node (fun _ _ => True) raised := by
  unfold readPrefix
  apply leads_get_bind
  split
  · exact leads_pure trivial
  rename_i known hknown
  apply leads_ite
  · intro _
    exact leads_pure trivial
  intro _
  have hquiet (f : PeerConnection -> PeerConnection)
      (hf : forall session : Session, Carried session { session with peer := f session.peer })
      (later : Node disk) : Leads (Turn event) (modifyPeer id f) later (fun _ _ => True)
        (fun _ _ => True) := leads_transport hf
  refine leads_tryCatch_any ?_ (fun _ _ _ => stopReader_leads)
  apply leads_lift_bind
  · intro size _
    refine leads_bind (hquiet _ ?_ node) ?_
    · intro session
      exact ⟨rfl, rfl, fun h => h, Or.inl rfl, Or.inl rfl⟩
    intro _ later _ _
    apply leads_ite
    · intro _
      exact leads_throw trivial
    intro _
    refine leads_bind reserve_leads.true ?_
    intro room reserved _ _
    apply leads_ite
    · intro _
      apply hquiet
      intro session
      exact ⟨rfl, rfl, fun h => h, Or.inl rfl, Or.inl rfl⟩
    · intro _
      apply hquiet
      exact Carried.beginClose
  · intro _ _
    trivial

theorem readBody_leads {id : Str} {body : Bytes} {raised : PyError -> Node disk -> Prop} :
    Leads (Turn (.readBody id body)) (readBody id body) node (fun _ _ => True) raised := by
  unfold readBody
  apply leads_get_bind
  split
  · exact leads_pure trivial
  rename_i known hknown
  split
  · exact leads_pure trivial
  rename_i size hsize
  apply leads_ite
  · intro _
    exact leads_pure trivial
  intro _
  have hreleased : forall later : Node disk,
      later.sessions.get? id = some known ->
      Leads (Turn (.readBody id body)) (releaseReading id) later (fun _ _ => True)
        (fun _ _ => True) :=
    fun _ hlater => (releaseReading_leads hlater).true
  have htaken : Leads (Turn (.readBody id body))
      (tryCatch (do
          let packet <- lift (decodeReceived body node.config.maxFrameBytes)
          if node.lifecycle ≠ .running then return false
          else
            enqueue { kind := .remote id packet, size := size }
            return true)
        (fun e => do
          releaseReading id
          throw e)) node (fun _ node' => node'.sessions.get? id = some known)
      (fun _ _ => True) := by
    have hbody : Leads (Turn (.readBody id body))
        (do
          let packet <- lift (decodeReceived body node.config.maxFrameBytes)
          if node.lifecycle ≠ .running then return false
          else
            enqueue { kind := .remote id packet, size := size }
            return true) node (fun _ node' => node'.sessions.get? id = some known)
        (fun _ node' => node' = node) := by
      apply leads_lift_bind
      · intro packet hpacket
        apply leads_ite
        · intro _
          exact leads_pure hknown
        · intro hrunning
          have hqueues : Queues (.readBody id body) node.config (.remote id packet) :=
            ⟨body, rfl, hpacket⟩
          refine leads_bind (enqueue_leads (not_not.mp hrunning) hqueues) ?_
          intro _ later _ hsessions
          exact leads_pure (hsessions ▸ hknown)
      · intro e _
        rfl
    refine leads_tryCatch hbody ?_
    intro e later _ hlater
    rw [hlater]
    exact leads_bind (hreleased node hknown) (fun _ _ _ _ => leads_throw trivial)
  refine leads_tryCatch_any (leads_bind htaken ?_) (fun _ _ _ => stopReader_leads)
  intro taken later _ hlater
  apply leads_ite
  · intro _
    exact leads_transport (fun _ => ⟨rfl, rfl, fun h => h, Or.inl rfl, Or.inl rfl⟩)
  · intro _
    exact hreleased later hlater

theorem readStopped_leads {id : Str} {raised : PyError -> Node disk -> Prop} :
    Leads (Turn event) (readStopped id) node (fun _ _ => True) raised := by
  unfold readStopped
  apply leads_get_bind
  split
  · exact leads_pure trivial
  rename_i known hknown
  have hbody : Leads (Turn event)
      (do
        releaseReading id
        throw .osError : NodeM disk Unit) node (fun _ _ => True) (fun _ _ => True) :=
    leads_bind (releaseReading_leads hknown) (fun _ _ _ _ => leads_throw trivial)
  exact leads_tryCatch hbody (fun _ _ _ _ => stopReader_leads)

theorem cleanedUp_leads {id : Str} :
    Leads (Turn event) (cleanedUp id) node (fun _ _ => True) (fun _ _ => True) := by
  unfold cleanedUp
  apply leads_get_bind
  split
  · exact leads_pure trivial
  rename_i known hknown
  apply leads_ite
  · intro _
    exact leads_pure trivial
  intro hclosing
  have hclosing' : known.peer.closing = true := by simpa using hclosing
  refine leads_bind (releaseReading_leads hknown) ?_
  intro _ released _ hreleased
  have hcarried : forall session, released.sessions.get? id = some session ->
      Carried session
        { session with
          ready := some (session.ready.getD false)
          peer := { session.peer with queue := [] } } := by
    intro session hsession
    rw [hreleased] at hsession
    rw [← Option.some.inj hsession]
    exact ⟨rfl, rfl, fun h => h, Or.inl rfl, Or.inr ⟨rfl, hclosing'⟩⟩
  refine leads_modify_bind (Relation.ReflTransGen.single (Turn.carried hcarried)) ?_
  have hemptied : ({ released with
      sessions := released.sessions.modify id (fun session =>
        { session with
          ready := some (session.ready.getD false)
          peer := { session.peer with queue := [] } }) } : Node disk).sessions.get? id = some
        { known with
          ready := some (known.ready.getD false)
          peer := { known.peer with reading := none, queue := [] } } := by
    change (released.sessions.modify id _).get? id = _
    rw [Dict.get?_modify, if_pos rfl, hreleased]
    rfl
  generalize ({ released with sessions := _ } : Node disk) = emptied at hemptied
  refine leads_modify_bind ?_ ?_
  · split
    · exact Relation.ReflTransGen.refl
    · exact Relation.ReflTransGen.single (Turn.left hemptied hclosing')
  · split
    · exact leads_pure trivial
    · exact fatal_leads.true

/-!
## Local callers and the timer
-/

theorem call_leads {command : Command} :
    Leads (Turn (.call command)) (call command) node (fun _ _ => True) (fun _ _ => True) := by
  unfold call
  apply leads_get_bind
  apply leads_ite
  · intro _
    exact leads_throw trivial
  intro _
  split
  · exact leads_pure trivial
  rename_i size _
  refine leads_bind reserve_leads ?_
  intro room later _ hroom
  apply leads_ite
  · intro h
    rcases hroom h with ⟨_, hrunning, _, _⟩
    have hqueues : Queues (.call command) later.config (.command command) := rfl
    refine leads_tryCatch (enqueue_leads hrunning hqueues).true ?_
    intro e later' _ _
    exact leads_bind (release_leads.weaken (fun _ _ _ _ => trivial) (fun _ _ _ _ => trivial))
      (fun _ _ _ _ => leads_throw trivial)
  · intro _
    exact leads_throw trivial

theorem timer_leads {raised : PyError -> Node disk -> Prop} :
    Leads (Turn .timer) timer node (fun _ _ => True) raised := by
  unfold timer
  apply leads_get_bind
  apply leads_ite
  · intro _
    have hbody : Leads (Turn .timer)
        (do
          if <- reserve 1 then
            modify (fun node => { node with tickQueued := true })
            enqueue { kind := .tick, size := 1 } : NodeM disk Unit) node (fun _ _ => True)
        (fun _ _ => True) := by
      refine leads_bind reserve_leads ?_
      intro room later _ hroom
      apply leads_ite
      · intro h
        rcases hroom h with ⟨_, hrunning, _, _⟩
        refine leads_modify_bind (Relation.ReflTransGen.single (Turn.bookkept (le_refl _))) ?_
        have hrunning' : ({ later with tickQueued := true } : Node disk).lifecycle = .running :=
          hrunning
        have hqueues : Queues .timer later.config ({ kind := .tick, size := 1 } : Event).kind :=
          rfl
        exact (enqueue_leads hrunning' hqueues).weaken (fun _ _ _ _ => trivial)
          (fun _ _ _ _ => trivial)
      · intro _
        exact leads_pure trivial
    exact leads_tryCatch hbody (fun _ _ _ _ => fatal_leads.true)
  · intro _
    exact leads_pure trivial

theorem stop_leads {raised : PyError -> Node disk -> Prop} :
    Leads (Turn event) stop node (fun _ _ => True) raised := by
  unfold stop
  refine leads_modify ?_ trivial
  split
  · exact Relation.ReflTransGen.single (Turn.ended (by decide))
  · exact Relation.ReflTransGen.refl

/-!
## Connections
-/

theorem talk_turns {nodeId : Str} {next : Node disk} (hnodeId : node.nodeId = nodeId)
    (h : Relation.ReflTransGen (Talk (Greets nodeId)) node next) :
    Relation.ReflTransGen (Turn event) node next := by
  induction h with
  | refl => exact Relation.ReflTransGen.refl
  | @tail middle last hmoves hlast ih =>
      refine ih.tail (Turn.greeted ?_)
      rw [(talk_steady hmoves).nodeId, hnodeId]
      exact hlast

theorem attach_leads {env : Env} {remote : Endpoint} {dialEndpoint : Option Endpoint}
    (hdial : forall endpoint, dialEndpoint = some endpoint -> endpoint ∈ node.dialTasks) :
    Leads (Turn event) (attach env remote dialEndpoint) node (fun _ _ => True)
      (fun _ _ => True) := by
  have hopened : Turn event node (node.opened remote dialEndpoint env.now) := Turn.opened hdial
  have hself : (node.opened remote dialEndpoint env.now).sessions.get?
      (node.entropy.token node.drawn) = some
        (newSession node.config
          (PeerConnection.create node.config (node.entropy.token node.drawn)
            (node.entropy.token (node.drawn + 1)) dialEndpoint.isSome remote env.now)
          dialEndpoint env.now) := by
    change (node.sessions.set _ _).get? _ = _
    rw [Dict.get?_set, if_pos rfl]
  have hrun : attach env remote dialEndpoint node =
      (do
        let current <- tip
        discard (send (node.entropy.token node.drawn)
          { payload := .version
              { networkId := NETWORK_ID
                genesisHash := GENESIS_HASH
                nodeId := node.nodeId
                connectionNonce := node.entropy.token (node.drawn + 1)
                listenPort := node.endpoint.port
                height := current.1
                tipHash := current.2 }
            requestId := none })
        return node.entropy.token node.drawn : NodeM disk Str)
        (node.opened remote dialEndpoint env.now) := rfl
  refine leads_of_run hrun (Relation.ReflTransGen.single hopened) ?_
  apply leads_tip_bind
  · intro height tipHash htip
    have hgreets : Leads (Talk (Greets node.nodeId))
        (send (node.entropy.token node.drawn)
          { payload := .version
              { networkId := NETWORK_ID
                genesisHash := GENESIS_HASH
                nodeId := node.nodeId
                connectionNonce := node.entropy.token (node.drawn + 1)
                listenPort := node.endpoint.port
                height := height
                tipHash := tipHash }
            requestId := none }) (node.opened remote dialEndpoint env.now)
        (fun _ _ => True) (fun _ _ => True) :=
      (send_leads hself ⟨rfl, rfl, htip⟩).weaken (fun _ _ _ _ => trivial)
        (fun _ _ _ _ => trivial)
    have hturns : Leads (Turn event)
        (send (node.entropy.token node.drawn)
          { payload := .version
              { networkId := NETWORK_ID
                genesisHash := GENESIS_HASH
                nodeId := node.nodeId
                connectionNonce := node.entropy.token (node.drawn + 1)
                listenPort := node.endpoint.port
                height := height
                tipHash := tipHash }
            requestId := none }) (node.opened remote dialEndpoint env.now)
        (fun _ _ => True) (fun _ _ => True) :=
      hgreets.along (fun _ hmoves => talk_turns rfl hmoves)
    exact leads_bind hturns.discard (fun _ _ _ _ => leads_pure trivial)
  · intro _ _
    trivial

theorem acceptedSocket_leads {env : Env} {remote : Endpoint}
    {raised : PyError -> Node disk -> Prop} :
    Leads (Turn event) (acceptedSocket env remote) node (fun _ _ => True) raised := by
  unfold acceptedSocket
  apply leads_get_bind
  apply leads_ite
  · intro _
    exact leads_pure trivial
  intro _
  split
  · exact leads_pure trivial
  · have hdial : forall endpoint, (none : Option Endpoint) = some endpoint ->
        endpoint ∈ node.dialTasks := by
      intro endpoint h
      cases h
    exact leads_tryCatch (attach_leads hdial).discard (fun _ _ _ _ => fatal_leads.true)

theorem connect_leads {env : Env} {endpoint : Endpoint} :
    Leads (Turn event) (connect env endpoint) node (fun _ _ => True) (fun _ _ => True) := by
  unfold connect
  apply leads_get_bind
  apply leads_ite
  · intro _
    exact leads_throw trivial
  intro _
  apply leads_lift_bind _ (fun _ _ => trivial)
  intro found hfound
  rcases validateEndpoint_accepted hfound with ⟨hsame, haccepts⟩
  rw [hsame]
  apply leads_ite
  · intro _
    exact leads_throw trivial
  intro _
  apply leads_ite
  · intro _
    exact leads_pure trivial
  intro _
  apply leads_ite
  · intro _
    exact leads_throw trivial
  intro _
  apply leads_lift_bind _ (fun _ _ => trivial)
  intro added hadded
  apply leads_drawJitter_bind (Turn.bookkept (Nat.le_succ _))
  intro jitter
  apply leads_lift_bind _ (fun _ _ => trivial)
  intro marked hmarked
  refine leads_modify (Relation.ReflTransGen.single (Turn.managed ?_ ?_)) trivial
  · intro hmanager
    exact PeerManager.markAttempt_healthy hmarked
      (PeerManager.addCandidate_healthy hadded hmanager)
  · intro hdials other hother
    rcases List.mem_append.mp hother with hold | hnew
    · exact hdials other hold
    · rw [List.mem_singleton.mp hnew]
      exact haccepts

theorem dialled_leads {env : Env} {endpoint remote : Endpoint} :
    Leads (Turn event) (dialled env endpoint remote) node (fun _ _ => True)
      (fun _ _ => True) := by
  unfold dialled
  apply leads_get_bind
  apply leads_ite
  · rintro ⟨_, hdial⟩
    have hdials : forall found, some endpoint = some found -> found ∈ node.dialTasks := by
      intro found hfound
      rw [← Option.some.inj hfound]
      exact hdial
    exact (attach_leads hdials).discard
  · intro _
    exact leads_pure trivial

theorem dialFailed_leads {env : Env} {endpoint : Endpoint} :
    Leads (Turn event) (dialFailed env endpoint) node (fun _ _ => True) (fun _ _ => True) := by
  unfold dialFailed
  apply leads_drawJitter_bind (Turn.bookkept (Nat.le_succ _))
  intro jitter
  apply leads_get_bind
  apply leads_lift_bind _ (fun _ _ => trivial)
  intro manager hmanager
  generalize hdrew : ({ node with drawn := node.drawn + 1 } : Node disk) = drew at hmanager ⊢
  have hmanaged : Turn event drew
      { drew with manager := manager, dialTasks := drew.dialTasks.erase endpoint } :=
    Turn.managed (PeerManager.markDisconnected_healthy hmanager)
      (fun hdials other hother => hdials other (List.mem_of_mem_erase hother))
  have hclosed : Turn event
      { drew with manager := manager, dialTasks := drew.dialTasks.erase endpoint }
      { drew with
        manager := manager
        dialTasks := drew.dialTasks.erase endpoint
        sessions := drew.sessions.mapValues (fun session =>
          if session.dialEndpoint = some endpoint then
            { session with peer := session.peer.beginClose }
          else session) } := by
    apply Turn.carriedAll
    intro session
    split
    · exact Carried.beginClose session
    · exact ⟨rfl, rfl, fun h => h, Or.inl rfl, Or.inl rfl⟩
  exact leads_of_ok rfl ((Relation.ReflTransGen.single hmanaged).tail hclosed) trivial

/-!
## Turns of the dispatcher
-/

theorem syncDisconnected_leads {id : Str} {raised : PyError -> Node disk -> Prop} :
    Leads (Turn event) (syncDisconnected id) node
      (fun _ node' => node'.sessions = node.sessions ∧ node'.closedPeers = node.closedPeers)
      raised := by
  unfold syncDisconnected dropExport modifySync
  refine leads_modify_bind (Relation.ReflTransGen.single (Turn.synced ?_ ?_)) ?_
  · intro haccounted
    simp only
    split
    · exact haccounted
    · rename_i snapshot hexport
      exact accounted_erase hexport haccounted
  · intro hhealthy
    simp only
    split
    · exact hhealthy
    · exact hhealthy
  · refine leads_modify (Relation.ReflTransGen.single (Turn.synced ?_ ?_)) ⟨rfl, rfl⟩
    · intro haccounted
      exact ⟨haccounted.sum, haccounted.bounded⟩
    · intro hhealthy other download hdownload
      rw [Dict.get?_erase] at hdownload
      split at hdownload
      · cases hdownload
      · exact hhealthy other download hdownload

/-- Sessions that are still there are as they were. -/
def Thinned (node next : Node disk) : Prop :=
  forall id session, next.sessions.get? id = some session ->
    node.sessions.get? id = some session

theorem reapPeer_leads {env : Env} {id : Str} (hid : id ∈ node.closedPeers) :
    Leads (Turn event) (reapPeer env id) node
      (fun _ node' => Thinned node node' ∧ node'.closedPeers = node.closedPeers.erase id)
      (fun _ node' => Thinned node node') := by
  have hreaped : Turn event node
      { node with
        closedPeers := node.closedPeers.erase id
        sessions := node.sessions.erase id } := Turn.reaped hid
  have hthin : forall next : Node disk, next.sessions = node.sessions.erase id ->
      Thinned node next := by
    intro next hnext other session hsession
    rw [hnext, Dict.get?_erase] at hsession
    split at hsession
    · cases hsession
    · exact hsession
  unfold reapPeer
  apply leads_get_bind
  refine leads_modify_bind (f := fun _ => { node with
    closedPeers := node.closedPeers.erase id
    sessions := node.sessions.erase id }) (Relation.ReflTransGen.single hreaped) ?_
  split
  · exact leads_pure ⟨hthin _ rfl, rfl⟩
  rename_i session hsession
  refine leads_bind syncDisconnected_leads ?_
  rintro _ left _ ⟨hsessions, hclosed⟩
  split
  · exact leads_pure ⟨hthin _ hsessions, hclosed⟩
  rename_i endpoint hendpoint
  apply leads_get_bind
  apply leads_ite
  · intro _
    apply leads_drawJitter_bind (Turn.bookkept (Nat.le_succ _))
    intro jitter
    apply leads_get_bind
    apply leads_lift_bind
    · intro manager hmanager
      have hmanaged : Turn event { left with drawn := left.drawn + 1 }
          { left with drawn := left.drawn + 1, manager := manager } :=
        Turn.managed (PeerManager.markDisconnected_healthy hmanager) (fun h => h)
      exact leads_of_ok rfl (Relation.ReflTransGen.single hmanaged) ⟨hthin _ hsessions, hclosed⟩
    · intro _ _
      exact hthin _ hsessions
  · intro _
    exact leads_pure ⟨hthin _ hsessions, hclosed⟩

theorem reapAll_leads {env : Env} (ids : List Str) : forall node : Node disk,
    node.closedPeers = ids -> Leads (Turn event) (ids.forM (reapPeer env)) node
      (fun _ node' => Thinned node node') (fun _ node' => Thinned node node') := by
  induction ids with
  | nil =>
      intro node _
      exact leads_pure (fun _ _ h => h)
  | cons id rest ih =>
      intro node hids
      have hmem : id ∈ node.closedPeers := by
        rw [hids]
        exact List.mem_cons_self
      rw [List.forM_eq_forM, List.forM_cons]
      refine leads_bind (reapPeer_leads hmem) ?_
      rintro _ later _ ⟨hthin, hclosed⟩
      have hrest : later.closedPeers = rest := by
        rw [hclosed, hids, List.erase_cons_head]
      refine (ih later hrest).weaken ?_ ?_
      · intro _ last _ hlater id' session hsession
        exact hthin id' session (hlater id' session hsession)
      · intro _ last _ hlater id' session hsession
        exact hthin id' session (hlater id' session hsession)

theorem reapPeers_leads {env : Env} :
    Leads (Turn event) (reapPeers env) node (fun _ node' => Thinned node node')
      (fun _ node' => Thinned node node') := by
  unfold reapPeers
  apply leads_get_bind
  exact reapAll_leads node.closedPeers node rfl

/-!
## Events
-/

structure Framed (node next : Node disk) : Prop where
  config : next.config = node.config
  nodeId : next.nodeId = node.nodeId
  endpoint : next.endpoint = node.endpoint
  entropy : next.entropy = node.entropy
  chain : next.chain = node.chain
  disk : next.disk = node.disk
  counters : node.drawn ≤ next.drawn

omit [Crypto] in
theorem Framed.refl (node : Node disk) : Framed node node :=
  ⟨rfl, rfl, rfl, rfl, rfl, rfl, le_refl _⟩

omit [Crypto] in
theorem Framed.trans {middle next : Node disk} (h : Framed node middle)
    (h' : Framed middle next) : Framed node next :=
  ⟨h'.config.trans h.config, h'.nodeId.trans h.nodeId, h'.endpoint.trans h.endpoint,
    h'.entropy.trans h.entropy, h'.chain.trans h.chain, h'.disk.trans h.disk,
    h.counters.trans h'.counters⟩

theorem Turn.framed {next : Node disk} (h : Turn event node next) : Framed node next := by
  cases h with
  | bookkept hdrawn => exact { Framed.refl node with counters := hdrawn }
  | ended _ => exact { Framed.refl node with }
  | managed _ _ => exact { Framed.refl node with }
  | synced _ _ => exact { Framed.refl node with }
  | carried _ => exact { Framed.refl node with }
  | carriedAll _ => exact { Framed.refl node with }
  | written _ => exact { Framed.refl node with }
  | opened _ => exact { Framed.refl node with counters := Nat.le_add_right _ _ }
  | greeted htalk =>
      have hsteady := htalk.steady
      have hapart := htalk.apart
      exact ⟨hsteady.config, hsteady.nodeId, hsteady.endpoint, hsteady.entropy, hapart.chain,
        hapart.disk, hsteady.drawn⟩
  | received _ _ => exact { Framed.refl node with }
  | popped _ => exact { Framed.refl node with }
  | left _ _ => exact { Framed.refl node with }
  | reaped _ => exact { Framed.refl node with }

theorem turns_framed {next : Node disk} (h : Relation.ReflTransGen (Turn event) node next) :
    Framed node next := by
  induction h with
  | refl => exact Framed.refl node
  | tail _ hlast ih => exact ih.trans hlast.framed

theorem Turn.waiting {next : Node disk} (h : Turn event node next) {item : Event}
    (hitem : item ∈ next.events) : item ∈ node.events ∨ Queues event node.config item.kind := by
  cases h with
  | greeted htalk =>
      rw [htalk.steady.events] at hitem
      exact Or.inl hitem
  | received _ hqueues =>
      rcases List.mem_append.mp hitem with hold | hnew
      · exact Or.inl hold
      · rw [List.mem_singleton.mp hnew]
        exact Or.inr hqueues
  | popped hevents =>
      rw [hevents]
      exact Or.inl (List.mem_cons_of_mem _ hitem)
  | _ => exact Or.inl hitem

theorem turns_waiting {next : Node disk} (h : Relation.ReflTransGen (Turn event) node next)
    {item : Event} (hitem : item ∈ next.events) :
    item ∈ node.events ∨ Queues event node.config item.kind := by
  induction h with
  | refl => exact Or.inl hitem
  | tail hmoves hlast ih =>
      rcases hlast.waiting hitem with hbefore | hqueues
      · exact ih hbefore
      · rw [(turns_framed hmoves).config] at hqueues
        exact Or.inr hqueues

/-- What one event does to a node. -/
inductive Happens (store : Option (ChainStore disk)) (event : NodeEvent)
    (node next : Node disk) : Prop where
  | turned : Relation.ReflTransGen (Turn event) node next -> Happens store event node next
  | dispatched {cancelled : Bool} {item : Event} {rest : List Event}
      {before after : Node disk} :
      event = .dispatch cancelled -> node.events = item :: rest ->
      Relation.ReflTransGen (Turn event) node before -> Thinned node before ->
      Relation.ReflTransGen (Act store item.kind) before after ->
      Relation.ReflTransGen (Turn event) after next -> next.sessions = after.sessions ->
      Happens store event node next

variable {store : Option (ChainStore disk)}

variable (event) in
theorem settle_turns {answer : NodeM disk Answer} (size : Nat) {e : PyError -> NodeM disk Answer}
    (he : e = fun e => do
      fatal e
      return some (.error e)) {last : Node disk} (hlast : finalState answer node = last) :
    Relation.ReflTransGen (Turn event) last
        (finalState (do
          let answer <- tryCatch answer e
          release size
          return answer) node) ∧
      (finalState (do
          let answer <- tryCatch answer e
          release size
          return answer) node).sessions = last.sessions := by
  have hrelease : forall (answer : Answer) (middle : Node disk),
      Relation.ReflTransGen (Turn event) middle
          (finalState (do
            release size
            return answer : NodeM disk Answer) middle) ∧
        (finalState (do
            release size
            return answer : NodeM disk Answer) middle).sessions = middle.sessions := by
    intro answer middle
    have hleads : Leads (Turn event)
        (do
          release size
          return answer : NodeM disk Answer) middle
        (fun _ node' => node'.sessions = middle.sessions)
        (fun _ node' => node'.sessions = middle.sessions) := by
      refine leads_bind release_leads ?_
      intro _ released _ hsessions
      exact leads_pure hsessions
    exact hleads.ends
  cases hrun : answer node with
  | ok value reached =>
      rw [finalState_of_ok hrun] at hlast
      rw [finalState_bind_ok (run_tryCatch_ok hrun e), ← hlast]
      exact hrelease value reached
  | error raised reached =>
      rw [finalState_of_error hrun] at hlast
      have hfatal : Leads (Turn event)
          (do
            fatal raised
            return some (.error raised) : NodeM disk Answer) reached
          (fun _ node' => node'.sessions = reached.sessions) (fun _ _ => False) := by
        refine leads_bind fatal_leads ?_
        intro _ failed _ hsessions
        exact leads_pure hsessions
      cases hhandled : (do
          fatal raised
          return some (.error raised) : NodeM disk Answer) reached with
      | ok value failed =>
          have hcaught := run_tryCatch_error hrun e
          rw [he] at hcaught
          rw [he, finalState_bind_ok (hcaught.trans hhandled), ← hlast]
          rcases hfatal.of_ok hhandled with ⟨hturns, hsessions⟩
          rcases hrelease value failed with ⟨hturns', hsessions'⟩
          exact ⟨hturns.trans hturns', hsessions'.trans hsessions⟩
      | error _ failed => exact (hfatal.of_error hhandled).right.elim

theorem dispatch_happens (env : Env) (cancelled : Bool) (node : Node disk) :
    Happens store (.dispatch cancelled) node
      (finalState (dispatch store env cancelled) node) := by
  unfold dispatch
  rw [finalState_get_bind]
  by_cases hrunning : node.lifecycle ≠ .running
  · rw [if_pos hrunning]
    exact Happens.turned Relation.ReflTransGen.refl
  rw [if_neg hrunning]
  cases hevents : node.events with
  | nil => exact Happens.turned Relation.ReflTransGen.refl
  | cons item rest =>
      have hpopped : Turn (.dispatch cancelled) node { node with events := rest } :=
        Turn.popped hevents
      simp only
      rw [finalState_set_bind]
      have hsame : ({ node with events := rest } : Node disk).sessions = node.sessions := rfl
      generalize ({ node with events := rest } : Node disk) = popped at hpopped hsame ⊢
      have hreaping : Leads (Turn (.dispatch cancelled)) (reapPeers env) popped
          (fun _ node' => Thinned popped node') (fun _ node' => Thinned popped node') :=
        reapPeers_leads
      cases hreap : reapPeers env popped with
      | error e reaped =>
          have hturns := (hreaping.of_error hreap).left
          have hlast := finalState_of_error (run_bind_error hreap
            (fun _ => if cancelled then pure none else handleEvent store env item.kind))
          have hsettled := settle_turns (.dispatch cancelled) item.size
            rfl hlast
          exact Happens.turned ((Relation.ReflTransGen.head hpopped hturns).trans hsettled.left)
      | ok _ reaped =>
          rcases hreaping.of_ok hreap with ⟨hturns, hthin⟩
          have hbind := finalState_bind_ok hreap
            (fun _ => if cancelled then pure none else handleEvent store env item.kind)
          cases cancelled with
          | true =>
              have hsettled := settle_turns (.dispatch true) item.size
                rfl (hbind.trans rfl)
              exact Happens.turned
                ((Relation.ReflTransGen.head hpopped hturns).trans hsettled.left)
          | false =>
              have hacts : Relation.ReflTransGen (Act store item.kind) reaped
                  (finalState (handleEvent store env item.kind) reaped) :=
                handleEvent_leads.final
              have hsettled := settle_turns (.dispatch false) item.size
                rfl (hbind.trans rfl)
              refine Happens.dispatched rfl hevents
                (Relation.ReflTransGen.head hpopped hturns) ?_ hacts hsettled.left
                hsettled.right
              intro id session hsession
              rw [← hsame]
              exact hthin id session hsession

theorem happens_of_leads {act : NodeM disk Unit}
    (h : Leads (Turn event) act node (fun _ _ => True) (fun _ _ => True)) :
    Happens store event node
      (finalState (do
        act
        return none : NodeM disk Answer) node) := by
  have hleads : Leads (Turn event)
      (do
        act
        return none : NodeM disk Answer) node (fun _ _ => True) (fun _ _ => True) :=
    leads_bind h (fun _ _ _ _ => leads_pure trivial)
  exact Happens.turned hleads.final

theorem handle_happens (env : Env) (event : NodeEvent) (node : Node disk) :
    Happens store event node (finalState (handle store env event) node) := by
  cases event with
  | acceptedSocket remote => exact happens_of_leads acceptedSocket_leads
  | connect endpoint => exact happens_of_leads connect_leads
  | dialled endpoint remote => exact happens_of_leads dialled_leads
  | dialFailed endpoint => exact happens_of_leads dialFailed_leads
  | dialDone endpoint =>
      have hdone : Turn (.dialDone endpoint) node
          { node with dialTasks := node.dialTasks.erase endpoint } :=
        Turn.managed (fun h => h)
          (fun hdials other hother => hdials other (List.mem_of_mem_erase hother))
      exact Happens.turned (Relation.ReflTransGen.single hdone)
  | readPrefix id a b c d => exact happens_of_leads readPrefix_leads
  | readBody id body => exact happens_of_leads readBody_leads
  | readStopped id => exact happens_of_leads readStopped_leads
  | wrote id =>
      exact Happens.turned (Relation.ReflTransGen.single (Turn.written rfl))
  | startClosing id => exact happens_of_leads (leads_transport Carried.beginClose)
  | cleanedUp id => exact happens_of_leads cleanedUp_leads
  | call command => exact happens_of_leads call_leads
  | timer => exact happens_of_leads timer_leads
  | dispatch cancelled => exact dispatch_happens env cancelled node
  | stop => exact happens_of_leads stop_leads

theorem machine_happens (call : Env × NodeEvent) (node : Node disk) :
    Happens store call.2 node ((machine store).step call node).2 := by
  have hstep : ((machine store).step call node).2 = finalState (handle store call.1 call.2) node := by
    unfold machine finalState
    simp only
    cases handle store call.1 call.2 node with
    | ok _ _ => rfl
    | error _ _ => rfl
  rw [hstep]
  exact handle_happens call.1 call.2 node

theorem Happens.blocks {next : Node disk} (h : Happens store event node next) :
    node.chain.blocks <+: next.chain.blocks := by
  cases h with
  | turned hturns => rw [(turns_framed hturns).chain]
  | dispatched _ _ hturns _ hacts hturns' _ =>
      rw [(turns_framed hturns').chain, ← (turns_framed hturns).chain]
      exact (moves_steady (acts_moves hacts)).blocks

end Chain

end Node

end Network

end PyChain
