import PyChain.Network.Handshaking

/-!
# The moves of each handler

Remote messages, the timer and the commands of local callers.
-/

namespace PyChain

open Foundation

namespace Network

namespace Node

variable {disk : Type}

section Chain

variable [Crypto] {store : Option (ChainStore disk)} {input : EventKind} {node : Node disk}

/-!
## Answers
-/

theorem consumeService_leads {env : Env} {id : Str} {known : Session}
    {raised : PyError -> Node disk -> Prop} (hknown : node.sessions.get? id = some known) :
    Leads (Calm store input) (consumeService env id) node (fun _ _ => True) raised := by
  unfold consumeService
  apply leads_session_bind hknown
  refine leads_quiet_bind hknown ?_ (leads_pure trivial)
  exact ⟨rfl, rfl, rfl, rfl, rfl, rfl, rfl, Or.inl rfl, Or.inl rfl, Or.inl rfl⟩

theorem leads_service {env : Env} {id : Str} {requestId : Option Str} {known : Session}
    {serve : NodeM disk Unit} (hknown : node.sessions.get? id = some known)
    (hserve : forall later : Node disk, (exists session, later.sessions.get? id = some session) ->
      Leads (Calm store input) serve later (fun _ _ => True) Rejected) :
    Leads (Calm store input)
      (do if <- consumeService env id then serve else sendError id requestId .busy) node
      (fun _ _ => True) Rejected := by
  refine leads_bind (consumeService_leads hknown) ?_
  intro taken later hmoves _
  rcases (calm_steady hmoves).session hknown with ⟨session, hsession⟩
  apply leads_ite
  · intro _
    exact hserve later ⟨session, hsession⟩
  · intro _
    exact Leads.calm (sendError_leads hsession ⟨by decide, fun h => by cases h⟩)

theorem servePeers_leads {env : Env} {id : Str} {requestId : Option Str} {known : Session}
    (hknown : node.sessions.get? id = some known) :
    Leads (Calm store input) (servePeers env id requestId) node (fun _ _ => True) Rejected := by
  unfold servePeers
  refine leads_modify_bind (Relation.ReflTransGen.single
    (calm_managed (fun h => h.expire) (fun h => h))) ?_
  apply leads_get_bind
  refine leads_session_bind hknown ?_
  exact send_calm hknown trivial

theorem expire_leads {env : Env} {id requestId : Str} {known : Session}
    {raised : PyError -> Node disk -> Prop} (hknown : node.sessions.get? id = some known) :
    Leads (Calm store input) (expire env id requestId) node (fun _ _ => True) raised := by
  unfold expire
  apply leads_quiet hknown
  exact ⟨rfl, rfl, rfl, rfl, rfl, rfl, rfl, Or.inl rfl, Or.inl rfl, Or.inl rfl⟩

theorem correlate_leads {env : Env} {id requestId : Str} {kind : MessageType} {known : Session}
    (hknown : node.sessions.get? id = some known) :
    Leads (Calm store input) (correlate env id requestId kind) node
      (fun _ _ => True) Rejected := by
  unfold correlate
  apply leads_session_bind hknown
  split
  · apply leads_ite
    · intro _
      exact leads_pure trivial
    · intro _
      exact leads_throw (rejected_of_refusal trivial)
  · have hquiet : Quiet known { known with pending := known.pending.erase requestId } :=
      ⟨rfl, rfl, rfl, rfl, rfl, rfl, rfl, Or.inl rfl, Or.inl rfl, Or.inl rfl⟩
    refine leads_quiet_bind hknown hquiet ?_
    refine leads_bind (expire_leads (get?_replace_self hknown)) ?_
    intro _ _ _ _
    apply leads_ite
    · intro _
      exact leads_throw (rejected_of_refusal trivial)
    · intro _
      exact leads_pure trivial

theorem receiveStatus_leads {id : Str} {solicited : Bool} {payload : StatusPayload}
    {requestId : Option Str} {known : Session} (hknown : node.sessions.get? id = some known)
    (hinput : input = .remote id { payload := .status payload, requestId := requestId }) :
    Leads (Calm store input) (receiveStatus id solicited payload) node
      (fun _ _ => True) Rejected := by
  unfold receiveStatus
  apply leads_ite
  · intro _
    exact leads_throw (rejected_of_refusal trivial)
  intro _
  have hheard : Calm store input node (node.replace id
      { known with remoteHeight := payload.height, remoteTip := payload.tipHash }) :=
    calm_replace hknown (Move.heard hknown hinput ⟨rfl, rfl⟩) rfl
  refine leads_modifySession_bind hknown (Relation.ReflTransGen.single hheard) ?_
  have hself : (node.replace id
      { known with
        remoteHeight := payload.height
        remoteTip := payload.tipHash }).sessions.get? id = some
      { known with remoteHeight := payload.height, remoteTip := payload.tipHash } :=
    get?_replace_self hknown
  generalize node.replace id
    { known with remoteHeight := payload.height, remoteTip := payload.tipHash } = heard at hself
  generalize ({ known with
    remoteHeight := payload.height
    remoteTip := payload.tipHash } : Session) = session at hself
  apply leads_session_bind hself
  split
  · exact leads_pure trivial
  rename_i anchor hanchor
  apply leads_ite
  · intro _
    refine leads_tip_bind ?_ (fun _ h hhealthy => (h hhealthy).elim)
    intro height tipHash _
    refine leads_modifySession hself (Relation.ReflTransGen.single ?_) trivial
    split
    · refine calm_replace hself (Move.diverged hself (Or.inr (Or.inl ?_)) ?_) rfl
      · rw [hanchor]
        rfl
      · exact ⟨rfl, rfl, rfl, rfl, rfl, rfl, rfl, Or.inr rfl, Or.inl rfl, Or.inl rfl⟩
    · refine calm_quiet hself ?_
      exact ⟨rfl, rfl, rfl, rfl, rfl, rfl, rfl, Or.inr rfl, Or.inl rfl, Or.inl rfl⟩
  · intro _
    exact leads_pure trivial

theorem learnEndpoint_leads {env : Env} {endpoint : Endpoint}
    {raised : PyError -> Node disk -> Prop} :
    Leads (Calm store input) (learnEndpoint env endpoint) node (fun _ _ => True) raised := by
  unfold learnEndpoint
  refine leads_modify ?_ trivial
  cases hadded : node.manager.addCandidate node.config env.now endpoint false with
  | error e =>
      exact Relation.ReflTransGen.refl
  | ok added =>
      apply Relation.ReflTransGen.single
      exact calm_managed (PeerManager.addCandidate_healthy hadded) (fun h => h)

/-!
## Items
-/

theorem receiveAnnouncement_leads {env : Env} {id : Str} {payload : Payload}
    {requestId : Option Str} {known : Session} (hknown : node.sessions.get? id = some known)
    (hinput : input = .remote id { payload := payload, requestId := requestId }) :
    Leads (Act store input) (receiveAnnouncement store env id payload) node
      (fun _ _ => True) Rejected := by
  unfold receiveAnnouncement
  split
  · exact leads_pure trivial
  · exact Leads.acts (receiveStatus_leads hknown hinput)
  · rename_i encoded
    apply leads_get_bind
    apply leads_lift_bind
    · intro transaction htransaction
      have hsubmits : input.Submits node.config.maxItemBytes transaction := by
        rw [hinput]
        exact htransaction
      exact (submitTransaction_leads (Offered.submit hsubmits)).discard
    · intro e he
      exact rejected_unpack (fun data => raises_decodeTransaction data) he
  · rename_i encoded
    apply leads_get_bind
    apply leads_lift_bind
    · intro block hblock
      have hbrings : input.Brings node.config.maxItemBytes block := by
        rw [hinput]
        exact hblock
      have hsource : forall source, some id = some source ->
          exists session, node.sessions.get? source = some session := by
        intro source hsource
        rw [← Option.some.inj hsource]
        exact ⟨known, hknown⟩
      exact (acceptBlock_leads hsource hbrings).discard
    · intro e he
      exact rejected_unpack (fun data => raises_decodeBlock data) he
  · exact leads_throw (rejected_of_refusal trivial)

theorem receiveResponse_leads {env : Env} {id : Str} {request : Request} {payload : Payload}
    {requestId : Option Str} {known : Session} (hknown : node.sessions.get? id = some known)
    (hinput : input = .remote id { payload := payload, requestId := requestId }) :
    Leads (Act store input) (receiveResponse store env id request payload) node
      (fun _ _ => True) Rejected := by
  unfold receiveResponse
  split
  · rename_i code message
    have hreported : Reported input id (.remote code) := by
      intro error herror _
      cases herror
      exact ⟨message, requestId, hinput⟩
    exact Leads.acts ((failedRequest_leads hknown hreported).weaken (fun _ _ _ h => h)
      (fun _ _ _ h => h.rejected))
  · exact Leads.acts (receiveStatus_leads hknown hinput)
  · exact Leads.acts (leads_forM trivial (fun _ _ _ _ _ => learnEndpoint_leads))
  · exact receiveBlocks_leads hknown hinput
  · exact receiveMempool_leads hknown hinput
  · exact leads_throw (rejected_of_refusal trivial)

theorem remote_leads {env : Env} {id : Str} {packet : Packet} {known : Session}
    (hknown : node.sessions.get? id = some known) (hinput : input = .remote id packet) :
    Leads (Act store input) (remote store env id packet) node (fun _ _ => True) Rejected := by
  unfold remote
  have hcounted : Calm store input node
      { node with
        counters :=
          { node.counters with messagesReceived := node.counters.messagesReceived + 1 } } :=
    (Talk.counted _).calm
  refine leads_modify_bind (Relation.ReflTransGen.single (Act.calm hcounted)) ?_
  generalize hnode : ({ node with counters := _ } : Node disk) = counted
  have hsession : counted.sessions.get? id = some known := by
    rw [← hnode]
    exact hknown
  apply leads_session_bind hsession
  apply leads_ite
  · intro hfresh
    exact Leads.acts (handshake_leads hsession hfresh hinput).true
  intro _
  split
  · exact leads_throw (rejected_of_refusal trivial)
  · exact leads_throw (rejected_of_refusal trivial)
  · exact Leads.acts (send_calm hsession trivial)
  · apply leads_ite
    · intro _
      exact leads_throw (rejected_of_refusal trivial)
    · intro _
      refine Leads.acts (leads_quiet hsession ?_)
      exact ⟨rfl, rfl, rfl, rfl, rfl, rfl, rfl, Or.inl rfl, Or.inl rfl, Or.inl rfl⟩
  · refine Leads.acts (leads_statusPayload_bind ?_ (fun _ h hhealthy => (h hhealthy).elim))
    intro status hstatus
    exact send_calm hsession hstatus
  · exact Leads.acts (servePeers_leads hsession)
  · rename_i payload hpayload
    refine Leads.acts (leads_service hsession ?_)
    rintro later ⟨session, hlater⟩
    apply serveBlocks_leads hlater
    rw [hinput, ← hpayload]
  · refine Leads.acts (leads_service hsession ?_)
    rintro later ⟨session, hlater⟩
    exact serveMempool_leads hlater
  · split
    · rename_i hrequestId
      exact receiveAnnouncement_leads hsession hinput
    · rename_i requestId hrequestId
      refine leads_bind (Leads.acts (correlate_leads hsession)) ?_
      intro answered correlated hacts _
      rcases (moves_steady (acts_moves hacts)).session hsession with ⟨session, hcorrelated⟩
      cases answered with
      | none => exact leads_pure trivial
      | some request => exact receiveResponse_leads hcorrelated hinput

/-!
## The timer
-/

theorem timeoutRequest_leads {env : Env} {id : Str} {item : Str × PendingRequest}
    {known : Session} (hknown : node.sessions.get? id = some known) :
    Leads (Calm store input) (timeoutRequest env id item) node (fun _ _ => True) Unhealthy := by
  unfold timeoutRequest
  apply leads_ite
  · intro _
    have hquiet : Quiet known { known with pending := known.pending.erase item.1 } :=
      ⟨rfl, rfl, rfl, rfl, rfl, rfl, rfl, Or.inl rfl, Or.inl rfl, Or.inl rfl⟩
    refine leads_quiet_bind hknown hquiet ?_
    have hself : (node.replace id
        { known with pending := known.pending.erase item.1 }).sessions.get? id = some
        { known with pending := known.pending.erase item.1 } := get?_replace_self hknown
    refine leads_bind (expire_leads hself) ?_
    intro _ later hmoves _
    rcases (calm_steady hmoves).session hself with ⟨session, hsession⟩
    apply failedRequest_leads hsession
    intro error herror
    cases herror
  · intro _
    exact leads_pure trivial

theorem discard_request_leads {env : Env} {id : Str} {request : Request} {known : Session}
    (hknown : node.sessions.get? id = some known)
    (hsaid : Says input id node.chain known request.payload)
    (hvalid : node.Healthy -> request.payload.Valid) :
    Leads (Calm store input) (discard (Node.request env id request)) node
      (fun _ _ => True) Unhealthy :=
  Leads.calm (request_leads hknown hsaid hvalid).discard

theorem leads_ping {env : Env} {id : Str} {known : Session} {next : PUnit -> NodeM disk Unit}
    (hknown : node.sessions.get? id = some known)
    (hnext : forall later : Node disk, (exists session, later.sessions.get? id = some session) ->
      Leads (Calm store input) (next ⟨⟩) later (fun _ _ => True) Unhealthy) :
    Leads (Calm store input)
      (do
        let nonce <- drawToken
        modifySession id (fun session =>
          { session with
            pingNonce := some nonce
            pingDeadline := env.now + node.config.pongTimeout
            nextPing := env.now + node.config.pingInterval })
        let __r <- discard (send id { payload := .ping nonce, requestId := none })
        next __r) node (fun _ _ => True) Unhealthy := by
  apply leads_drawToken_bind Talk.drew.calm
  generalize hnode : ({ node with drawn := _ } : Node disk) = drew
  have hsession : drew.sessions.get? id = some known := by
    rw [← hnode]
    exact hknown
  have hquiet : Quiet known
      { known with
        pingNonce := some (node.entropy.token node.drawn)
        pingDeadline := env.now + node.config.pongTimeout
        nextPing := env.now + node.config.pingInterval } :=
    ⟨rfl, rfl, rfl, rfl, rfl, rfl, rfl, Or.inl rfl, Or.inl rfl, Or.inl rfl⟩
  refine leads_quiet_bind hsession hquiet ?_
  have hself : (drew.replace id
      { known with
        pingNonce := some (node.entropy.token node.drawn)
        pingDeadline := env.now + node.config.pongTimeout
        nextPing := env.now + node.config.pingInterval }).sessions.get? id = some
      { known with
        pingNonce := some (node.entropy.token node.drawn)
        pingDeadline := env.now + node.config.pongTimeout
        nextPing := env.now + node.config.pingInterval } := get?_replace_self hsession
  generalize drew.replace id _ = marked at hself
  have hsend : Leads (Talk (Says input))
      (send id { payload := .ping (node.entropy.token node.drawn), requestId := none }) marked
      (fun _ _ => True) Unhealthy := by
    refine (send_leads hself trivial).weaken (fun _ _ _ _ => trivial) ?_
    rintro e node' _ ⟨hsame, hencode⟩ hhealthy
    have hvalid : ({ payload := .ping (node.entropy.token node.drawn),
                     requestId := none } : Packet).Valid :=
      ⟨node.entropy.token_valid _, rfl⟩
    rcases hhealthy.admits _ hvalid rfl with ⟨frame, hframe⟩
    rw [hsame] at hframe
    rw [hframe] at hencode
    cases hencode
  refine leads_bind (Leads.calm hsend.discard) ?_
  intro _ sent hmoves _
  exact hnext sent ((calm_steady hmoves).session hself)

theorem leads_refresh {env : Env} {id : Str} {request : Request} {f : Session -> Session}
    {next : PUnit -> NodeM disk Unit} {known : Session}
    (hknown : node.sessions.get? id = some known)
    (hsaid : Says input id node.chain known request.payload) (hvalid : request.payload.Valid)
    (hquiet : forall session, Quiet session (f session))
    (hnext : forall later : Node disk, (exists session, later.sessions.get? id = some session) ->
      Leads (Calm store input) (next ⟨⟩) later (fun _ _ => True) Unhealthy) :
    Leads (Calm store input)
      (do
        discard (Node.request env id request)
        let __r <- modifySession id f
        next __r) node (fun _ _ => True) Unhealthy := by
  refine leads_bind (discard_request_leads hknown hsaid (fun _ => hvalid)) ?_
  intro _ asked hmoves _
  rcases (calm_steady hmoves).session hknown with ⟨session, hsession⟩
  refine leads_quiet_bind hsession (hquiet session) ?_
  exact hnext _ ⟨_, get?_replace_self hsession⟩

theorem maintain_leads {env : Env} {id : Str} {known : Session}
    (hknown : node.sessions.get? id = some known) :
    Leads (Calm store input) (maintain env id) node (fun _ _ => True) Unhealthy := by
  unfold maintain
  apply leads_get_bind
  apply leads_session_bind hknown
  apply leads_ite
  · intro _
    exact closePeer_leads hknown
  intro _
  have hdiscovery : forall later : Node disk,
      (exists session, later.sessions.get? id = some session) ->
      Leads (Calm store input)
        (do
          if known.nextDiscovery ≤ env.now then
            discard (Node.request env id .getPeers)
            modifySession id (fun session =>
              { session with nextDiscovery := env.now + node.config.discoveryInterval })) later
        (fun _ _ => True) Unhealthy := by
    rintro later ⟨session, hsession⟩
    apply leads_ite
    · intro _
      refine leads_bind (discard_request_leads hsession trivial (fun _ => trivial)) ?_
      intro _ asked hmoves _
      rcases (calm_steady hmoves).session hsession with ⟨last, hlast⟩
      apply leads_quiet hlast
      exact ⟨rfl, rfl, rfl, rfl, rfl, rfl, rfl, Or.inl rfl, Or.inl rfl, Or.inl rfl⟩
    · intro _
      exact leads_pure trivial
  have hstatus : forall later : Node disk,
      (exists session, later.sessions.get? id = some session) ->
      Leads (Calm store input)
        (do
          if known.nextStatus ≤ env.now then
            discard (Node.request env id .getStatus)
            modifySession id (fun session =>
              { session with nextStatus := env.now + node.config.statusInterval })
          if known.nextDiscovery ≤ env.now then
            discard (Node.request env id .getPeers)
            modifySession id (fun session =>
              { session with nextDiscovery := env.now + node.config.discoveryInterval })) later
        (fun _ _ => True) Unhealthy := by
    rintro later ⟨session, hsession⟩
    apply leads_ite
    · intro _
      refine leads_refresh hsession trivial trivial ?_ hdiscovery
      intro _
      exact ⟨rfl, rfl, rfl, rfl, rfl, rfl, rfl, Or.inl rfl, Or.inl rfl, Or.inl rfl⟩
    · intro _
      exact hdiscovery later ⟨session, hsession⟩
  apply leads_ite
  · intro _
    exact leads_ping hknown hstatus
  · intro _
    exact hstatus node ⟨known, hknown⟩

theorem tickSession_leads {env : Env} {id : Str} {known : Session}
    (hknown : node.sessions.get? id = some known) :
    Leads (Calm store input) (tickSession env id) node (fun _ _ => True) Unhealthy := by
  unfold tickSession
  apply leads_get_bind
  apply leads_session_bind hknown
  apply leads_ite
  · intro _
    exact leads_pure trivial
  intro _
  apply leads_ite
  · intro _
    apply leads_ite
    · intro _
      exact closePeer_leads hknown
    · intro _
      exact leads_pure trivial
  intro _
  have htimeouts : Leads (Calm store input) (known.pending.items.forM (timeoutRequest env id)) node
      (fun _ _ => True) Unhealthy := by
    apply leads_forM trivial
    intro item _ later hmoves _
    rcases (calm_steady hmoves).session hknown with ⟨session, hsession⟩
    exact timeoutRequest_leads hsession
  refine leads_bind htimeouts ?_
  intro _ later hmoves _
  rcases (calm_steady hmoves).session hknown with ⟨session, hsession⟩
  refine leads_quiet_bind hsession ?_ (maintain_leads (get?_replace_self hsession))
  exact ⟨rfl, rfl, rfl, rfl, rfl, rfl, rfl, Or.inl rfl, Or.inl rfl, Or.inl rfl⟩

theorem dialCandidate_leads {env : Env} {endpoint : Endpoint} {P : Prop}
    (haccepts : P -> node.config.Accepts endpoint) :
    Leads (Calm store input) (dialCandidate env endpoint) node (fun _ _ => True)
      (fun _ _ => ¬ P) := by
  unfold dialCandidate
  apply leads_get_bind
  apply leads_ite
  · intro _
    exact leads_pure trivial
  intro _
  apply leads_ite
  · intro _
    exact leads_pure trivial
  intro _
  apply leads_drawJitter_bind Talk.drew.calm
  intro jitter
  apply leads_get_bind
  apply leads_lift_bind
  · intro marked hmarked
    have hdialled : Calm store input { node with drawn := node.drawn + 1 }
        { node with
          drawn := node.drawn + 1
          manager := marked.2
          dialTasks := node.dialTasks ++ [endpoint] } := by
      refine calm_managed ?_ ?_
      · intro hmanager
        exact PeerManager.markAttempt_healthy hmarked hmanager
      · intro hdials other hother
        rcases List.mem_append.mp hother with hold | hnew
        · exact hdials other hold
        · rw [List.mem_singleton.mp hnew]
          exact PeerManager.markAttempt_accepts hmarked
    exact leads_of_ok rfl (Relation.ReflTransGen.single hdialled) trivial
  · intro e he hP
    have htotal : exists marked,
        node.manager.markAttempt node.config env.now jitter endpoint = .ok marked :=
      PeerManager.markAttempt_total (haccepts hP)
    rcases htotal with ⟨marked, hmarked⟩
    rw [hmarked] at he
    cases he

theorem dialDue_leads {env : Env} {P : Prop} (endpoints : List Endpoint) :
    forall node : Node disk,
      (forall endpoint, endpoint ∈ endpoints -> P -> node.config.Accepts endpoint) ->
      Leads (Calm store input) (dialDue env endpoints) node (fun _ _ => True)
        (fun _ _ => ¬ P) := by
  induction endpoints with
  | nil =>
      intro node _
      exact leads_pure trivial
  | cons endpoint rest ih =>
      intro node haccepts
      unfold dialDue
      refine leads_bind (dialCandidate_leads (haccepts endpoint List.mem_cons_self)) ?_
      intro started later hmoves _
      apply leads_ite
      · intro _
        apply ih
        intro other hother hP
        rw [(calm_steady hmoves).config]
        exact haccepts other (List.mem_cons_of_mem _ hother) hP
      · intro _
        exact leads_pure trivial

theorem tick_leads {env : Env} :
    Leads (Calm store .tick) (tick env) node (fun _ _ => True)
      (fun _ _ => ¬ node.Healthy) := by
  have hvalid : forall id packet, EventKind.tick = .remote id packet -> packet.Valid := by
    intro id packet h
    cases h
  unfold tick
  apply leads_get_bind
  have hsessions : Leads (Calm store .tick) (node.sessions.keys.forM (tickSession env)) node
      (fun _ _ => True) (fun _ _ => ¬ node.Healthy) := by
    have hloop : Leads (Calm store .tick) (node.sessions.keys.forM (tickSession env)) node
        (fun _ _ => True) Unhealthy := by
      apply leads_forM trivial
      intro id hid later hmoves _
      rcases Dict.exists_get?_of_mem_keys hid with ⟨known, hknown⟩
      rcases (calm_steady hmoves).session hknown with ⟨session, hsession⟩
      exact tickSession_leads hsession
    refine hloop.weaken (fun _ _ _ h => h) ?_
    intro e later hmoves h hhealthy
    exact h (calm_healthy hmoves hvalid hhealthy)
  refine leads_bind hsessions ?_
  intro _ ticked hmoves _
  have hsync : Leads (Calm store .tick) (syncTick env) ticked (fun _ _ => True)
      (fun _ _ => ¬ node.Healthy) := by
    refine syncTick_leads.weaken (fun _ _ _ h => h) ?_
    intro e later hlater h hhealthy
    exact h (calm_healthy (hmoves.trans hlater) hvalid hhealthy)
  refine leads_bind hsync ?_
  intro _ synced hmoves' _
  have hexpired : Calm store .tick synced
      { synced with manager := synced.manager.expire synced.config env.now } :=
    calm_managed (fun h => h.expire) (fun h => h)
  refine leads_modify_bind (Relation.ReflTransGen.single hexpired) ?_
  apply leads_get_bind
  apply dialDue_leads
  intro endpoint hendpoint hhealthy
  have hlast := calm_healthy ((hmoves.trans hmoves').tail hexpired) hvalid hhealthy
  exact hlast.manager.due hendpoint

/-!
## The dispatcher
-/

theorem handleRemote_leads {env : Env} {id : Str} {packet : Packet}
    (hinput : input = .remote id packet) :
    Leads (Act store input) (handleRemote store env id packet) node (fun _ _ => True)
      Unhealthy := by
  unfold handleRemote
  apply leads_get_bind
  split
  · exact leads_pure trivial
  rename_i known hknown
  apply leads_ite
  · intro _
    exact leads_pure trivial
  intro _
  refine leads_tryCatch (remote_leads hknown hinput) ?_
  intro e later hacts hrejected
  apply leads_ite
  · intro _
    rcases (moves_steady (acts_moves hacts)).session hknown with ⟨session, hsession⟩
    have hquiet : Quiet session { session with error := some (.rejected e) } :=
      ⟨rfl, rfl, rfl, rfl, rfl, rfl, rfl, Or.inl rfl, Or.inl rfl, Or.inr (by simp)⟩
    have hclose : Leads (Calm store input)
        (do
          modifySession id (fun session => { session with error := some (.rejected e) })
          closePeer id) later (fun _ _ => True) Unhealthy :=
      leads_quiet_bind hsession hquiet (closePeer_leads (get?_replace_self hsession))
    exact Leads.acts hclose
  · intro haccepted
    apply leads_throw
    intro hhealthy
    exact haccepted (hrejected hhealthy)

omit [Crypto] in
theorem answersCaller_of_rejectsPeer {e : PyError} (h : rejectsPeer e = true) :
    answersCaller e = true := by
  cases e with
  | valueError _ => rfl
  | networkError _ _ => rfl
  | _ => cases h

/-- A read command fails by itself. -/
def ReadFails (input : EventKind) (e : PyError) (chain : Blockchain) : Prop :=
  exists query, input = .command (.read query) ∧ query chain = .error e

omit [Crypto] in
theorem leads_some {act : NodeM disk Bool} {move : Node disk -> Node disk -> Prop}
    {raised : PyError -> Node disk -> Prop}
    (h : Leads move act node (fun _ _ => True) raised) :
    Leads move (some <$> act) node (fun _ _ => True) raised := by
  rw [map_eq_pure_bind]
  exact leads_bind h (fun _ _ _ _ => leads_pure trivial)

theorem runCommand_leads {env : Env} {command : Command} (hinput : input = .command command) :
    Leads (Act store input) (runCommand store env command) node (fun _ _ => True)
      (fun e node' => Rejected e node' ∨ ReadFails input e node'.chain) := by
  unfold runCommand
  cases command with
  | submit transaction =>
      apply leads_some
      have hsubmits : input.Submits node.config.maxItemBytes transaction := by
        rw [hinput]
        exact rfl
      exact (submitTransaction_leads (Offered.submit hsubmits)).weaken (fun _ _ _ h => h)
        (fun _ _ _ h => Or.inl h)
  | block block =>
      apply leads_some
      have hbrings : input.Brings node.config.maxItemBytes block := by
        rw [hinput]
        exact rfl
      have hsource : forall source, (none : Option Str) = some source ->
          exists session, node.sessions.get? source = some session := by
        intro source hsource
        cases hsource
      exact (acceptBlock_leads hsource hbrings).weaken (fun _ _ _ h => h)
        (fun _ _ _ h => Or.inl h)
  | read query =>
      apply leads_get_bind
      apply leads_lift_bind
      · intro _ _
        exact leads_pure trivial
      · intro e he
        exact Or.inr ⟨query, hinput, he⟩

theorem handleEvent_leads {env : Env} {kind : EventKind} :
    Leads (Act store kind) (handleEvent store env kind) node (fun _ _ => True)
      (fun e node' => ¬ node.Healthy ∨ ¬ node'.Healthy ∨
        ReadFails kind e node'.chain ∧ answersCaller e = false) := by
  unfold handleEvent
  cases kind with
  | tick =>
      have hticked : Calm store .tick node { node with tickQueued := false } :=
        ⟨Move.ticked, rfl, silent_of_sessions rfl⟩
      refine leads_modify_bind (Relation.ReflTransGen.single (Act.calm hticked)) ?_
      refine leads_bind ((Leads.acts tick_leads).weaken (fun _ _ _ h => h) ?_)
        (fun _ _ _ _ => leads_pure trivial)
      intro e node' _ h
      apply Or.inl
      intro hhealthy
      exact h { hhealthy with }
  | remote id packet =>
      refine leads_bind ((handleRemote_leads rfl).weaken (fun _ _ _ h => h) ?_)
        (fun _ _ _ _ => leads_pure trivial)
      intro e node' _ h
      exact Or.inr (Or.inl h)
  | command command =>
      have hrun : Leads (Act store (.command command))
          (do
            let answer <- runCommand store env command
            return (some (.ok answer) : Answer)) node (fun _ _ => True)
          (fun e node' => Rejected e node' ∨ ReadFails (.command command) e node'.chain) :=
        leads_bind (runCommand_leads rfl) (fun _ _ _ _ => leads_pure trivial)
      refine leads_tryCatch hrun ?_
      intro e later _ hcaught
      apply leads_ite
      · intro _
        exact leads_pure trivial
      · intro hunanswered
        apply leads_throw
        rcases hcaught with hrejected | hread
        · apply Or.inr
          apply Or.inl
          intro hhealthy
          exact hunanswered (answersCaller_of_rejectsPeer (hrejected hhealthy))
        · exact Or.inr (Or.inr ⟨hread, Bool.eq_false_iff.mpr hunanswered⟩)

end Chain

end Node

end Network

end PyChain
