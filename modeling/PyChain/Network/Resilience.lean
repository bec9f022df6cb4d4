import PyChain.Network.ControlFrames
import PyChain.Network.Growth
import PyChain.Network.Holdings

/-!
# Peers do not bring a node down

Whatever arrives, on any number of connections and in any order, a node whose storage
works neither fails nor raises: an exception reaches the local caller of a command, or
it closes the session of the peer that caused it.
-/

namespace PyChain

open Foundation

namespace Network

namespace Node

variable {disk : Type}

section Chain

variable [Crypto] {store : Option (ChainStore disk)} {event : NodeEvent} {input : EventKind}
  {node next : Node disk}

/-!
## Turns keep a node healthy
-/

omit [Crypto] in
theorem newSession_healthy {config : NodeConfig} {peer : PeerConnection}
    {dialEndpoint : Option Endpoint} {now : Rat} (hfresh : peer.established = false)
    (hdial : forall endpoint, dialEndpoint = some endpoint -> config.Accepts endpoint) :
    (newSession config peer dialEndpoint now).Healthy config := by
  refine ⟨(fun h => by cases h), ?_, hdial⟩
  intro hestablished
  exact absurd (hfresh.symm.trans hestablished) Bool.false_ne_true

omit [Crypto] in
theorem Carried.healthy {config : NodeConfig} {session later : Session}
    (h : Carried session later) (hhealthy : session.Healthy config) : later.Healthy config := by
  have hrest := h.rest
  have hpeer := h.peer
  have hversion : later.versionReceived = session.versionReceived := by rw [hrest]
  have hendpoint : later.endpoint = session.endpoint := by rw [hrest]
  have hnodeId : later.peer.nodeId = session.peer.nodeId := by rw [hpeer]
  have hnonce : later.peer.remoteNonce = session.peer.remoteNonce := by rw [hpeer]
  rcases h.established with hsame | ⟨hclosed, _⟩
  · exact hhealthy.transfer hversion hnodeId hnonce hsame hendpoint
  · constructor
    · rw [hversion, hnodeId, hnonce, hendpoint]
      exact hhealthy.introduced
    · intro hestablished
      rw [hclosed] at hestablished
      cases hestablished
    · rw [hendpoint]
      exact hhealthy.endpoint

omit [Crypto] in
theorem Healthy.modify {id : Str} {f : Session -> Session} (h : node.Healthy)
    (hf : forall session, node.sessions.get? id = some session ->
      session.Healthy node.config -> (f session).Healthy node.config) :
    ({ node with sessions := node.sessions.modify id f } : Node disk).Healthy := by
  refine { h with sessions := ?_ }
  intro other found hfound
  change (node.sessions.modify id f).get? other = some found at hfound
  rw [Dict.get?_modify] at hfound
  split at hfound
  · rename_i hsame
    rcases Option.map_eq_some_iff.mp hfound with ⟨session, hsession, heq⟩
    rw [hsame] at hsession
    rw [← heq]
    exact hf session hsession (h.sessions id session hsession)
  · exact h.sessions other found hfound

theorem Turn.healthy (h : Turn event node next) (hhealthy : node.Healthy) : next.Healthy := by
  cases h with
  | bookkept _ => exact { hhealthy with }
  | ended _ => exact { hhealthy with }
  | managed hmanager hdials =>
      exact { hhealthy with
        manager := hmanager hhealthy.manager
        dialTasks := hdials hhealthy.dialTasks }
  | synced _ hsync => exact { hhealthy with sync := hsync hhealthy.sync }
  | carried hcarried =>
      exact hhealthy.modify (fun session hsession h => (hcarried session hsession).healthy h)
  | carriedAll hcarried =>
      refine { hhealthy with sessions := ?_ }
      intro id found hfound
      rw [Dict.get?_mapValues] at hfound
      rcases Option.map_eq_some_iff.mp hfound with ⟨session, hsession, heq⟩
      rw [← heq]
      exact (hcarried session).healthy (hhealthy.sessions id session hsession)
  | written _ =>
      exact hhealthy.modify (fun _ _ h => h.transfer rfl rfl rfl rfl rfl)
  | opened hdial =>
      refine { hhealthy with sessions := ?_ }
      intro id found hfound
      change (node.sessions.set _ _).get? id = some found at hfound
      rw [Dict.get?_set] at hfound
      split at hfound
      · rw [← Option.some.inj hfound]
        exact newSession_healthy rfl
          (fun endpoint hendpoint => hhealthy.dialTasks endpoint (hdial endpoint hendpoint))
      · exact hhealthy.sessions id found hfound
  | greeted htalk => exact htalk.healthy hhealthy
  | received _ _ => exact { hhealthy with }
  | popped _ => exact { hhealthy with }
  | left _ _ => exact { hhealthy with }
  | reaped _ =>
      refine { hhealthy with sessions := ?_ }
      intro id found hfound
      rw [Dict.get?_erase] at hfound
      split at hfound
      · cases hfound
      · exact hhealthy.sessions id found hfound

theorem turns_healthy (h : Relation.ReflTransGen (Turn event) node next)
    (hhealthy : node.Healthy) : next.Healthy := by
  induction h with
  | refl => exact hhealthy
  | tail _ hlast ih => exact hlast.healthy ih

/-- The storage works, and the chain is not longer than the protocol can say. -/
def Untroubled (node : Node disk) : Prop :=
  Blockchain.ensureUsable node.chain = .ok () ∧ node.chain.blocks.length ≤ MAX_HEIGHT + 1

theorem Move.untroubled (h : Move store input node next) (huntroubled : Untroubled next) :
    Untroubled node := by
  refine ⟨?_, h.steady.blocks.length_le.trans huntroubled.right⟩
  have husable := huntroubled.left
  have hsame : next.chain = node.chain -> Blockchain.ensureUsable node.chain = .ok () := by
    intro hchain
    rw [← hchain]
    exact husable
  cases h with
  | performed _ =>
      cases hbefore : Blockchain.ensureUsable node.chain with
      | ok answer => rfl
      | error e =>
          unfold called at husable
          rw [Blockchain.perform_unusable store _ node.chain node.disk hbefore] at husable
          rw [← husable]
          exact hbefore.symm
  | talk htalk => exact hsame htalk.apart.chain
  | relayed htalk => exact hsame htalk.apart.chain
  | _ => exact husable

theorem moves_untroubled (h : Relation.ReflTransGen (Move store input) node next)
    (huntroubled : Untroubled next) : Untroubled node := by
  induction h with
  | refl => exact huntroubled
  | tail _ hlast ih => exact ih (hlast.untroubled huntroubled)

theorem moves_healthy (h : Relation.ReflTransGen (Move store input) node next)
    (hvalid : forall id packet, input = .remote id packet -> packet.Valid)
    (hhealthy : node.Healthy) : Untroubled next -> next.Healthy := by
  induction h with
  | refl => exact fun _ => hhealthy
  | tail _ hlast ih =>
      intro huntroubled
      exact hlast.healthy hvalid huntroubled.left huntroubled.right
        (ih (hlast.untroubled huntroubled))

/-!
## Connections
-/

structure Named (node : Node disk) : Prop where
  nodeId : isToken node.nodeId = true
  port_pos : 1 ≤ node.endpoint.port
  port_le : node.endpoint.port ≤ 65535

variable {flying : List Nat}

omit [Crypto] in
theorem talk_tidy {speech : Str -> Blockchain -> Session -> Payload -> Prop}
    (h : Relation.ReflTransGen (Talk speech) node next) (htidy : Tidy flying node) :
    Tidy flying next := by
  induction h with
  | refl => exact htidy
  | tail _ hlast ih => exact (hlast.steady.untouched hlast.marks).tidy ih

/-- What a node says first on its next connection. -/
def introduction (node : Node disk) (height : Nat) (tipHash : Str) : Packet :=
  { payload := .version
      { networkId := NETWORK_ID
        genesisHash := GENESIS_HASH
        nodeId := node.nodeId
        connectionNonce := node.entropy.token (node.drawn + 1)
        listenPort := node.endpoint.port
        height := height
        tipHash := tipHash }
    requestId := none }

omit [Crypto] in
theorem introduction_valid {height : Nat} {tipHash : Str} (hnamed : Named node)
    (hheight : height ≤ MAX_HEIGHT) (htip : isHash tipHash = true) :
    (introduction node height tipHash).Valid := by
  have hgenesis : isHash GENESIS_HASH = true := by decide
  exact ⟨⟨rfl, hgenesis, hnamed.nodeId, node.entropy.token_valid _, hnamed.port_pos,
    hnamed.port_le, hheight, htip⟩, rfl⟩

theorem attach_tidy (h : Tidy flying node) (hhealthy : node.Healthy) (hnamed : Named node)
    (env : Env) (remote : Endpoint) {dialEndpoint : Option Endpoint}
    (hdial : forall endpoint, dialEndpoint = some endpoint -> endpoint ∈ node.dialTasks)
    {raised : PyError -> Node disk -> Prop} :
    Leads Any (attach env remote dialEndpoint) node (fun _ next => Tidy flying next) raised := by
  have hself : (node.opened remote dialEndpoint env.now).sessions.get?
      (node.entropy.token node.drawn) = some
        (newSession node.config
          (PeerConnection.create node.config (node.entropy.token node.drawn)
            (node.entropy.token (node.drawn + 1)) dialEndpoint.isSome remote env.now)
          dialEndpoint env.now) := by
    change (node.sessions.set _ _).get? _ = _
    rw [Dict.get?_set, if_pos rfl]
  have htidy : Tidy flying (node.opened remote dialEndpoint env.now) := h.entered _ rfl
  have hopened : (node.opened remote dialEndpoint env.now).Healthy :=
    (Turn.opened hdial : Turn .stop node _).healthy hhealthy
  have hrun : attach env remote dialEndpoint node =
      (do
        let current <- tip
        discard (send (node.entropy.token node.drawn) (introduction node current.1 current.2))
        return node.entropy.token node.drawn : NodeM disk Str)
        (node.opened remote dialEndpoint env.now) := rfl
  refine leads_of_run hrun (any_step _ _) ?_
  apply leads_tip_bind _ (fun _ hunhealthy => absurd hopened hunhealthy)
  intro height tipHash htip
  have hsent : Leads Any
      (send (node.entropy.token node.drawn) (introduction node height tipHash))
      (node.opened remote dialEndpoint env.now) (fun _ next => Tidy flying next) raised := by
    have hgreets : Greets node.nodeId (node.entropy.token node.drawn)
        (node.opened remote dialEndpoint env.now).chain
        (newSession node.config
          (PeerConnection.create node.config (node.entropy.token node.drawn)
            (node.entropy.token (node.drawn + 1)) dialEndpoint.isSome remote env.now)
          dialEndpoint env.now) (introduction node height tipHash).payload :=
      ⟨rfl, rfl, htip⟩
    refine ((send_leads hself hgreets).weaken (fun _ _ hmoves _ => talk_tidy hmoves htidy)
      ?_).along (fun _ _ => any_step _ _)
    rintro e _ _ ⟨_, hencode⟩
    rcases hopened.admits _ (introduction_valid hnamed (TipIs.height_le htip hopened)
      (TipIs.isHash htip)) rfl with ⟨frame, hframe⟩
    have hboth := hframe.symm.trans hencode
    cases hboth
  exact leads_bind hsent.discard (fun _ _ _ hlater => leads_pure hlater)

theorem acceptedSocket_tidy (h : Tidy flying node) (hhealthy : node.Healthy)
    (hnamed : Named node) (env : Env) (remote : Endpoint)
    {raised : PyError -> Node disk -> Prop} :
    Leads Any (acceptedSocket env remote) node (fun _ next => Tidy flying next) raised := by
  unfold acceptedSocket
  apply leads_get_bind
  apply leads_ite
  · intro _
    exact leads_pure h
  intro _
  split
  · exact leads_pure h
  · have hattached : Leads Any (attach env remote none) node (fun _ next => Tidy flying next)
        (fun _ _ => False) :=
      attach_tidy h hhealthy hnamed env remote (fun _ hnone => by cases hnone)
    exact leads_tryCatch hattached.discard (fun _ _ _ hfalse => hfalse.elim)

theorem dialled_tidy (h : Tidy flying node) (hhealthy : node.Healthy) (hnamed : Named node)
    (env : Env) (endpoint remote : Endpoint) {raised : PyError -> Node disk -> Prop} :
    Leads Any (dialled env endpoint remote) node (fun _ next => Tidy flying next) raised := by
  unfold dialled
  apply leads_get_bind
  apply leads_ite
  · rintro ⟨_, hdial⟩
    refine (attach_tidy h hhealthy hnamed env remote ?_).discard
    intro found hfound
    rw [← Option.some.inj hfound]
    exact hdial
  · intro _
    exact leads_pure h

/-!
## The dispatcher
-/

omit [Crypto] in
theorem Healthy.erase (h : node.Healthy) (id : Str) {closedPeers : List Str} :
    ({ node with
      closedPeers := closedPeers
      sessions := node.sessions.erase id } : Node disk).Healthy := by
  refine { h with sessions := ?_ }
  intro other found hfound
  change (node.sessions.erase id).get? other = some found at hfound
  rw [Dict.get?_erase] at hfound
  split at hfound
  · cases hfound
  · exact h.sessions other found hfound

theorem reapPeer_tidy (h : Tidy flying node) (hhealthy : node.Healthy) (env : Env) (id : Str)
    {raised : PyError -> Node disk -> Prop} :
    Leads Any (reapPeer env id) node (fun _ next => Tidy flying next ∧ next.Healthy) raised := by
  have herased : Tidy flying { node with
      closedPeers := node.closedPeers.erase id
      sessions := node.sessions.erase id } := h.erased id
  have hhealthy' : ({ node with
      closedPeers := node.closedPeers.erase id
      sessions := node.sessions.erase id } : Node disk).Healthy := hhealthy.erase id
  unfold reapPeer
  apply leads_get_bind
  refine leads_modify_bind (f := fun _ => { node with
    closedPeers := node.closedPeers.erase id
    sessions := node.sessions.erase id }) (any_step _ _) ?_
  split
  · exact leads_pure ⟨herased, hhealthy'⟩
  rename_i session hsession
  have haccepts := (hhealthy.sessions id session hsession).endpoint
  have hleft : Leads Any (syncDisconnected id)
      ({ node with
        closedPeers := node.closedPeers.erase id
        sessions := node.sessions.erase id } : Node disk)
      (fun _ next => Tidy flying next ∧ next.Healthy ∧ next.config = node.config) raised := by
    have hturns : Leads (Turn .stop) (syncDisconnected id)
        ({ node with
          closedPeers := node.closedPeers.erase id
          sessions := node.sessions.erase id } : Node disk) _ raised := syncDisconnected_leads
    refine leads_of_ok rfl (any_step _ _) ⟨{ herased with }, ?_, rfl⟩
    exact turns_healthy (hturns.of_ok rfl).left hhealthy'
  refine leads_bind hleft ?_
  rintro _ left _ ⟨htidy, hleft, hconfig⟩
  split
  · exact leads_pure ⟨htidy, hleft⟩
  rename_i endpoint hendpoint
  apply leads_get_bind
  apply leads_ite
  · intro _
    apply leads_drawJitter_bind trivial
    intro jitter
    apply leads_get_bind
    apply leads_lift_bind
    · intro manager hmanager
      have hmanaged : ({ left with drawn := left.drawn + 1, manager := manager } :
          Node disk).Healthy :=
        { hleft with manager := PeerManager.markDisconnected_healthy hmanager hleft.manager }
      exact leads_of_ok rfl (any_step _ _) ⟨{ htidy with }, hmanaged⟩
    · intro e he
      have htotal : exists next,
          left.manager.markDisconnected left.config env.now jitter endpoint = .ok next := by
        rw [hconfig]
        exact PeerManager.markDisconnected_total (haccepts endpoint hendpoint)
      rcases htotal with ⟨next, hnext⟩
      have hboth := hnext.symm.trans he
      cases hboth
  · intro _
    exact leads_pure ⟨htidy, hleft⟩

theorem reapPeers_tidy (h : Tidy flying node) (hhealthy : node.Healthy) (env : Env)
    {raised : PyError -> Node disk -> Prop} :
    Leads Any (reapPeers env) node (fun _ next => Tidy flying next ∧ next.Healthy) raised := by
  unfold reapPeers
  apply leads_get_bind
  exact leads_forM ⟨h, hhealthy⟩
    (fun id _ _ _ hlater => reapPeer_tidy hlater.left hlater.right env id)

omit [Crypto] in
theorem settled_tidy {answer : NodeM disk Answer} {handle : PyError -> NodeM disk Answer}
    {value : Answer} {size : Nat} {handled : Node disk} (hrun : answer node = .ok value handled)
    (h : Tidy (size :: flying) handled) :
    exists last, Tidy flying last ∧
      (do
        let answer <- tryCatch answer handle
        release size
        return answer : NodeM disk Answer) node = .ok value last := by
  have hreleased : Leads Any (release size) handled
      (fun _ next => Tidy flying next ∧ next.sessions = handled.sessions)
      (fun _ _ => False) := release_tidy h
  cases hrelease : release size handled with
  | error _ _ => exact (hreleased.of_error hrelease).right.elim
  | ok _ last =>
      refine ⟨last, (hreleased.of_ok hrelease).right.left, ?_⟩
      rw [run_bind_ok (run_tryCatch_ok hrun handle), run_bind_ok hrelease]
      rfl

end Chain

/-!
## Events
-/

/-- A read that tells its caller what is wrong, as long as the storage works. -/
def Courteous (query : Blockchain -> Except PyError Unit) : Prop :=
  forall chain e, Blockchain.ensureUsable chain = .ok () -> query chain = .error e ->
    answersCaller e = true

/-- What may wait for the dispatcher. -/
def Welcome : EventKind -> Prop
  | .remote _ packet => packet.Valid
  | .command (.read query) => Courteous query
  | _ => True

/-- What peers, callers and timers may do. -/
def Considerate (event : NodeEvent) : Prop :=
  forall query, event = .call (.read query) -> Courteous query

/-- The events whose exceptions a local caller sees; a dial that nobody has started does
not fail. -/
def Answers (node : Node disk) : NodeEvent -> Prop
  | .call _ => True
  | .connect _ => True
  | .dialFailed endpoint => endpoint ∉ node.dialTasks
  | _ => False

/-- A node that nothing has brought down. -/
structure Sturdy [Crypto] (node : Node disk) : Prop where
  healthy : node.Healthy
  tidy : Tidy [] node
  named : Named node
  waiting : forall item, item ∈ node.events -> Welcome item.kind

section Chain

variable [Crypto] {store : Option (ChainStore disk)} {event : NodeEvent} {node next : Node disk}

omit [Crypto] in
theorem Welcome.valid {kind : EventKind} (h : Welcome kind) {id : Str} {packet : Packet}
    (hkind : kind = .remote id packet) : packet.Valid := by
  rw [hkind] at h
  exact h

omit [Crypto] in
theorem welcome_of_queues {config : NodeConfig} {kind : EventKind}
    (hconsiderate : Considerate event) (h : Queues event config kind) : Welcome kind := by
  cases kind with
  | tick => trivial
  | remote id packet =>
      rcases h with ⟨body, _, hreceived⟩
      rcases decodeReceived_eq body config.maxFrameBytes with ⟨other, _, hdecode⟩
      exact (decodeMessage_eq_ok_iff.mp (hdecode.symm.trans hreceived)).left
  | command command =>
      cases command with
      | read query => exact hconsiderate query h
      | _ => trivial

theorem handleEvent_total {env : Env} {kind : EventKind} (hhealthy : node.Healthy)
    (hwelcome : Welcome kind)
    (huntroubled : Untroubled (finalState (handleEvent store env kind) node)) :
    exists value next, handleEvent store env kind node = .ok value next ∧
      Untouched node next := by
  cases hrun : handleEvent store env kind node with
  | ok value next =>
      exact ⟨value, next, rfl,
        moves_untouched (acts_moves (handleEvent_leads.of_ok hrun).left)⟩
  | error e next =>
      rw [finalState_of_error hrun] at huntroubled
      rcases handleEvent_leads.of_error hrun with ⟨hacts, hraised⟩
      have hnext : next.Healthy :=
        moves_healthy (acts_moves hacts) (fun _ _ hkind => hwelcome.valid hkind) hhealthy
          huntroubled
      rcases hraised with hbefore | hafter | ⟨⟨query, hkind, hquery⟩, hunanswered⟩
      · exact absurd hhealthy hbefore
      · exact absurd hnext hafter
      · rw [hkind] at hwelcome
        rw [hwelcome next.chain e huntroubled.left hquery] at hunanswered
        cases hunanswered

theorem dispatch_tidy (h : Sturdy node) (env : Env) (cancelled : Bool)
    (huntroubled : Untroubled (finalState (dispatch store env cancelled) node))
    {raised : PyError -> Node disk -> Prop} :
    Leads Any (dispatch store env cancelled) node (fun _ next => Tidy [] next) raised := by
  unfold dispatch at huntroubled ⊢
  rw [finalState_get_bind] at huntroubled
  apply leads_get_bind
  by_cases hrunning : node.lifecycle ≠ .running
  · rw [if_pos hrunning]
    exact leads_pure h.tidy
  rw [if_neg hrunning] at huntroubled ⊢
  revert huntroubled
  cases hevents : node.events with
  | nil =>
      intro _
      exact leads_pure h.tidy
  | cons item rest =>
      simp only
      rw [finalState_set_bind]
      intro huntroubled
      refine leads_modify_bind (f := fun _ => { node with events := rest }) (any_step _ _) ?_
      have hpopped : Tidy [item.size] { node with events := rest } := h.tidy.popped hevents
      have hhealthy : ({ node with events := rest } : Node disk).Healthy :=
        { h.healthy with }
      have hwelcome : Welcome item.kind := by
        apply h.waiting
        rw [hevents]
        exact List.mem_cons_self
      generalize ({ node with events := rest } : Node disk) = popped at *
      have hreaped : Leads Any (reapPeers env) popped
          (fun _ next => Tidy [item.size] next ∧ next.Healthy) (fun _ _ => False) :=
        reapPeers_tidy hpopped hhealthy env
      cases hreap : reapPeers env popped with
      | error e reaped => exact (hreaped.of_error hreap).right.elim
      | ok _ reaped =>
          rcases (hreaped.of_ok hreap).right with ⟨htidy, hhealthy'⟩
          have hbody := run_bind_ok hreap
            (fun _ => if cancelled then pure none else handleEvent store env item.kind)
          have hhandled : exists value last,
              (if cancelled then pure none else handleEvent store env item.kind) reaped =
                .ok value last ∧ Untouched reaped last := by
            cases cancelled with
            | true => exact ⟨none, reaped, rfl, Untouched.refl reaped⟩
            | false =>
                apply handleEvent_total hhealthy' hwelcome
                have hfinal := finalState_bind_ok hreap
                  (fun _ => handleEvent store env item.kind)
                rcases settle_turns (.dispatch false) item.size rfl hfinal with ⟨hturns, _⟩
                unfold Untroubled at huntroubled ⊢
                rw [← (turns_framed hturns).chain]
                exact huntroubled
          rcases hhandled with ⟨value, handled, hrun, huntouched⟩
          rcases settled_tidy (hbody.trans hrun) (huntouched.tidy htidy) with
            ⟨last, hlast, hsettled⟩
          exact leads_of_ok hsettled (any_step _ _) hlast

theorem handle_tidy (h : Sturdy node) (env : Env) (event : NodeEvent)
    (huntroubled : Untroubled (finalState (handle store env event) node)) :
    Leads Any (handle store env event) node (fun _ next => Tidy [] next)
      (fun _ next => Tidy [] next ∧ Answers node event) := by
  have hsilent : forall {act : NodeM disk Unit},
      Leads Any act node (fun _ next => Tidy [] next)
        (fun _ next => Tidy [] next ∧ Answers node event) ->
      Leads Any (do
        act
        return none : NodeM disk Answer) node (fun _ next => Tidy [] next)
        (fun _ next => Tidy [] next ∧ Answers node event) :=
    fun hact => leads_bind hact (fun _ _ _ hlater => leads_pure hlater)
  cases event with
  | acceptedSocket remote =>
      exact hsilent (acceptedSocket_tidy h.tidy h.healthy h.named env remote)
  | connect endpoint =>
      exact hsilent ((connect_tidy h.tidy env endpoint).weaken (fun _ _ _ hlater => hlater)
        (fun _ _ _ hlater => ⟨hlater, trivial⟩))
  | dialled endpoint remote =>
      exact hsilent (dialled_tidy h.tidy h.healthy h.named env endpoint remote)
  | dialFailed endpoint =>
      refine hsilent ((dialFailed_tidy h.tidy env endpoint).weaken (fun _ _ _ hlater => hlater)
        ?_)
      rintro _ _ _ ⟨hlater, hrefused⟩
      exact ⟨hlater, fun hdial => hrefused (h.healthy.dialTasks endpoint hdial)⟩
  | dialDone endpoint => exact hsilent (leads_modify (any_step _ _) { h.tidy with })
  | readPrefix id a b c d => exact hsilent (readPrefix_tidy h.tidy env id a b c d)
  | readBody id body => exact hsilent (readBody_tidy h.tidy id body)
  | readStopped id => exact hsilent (readStopped_tidy h.tidy id)
  | wrote id => exact hsilent (modifyPeer_tidy h.tidy id (fun _ => rfl))
  | startClosing id => exact hsilent (modifyPeer_tidy h.tidy id mark_beginClose)
  | cleanedUp id => exact hsilent (cleanedUp_tidy h.tidy id)
  | call command =>
      exact hsilent ((call_tidy h.tidy command).weaken (fun _ _ _ hlater => hlater)
        (fun _ _ _ hlater => ⟨hlater, trivial⟩))
  | timer => exact hsilent (timer_tidy h.tidy)
  | dispatch cancelled => exact dispatch_tidy h env cancelled huntroubled
  | stop => exact hsilent (stop_tidy h.tidy)

/-!
## Runs
-/

theorem Happens.healthy (h : Happens store event node next) (hsturdy : Sturdy node)
    (huntroubled : Untroubled next) : next.Healthy := by
  cases h with
  | turned hturns => exact turns_healthy hturns hsturdy.healthy
  | @dispatched cancelled item rest before after _ hevents hturns _ hacts hturns' _ =>
      have hwelcome : Welcome item.kind := by
        apply hsturdy.waiting
        rw [hevents]
        exact List.mem_cons_self
      apply turns_healthy hturns'
      refine moves_healthy (acts_moves hacts) (fun _ _ hkind => hwelcome.valid hkind)
        (turns_healthy hturns hsturdy.healthy) ?_
      unfold Untroubled at huntroubled ⊢
      rw [← (turns_framed hturns').chain]
      exact huntroubled

theorem Happens.framed (h : Happens store event node next) :
    next.config = node.config ∧ next.nodeId = node.nodeId ∧ next.endpoint = node.endpoint := by
  cases h with
  | turned hturns =>
      have hframed := turns_framed hturns
      exact ⟨hframed.config, hframed.nodeId, hframed.endpoint⟩
  | dispatched _ _ hturns _ hacts hturns' _ =>
      have hbefore := turns_framed hturns
      have hsteady := moves_steady (acts_moves hacts)
      have hafter := turns_framed hturns'
      exact ⟨hafter.config.trans (hsteady.config.trans hbefore.config),
        hafter.nodeId.trans (hsteady.nodeId.trans hbefore.nodeId),
        hafter.endpoint.trans (hsteady.endpoint.trans hbefore.endpoint)⟩

theorem machine_step (call : Env × NodeEvent) (node : Node disk) :
    ((machine store).step call node).2 = finalState (handle store call.1 call.2) node := by
  unfold machine finalState
  simp only
  cases handle store call.1 call.2 node with
  | ok _ _ => rfl
  | error _ _ => rfl

theorem Sturdy.step (h : Sturdy node) (call : Env × NodeEvent)
    (hconsiderate : Considerate call.2)
    (huntroubled : Untroubled ((machine store).step call node).2) :
    Sturdy ((machine store).step call node).2 := by
  have hhappens : Happens store call.2 node ((machine store).step call node).2 :=
    machine_happens call node
  rcases hhappens.framed with ⟨_, hnodeId, hendpoint⟩
  refine ⟨hhappens.healthy h huntroubled, ?_, ?_, ?_⟩
  · rw [machine_step] at huntroubled ⊢
    exact ((handle_tidy h call.1 call.2 huntroubled).weaken (fun _ _ _ hlater => hlater)
      (fun _ _ _ hlater => hlater.left)).ends.right
  · refine ⟨?_, ?_, ?_⟩
    · rw [hnodeId]
      exact h.named.nodeId
    · rw [hendpoint]
      exact h.named.port_pos
    · rw [hendpoint]
      exact h.named.port_le
  · intro item hitem
    rcases hhappens.waiting hitem with hold | hnew
    · exact h.waiting item hold
    · exact welcome_of_queues hconsiderate hnew

/-- A node at the end of its startup. -/
structure Started (node : Node disk) : Prop where
  running : node.lifecycle = .running
  failure : node.failure = none
  chain : Constructed node.chain
  sessions : node.sessions = Dict.empty
  events : node.events = []
  inboundEvents : node.inboundEvents = 0
  inboundBytes : node.inboundBytes = 0
  dialTasks : node.dialTasks = []
  manager : node.manager.Healthy node.config
  sync : node.sync = SyncManager.empty
  named : Named node
  frames : MAX_CONTROL_BYTES ≤ node.config.maxFrameBytes

theorem Started.sturdy (h : Started node) (huntroubled : Untroubled node) : Sturdy node := by
  have hmarks : marks node = [] := by
    unfold marks
    rw [h.sessions]
    rfl
  have hheld : held node = [] := by
    unfold held
    rw [hmarks]
    rfl
  constructor
  · refine ⟨huntroubled.left, ?_, huntroubled.right, NodeConfig.admitsControl h.frames, ?_,
      h.manager, ?_, ?_⟩
    · rcases h.chain.sound.valid with ⟨tip, hvalid⟩
      exact hvalid.ne_nil
    · intro id session hsession
      rw [h.sessions] at hsession
      cases hsession
    · intro endpoint hendpoint
      rw [h.dialTasks] at hendpoint
      cases hendpoint
    · intro id download hdownload
      rw [h.sync] at hdownload
      cases hdownload
  · refine ⟨h.failure, ?_, ?_, ?_, ?_, ?_, ?_⟩
    · rw [h.running]
      exact fun hfailed => by cases hfailed
    · rw [hmarks]
      exact fun _ hmem => by cases hmem
    · rw [hheld]
      exact fun _ hmem => by cases hmem
    · rw [h.events, hheld, h.inboundEvents]
      exact le_refl _
    · rw [h.events, hheld, h.inboundBytes]
      exact le_refl _
    · rw [h.inboundEvents]
      exact Int.natCast_nonneg _
  · exact h.named
  · rw [h.events]
    exact fun _ hmem => by cases hmem

theorem Happens.untroubled (h : Happens store event node next) (huntroubled : Untroubled next) :
    Untroubled node := by
  have hback : forall {first last : Node disk}, last.chain = first.chain ->
      Untroubled last -> Untroubled first := by
    intro first last hchain hlast
    unfold Untroubled at hlast ⊢
    rw [← hchain]
    exact hlast
  cases h with
  | turned hturns => exact hback (turns_framed hturns).chain huntroubled
  | @dispatched _ _ _ before after _ _ hturns _ hacts hturns' _ =>
      apply hback (turns_framed hturns).chain
      have hafter : Untroubled after := hback (turns_framed hturns').chain huntroubled
      exact moves_untroubled (acts_moves hacts) hafter

end Chain

end Node

end Network

/-!
# A peer that misbehaves

The peer of the download sends a frame that is not JSON before its batch arrives.
-/

namespace Sample

open Network

/-- A run that only reads in passing. -/
def quietEvent : NodeEvent -> Bool
  | .call _ => false
  | _ => true

theorem considerate_of_quiet {event : NodeEvent} (h : quietEvent event = true) :
    Node.Considerate event := by
  intro query hevent
  rw [hevent] at h
  cases h

theorem listening_started : @Node.Started Unit crypto listening := by
  refine @Node.Started.mk Unit crypto listening rfl rfl listening_constructed rfl rfl rfl rfl
    rfl ?_ rfl ?_ (by decide)
  · intro endpoint entry hentry
    cases hentry
  · exact ⟨by decide, by decide, by decide⟩

/-- The chain of the node can be used, and it is short. -/
def usable (node : Node Unit) : Bool :=
  match Blockchain.ensureUsable node.chain with
  | .ok _ => decide (node.chain.blocks.length ≤ MAX_HEIGHT + 1)
  | .error _ => false

theorem untroubled_of_usable {node : Node Unit} (h : usable node = true) :
    Node.Untroubled node := by
  unfold usable at h
  unfold Node.Untroubled
  cases husable : Blockchain.ensureUsable node.chain with
  | ok answer =>
      rw [husable] at h
      exact ⟨rfl, of_decide_eq_true h⟩
  | error e =>
      rw [husable] at h
      cases h

end Sample

namespace Network

namespace Node

end Node

end Network

end PyChain
