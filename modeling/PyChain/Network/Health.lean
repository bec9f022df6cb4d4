import PyChain.Network.Candidates

/-!
# A healthy node stays healthy

No move of a handler spoils what a node relies on, as long as its chain stays
usable and the messages it reads are valid.
-/

namespace PyChain

open Foundation

namespace Network

theorem Session.Healthy.transfer {config : NodeConfig} {session next : Session}
    (h : session.Healthy config) (hversion : next.versionReceived = session.versionReceived)
    (hnodeId : next.peer.nodeId = session.peer.nodeId)
    (hnonce : next.peer.remoteNonce = session.peer.remoteNonce)
    (hestablished : next.peer.established = session.peer.established)
    (hendpoint : next.endpoint = session.endpoint) : next.Healthy config := by
  constructor
  · rw [hversion, hnodeId, hnonce, hendpoint]
    exact h.introduced
  · rw [hversion, hestablished]
    exact h.established
  · rw [hendpoint]
    exact h.endpoint

namespace Node

variable {disk : Type}

section Chain

variable [Crypto] {store : Option (ChainStore disk)} {input : EventKind} {node : Node disk}

omit [Crypto] in
theorem Quiet.healthy {config : NodeConfig} {session next : Session} (h : Quiet session next)
    (hhealthy : session.Healthy config) : next.Healthy config :=
  hhealthy.transfer h.versionReceived (congrArg PeerConnection.nodeId h.peer)
    (congrArg PeerConnection.remoteNonce h.peer)
    (congrArg PeerConnection.established h.peer) h.endpoint

omit [Crypto] in
theorem beginClose_healthy {config : NodeConfig} {session : Session}
    (h : session.Healthy config) :
    ({ session with peer := session.peer.beginClose } : Session).Healthy config := by
  unfold PeerConnection.beginClose
  split
  · exact h
  · refine ⟨h.introduced, ?_, h.endpoint⟩
    intro hestablished
    cases hestablished

omit [Crypto] in
theorem Healthy.replace {id : Str} {session next : Session} (h : node.Healthy)
    (hsession : node.sessions.get? id = some session)
    (hnext : session.Healthy node.config -> next.Healthy node.config) :
    (node.replace id next).Healthy := by
  refine { h with sessions := ?_ }
  intro other found hfound
  rw [get?_replace hsession] at hfound
  split at hfound
  · rw [← Option.some.inj hfound]
    exact hnext (h.sessions id session hsession)
  · exact h.sessions other found hfound

omit [Crypto] in
theorem Talk.healthy {speech : Str -> Blockchain -> Session -> Payload -> Prop}
    {next : Node disk} (h : Talk speech node next) (hhealthy : node.Healthy) : next.Healthy := by
  cases h with
  | counted counters => exact { hhealthy with }
  | drew => exact { hhealthy with }
  | quiet hsession hquiet => exact hhealthy.replace hsession hquiet.healthy
  | queued hsession _ _ _ =>
      exact hhealthy.replace hsession (fun h => h.transfer rfl rfl rfl rfl rfl)
  | overflowed hsession _ => exact hhealthy.replace hsession beginClose_healthy

omit [Crypto] in
theorem checkVersion_accepts {session : Session} {payload : VersionPayload}
    {endpoint : Endpoint} (h : checkVersion node session payload = .ok endpoint) :
    node.config.Accepts endpoint := by
  unfold checkVersion at h
  rcases bind_eq_ok_iff.mp h with ⟨_, _, h⟩
  rcases bind_eq_ok_iff.mp h with ⟨_, _, h⟩
  rcases bind_eq_ok_iff.mp h with ⟨_, _, h⟩
  rcases bind_eq_ok_iff.mp h with ⟨_, _, h⟩
  rcases bind_eq_ok_iff.mp h with ⟨found, hfound, h⟩
  rcases bind_eq_ok_iff.mp h with ⟨_, _, h⟩
  cases h
  exact (validateEndpoint_same hfound).right

theorem Move.healthy {next : Node disk} (h : Move store input node next)
    (hvalid : forall id packet, input = .remote id packet -> packet.Valid)
    (husable : Blockchain.ensureUsable next.chain = .ok ())
    (hheight : next.chain.blocks.length ≤ MAX_HEIGHT + 1) (hhealthy : node.Healthy) :
    next.Healthy := by
  have hprefix := h.steady.blocks
  cases h with
  | talk h => exact h.healthy hhealthy
  | relayed h => exact h.healthy hhealthy
  | quietAll h =>
      refine { hhealthy with sessions := ?_ }
      intro id found hfound
      rw [Dict.get?_mapValues] at hfound
      rcases Option.map_eq_some_iff.mp hfound with ⟨session, hsession, heq⟩
      rw [← heq]
      exact (h session).healthy (hhealthy.sessions id session hsession)
  | performed _ =>
      refine { hhealthy with usable := husable, height := hheight, nonempty := ?_ }
      intro hempty
      rw [hempty] at hprefix
      exact hhealthy.nonempty (List.prefix_nil.mp hprefix)
  | synced _ hsync => exact { hhealthy with sync := hsync hvalid hhealthy.sync }
  | managed hmanager hdials =>
      exact { hhealthy with
        manager := hmanager hhealthy.manager
        dialTasks := hdials hhealthy.dialTasks }
  | closed hsession =>
      exact hhealthy.replace hsession (fun h => h.transfer rfl rfl rfl rfl rfl)
  | superseded hsession _ _ =>
      exact hhealthy.replace hsession (fun h => h.transfer rfl rfl rfl rfl rfl)
  | introduced hsession hfresh _ hchecked =>
      apply hhealthy.replace hsession
      intro _
      refine ⟨fun _ => ⟨rfl, rfl, rfl⟩, fun _ => rfl, ?_⟩
      intro found hfound
      rw [← Option.some.inj hfound]
      exact checkVersion_accepts hchecked
  | acknowledged hsession _ _ _ _ =>
      exact hhealthy.replace hsession (fun h => h.transfer rfl rfl rfl rfl rfl)
  | established hsession _ hversion _ _ =>
      apply hhealthy.replace hsession
      intro h
      exact ⟨h.introduced, fun _ => hversion, h.endpoint⟩
  | heard hsession _ _ =>
      exact hhealthy.replace hsession (fun h => h.transfer rfl rfl rfl rfl rfl)
  | diverged hsession _ hquiet =>
      apply hhealthy.replace hsession
      intro h
      exact hquiet.healthy (h.transfer rfl rfl rfl rfl rfl)
  | refused hsession _ =>
      exact hhealthy.replace hsession (fun h => h.transfer rfl rfl rfl rfl rfl)
  | ticked => exact { hhealthy with }

theorem calm_healthy {next : Node disk} (h : Relation.ReflTransGen (Calm store input) node next)
    (hvalid : forall id packet, input = .remote id packet -> packet.Valid)
    (hhealthy : node.Healthy) : next.Healthy := by
  induction h with
  | refl => exact hhealthy
  | tail _ hlast ih =>
      apply hlast.left.healthy hvalid _ _ ih
      · rw [hlast.right.left]
        exact ih.usable
      · rw [hlast.right.left]
        exact ih.height

end Chain

end Node

end Network

end PyChain
