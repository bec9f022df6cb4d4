import PyChain.Foundation.Places
import PyChain.Network.Dialling
import PyChain.Network.Routine

/-!
# The peer slots of a node

A node counts its sessions and the dials that none of them has come from.  Closed
sessions are counted until they are reaped, so a dial may be hidden behind one.
-/

namespace PyChain

open Foundation

namespace Network

/-- What the slot of a session depends on. -/
structure Session.Seated (session next : Session) : Prop where
  dialEndpoint : next.dialEndpoint = session.dialEndpoint
  outbound : session.Outbound -> next.Outbound
  closed : session.peer.closed = true -> next.peer.closed = true

theorem Session.Stays.seated {session next : Session} (h : session.Stays next) :
    session.Seated next :=
  ⟨h.dialEndpoint, h.outbound, h.closed⟩

theorem Session.Seated.open_before {session next : Session} (h : session.Seated next)
    (hopen : next.isOpen = true) : session.isOpen = true := by
  unfold Session.isOpen at hopen ⊢
  rw [Bool.not_eq_true'] at hopen ⊢
  rw [Bool.eq_false_iff] at hopen ⊢
  exact fun hclosed => hopen (h.closed hclosed)

namespace Node

variable {disk : Type}

def openSessions (node : Node disk) : Nat :=
  node.sessions.values.countP Session.isOpen

/-- The dials that have no open session. -/
def unattachedDials (node : Node disk) : Nat :=
  vacant Session.dialEndpoint Session.isOpen node.sessions.values node.dialTasks

def WithinSlots (node : Node disk) : Prop :=
  node.openSessions + node.unattachedDials ≤ node.config.maxPeers ∧
    node.dialTasks.length ≤ node.config.maxConcurrentDials

/-!
## Held slots
-/

/-- Open sessions by where they come from. -/
def openBy (node : Node disk) (origin : Option Endpoint -> Bool) : Nat :=
  node.sessions.values.countP (fun session => session.isOpen && origin session.dialEndpoint)

def AllOutbound (node : Node disk) : Prop :=
  forall session, session ∈ node.sessions.values -> session.Outbound

/-- A change that opens no session and starts no dial. -/
structure Held (node next : Node disk) : Prop where
  config : next.config = node.config
  dialTasks : next.dialTasks = node.dialTasks
  outbound : node.AllOutbound -> next.AllOutbound
  opened : forall origin, next.openBy origin ≤ node.openBy origin

theorem Held.refl (node : Node disk) : Held node node :=
  ⟨rfl, rfl, fun h => h, fun _ => Nat.le_refl _⟩

theorem Held.trans {node middle next : Node disk} (h : Held node middle)
    (h' : Held middle next) : Held node next where
  config := h'.config.trans h.config
  dialTasks := h'.dialTasks.trans h.dialTasks
  outbound := fun houtbound => h'.outbound (h.outbound houtbound)
  opened := fun origin => (h'.opened origin).trans (h.opened origin)

theorem held_of_seated {node next : Node disk} (hconfig : next.config = node.config)
    (hdials : next.dialTasks = node.dialTasks)
    (hsessions : List.Forall₂ Session.Seated node.sessions.values next.sessions.values) :
    Held node next where
  config := hconfig
  dialTasks := hdials
  outbound := by
    intro houtbound later hlater
    rcases forall₂_exists hsessions.flip hlater with ⟨session, hsession, hseated⟩
    exact hseated.outbound (houtbound session hsession)
  opened := by
    intro origin
    refine countP_forall₂ hsessions ?_
    intro session later hseated hcounted
    rcases Bool.and_eq_true_iff.mp hcounted with ⟨hopen, horigin⟩
    rw [hseated.dialEndpoint] at horigin
    exact Bool.and_eq_true_iff.mpr ⟨hseated.open_before hopen, horigin⟩

theorem Frame.held {node next : Node disk} (h : Frame node next) : Held node next := by
  refine held_of_seated h.config h.dialTasks ?_
  unfold Dict.values
  rw [List.forall₂_map_left_iff, List.forall₂_map_right_iff]
  exact h.sessions.imp (fun _ _ hitem => hitem.right.seated)

theorem held_modify (node : Node disk) (id : Str) {f : Session -> Session}
    (hf : forall session, node.sessions.get? id = some session -> session.Seated (f session)) :
    Held node { node with sessions := node.sessions.modify id f } := by
  refine held_of_seated rfl rfl ?_
  unfold Dict.values Dict.modify
  rw [List.map_map, List.forall₂_map_left_iff, List.forall₂_map_right_iff, List.forall₂_same]
  intro item hitem
  dsimp only [Function.comp_apply]
  split
  · rename_i hkey
    apply hf
    rw [← hkey]
    exact (Dict.get?_eq_some_iff node.sessions item.1 item.2).mpr hitem
  · exact (Session.Stays.refl item.2).seated

theorem held_replace {node : Node disk} {id : Str} {session later : Session}
    (hsession : node.sessions.get? id = some session) (hseated : session.Seated later) :
    Held node (node.replace id later) := by
  apply held_modify
  intro known hknown
  rw [hsession] at hknown
  rw [← Option.some.inj hknown]
  exact hseated

theorem held_mapValues (node : Node disk) {f : Session -> Session}
    (hf : forall session : Session, session.Seated (f session)) :
    Held node { node with sessions := node.sessions.mapValues f } := by
  refine held_of_seated rfl rfl ?_
  unfold Dict.values Dict.mapValues
  rw [List.map_map, List.forall₂_map_left_iff, List.forall₂_map_right_iff, List.forall₂_same]
  intro item _
  exact hf item.2

theorem held_erase (node : Node disk) (id : Str) :
    Held node { node with
      closedPeers := node.closedPeers.erase id
      sessions := node.sessions.erase id } := by
  have hvalues : (node.sessions.erase id).values.Sublist node.sessions.values :=
    List.filter_sublist.map Prod.snd
  exact ⟨rfl, rfl, fun houtbound session hsession => houtbound session (hvalues.subset hsession),
    fun origin => hvalues.countP_le⟩

theorem Routine.held {node next : Node disk} (h : Routine node next) : Held node next := by
  cases h with
  | framed hframe => exact hframe.held
  | asked hframe _ hsession _ =>
      exact hframe.held.trans (held_replace hsession ⟨rfl, fun h => h, fun h => h⟩)
  | answered hsession _ _ => exact held_replace hsession ⟨rfl, fun h => h, fun h => h⟩

/-!
## Methods that hold the slots
-/

section Methods

theorem plain_held {alpha : Type} {act : NodeM disk alpha} (h : Plain act) : Within Held act :=
  h.mono (fun _ _ => Routine.held)

theorem modifySession_held (id : Str) {f : Session -> Session}
    (hf : forall session : Session, session.Seated (f session)) :
    Within Held (modifySession id f : NodeM disk Unit) :=
  within_modify (fun node => held_modify node id (fun session _ => hf session))

theorem modifySync_held (f : SyncManager -> SyncManager) :
    Within Held (modifySync f : NodeM disk Unit) :=
  within_modify (fun _ => ⟨rfl, rfl, fun h => h, fun _ => Nat.le_refl _⟩)

theorem request_held (env : Env) (id : Str) (request : Request) :
    Within Held (Node.request env id request : NodeM disk (Option Str)) := by
  unfold Node.request
  refine within_get_bind (fun _ => within_session_bind (fun _ => within_ite (within_pure _)
    (within_bind (plain_held drawToken_plain) (fun requestId =>
      within_bind (plain_held (send_plain _ _)) (fun sent => within_ite ?_ (within_pure _))))))
  exact within_bind (modifySession_held id (fun _ => ⟨rfl, fun h => h, fun h => h⟩))
    (fun _ => within_pure _)

theorem failedRequest_held (env : Env) (id : Str) (request : Request) (code : FailureCode) :
    Within Held (failedRequest env id request code : NodeM disk Unit) := by
  cases request with
  | getBlocks payload =>
      unfold failedRequest
      refine within_get_bind (fun node => within_bind
        (modifySession_held id (fun _ => ⟨rfl, fun h => h, fun h => h⟩)) (fun _ =>
          within_bind (modifySync_held _) (fun _ => within_bind
            (modifySession_held id (fun _ => ⟨rfl, fun h => h, fun h => h⟩)) (fun _ =>
              within_ite ?_ (within_pure _)))))
      exact within_bind (modifySession_held id (fun _ => ⟨rfl, fun h => h, fun h => h⟩))
        (fun _ => within_discard (request_held env id _))
  | getMempool payload => exact plain_held (failedRequest_plain env id code (by rintro ⟨⟩))
  | getStatus => exact plain_held (failedRequest_plain env id code (by decide))
  | getPeers => exact plain_held (failedRequest_plain env id code (by decide))

theorem correlate_held (env : Env) (id requestId : Str) (kind : MessageType) :
    Within Held (correlate env id requestId kind : NodeM disk (Option Request)) := by
  unfold correlate
  apply within_session_bind
  intro session
  split
  · exact within_ite (within_pure _) (within_throw _)
  · refine within_bind (modifySession_held id (fun _ => ⟨rfl, fun h => h, fun h => h⟩)) (fun _ =>
      within_bind (plain_held (expire_plain env id requestId)) (fun _ => ?_))
    exact within_ite (within_throw _) (within_pure _)

theorem timeoutRequest_held (env : Env) (id : Str) (item : Str × PendingRequest) :
    Within Held (timeoutRequest env id item : NodeM disk Unit) := by
  unfold timeoutRequest
  refine within_ite (within_bind
    (modifySession_held id (fun _ => ⟨rfl, fun h => h, fun h => h⟩)) (fun _ =>
      within_bind (plain_held (expire_plain env id item.1)) (fun _ =>
        failedRequest_held env id item.2.request .timeout))) (within_pure _)

theorem tickSession_held (env : Env) (id : Str) :
    Within Held (tickSession env id : NodeM disk Unit) := by
  unfold tickSession
  refine within_get_bind (fun _ => within_session_bind (fun known =>
    within_ite (within_pure _) (within_ite
      (within_ite (plain_held (closePeer_plain id)) (within_pure _)) ?_)))
  exact within_bind (within_forM (timeoutRequest_held env id)) (fun _ => within_bind
    (modifySession_held id (fun _ => ⟨rfl, fun h => h, fun h => h⟩)) (fun _ =>
      plain_held (maintain_plain env id)))

theorem requestBlocks_held (env : Env) (height : Nat) (tipHash : Str) :
    Within Held (requestBlocks env height tipHash : NodeM disk Unit) := by
  unfold requestBlocks
  refine within_get_bind (fun _ => within_lift_bind (fun best => ?_))
  split
  · exact within_pure _
  · refine within_bind (request_held env _ _) (fun _ => within_ite ?_ (within_pure _))
    exact within_bind (modifySync_held _) (fun _ =>
      modifySession_held _ (fun _ => ⟨rfl, fun h => h, fun h => h⟩))

theorem syncDisconnected_held (id : Str) :
    Within Held (syncDisconnected id : NodeM disk Unit) :=
  within_bind (plain_held (dropExport_plain id)) (fun _ => modifySync_held _)

theorem reapPeer_held (env : Env) (id : Str) :
    Within Held (reapPeer env id : NodeM disk Unit) := by
  intro node
  unfold reapPeer
  apply leads_get_bind
  have hforgotten : Leads Held
      (set { node with
        closedPeers := node.closedPeers.erase id
        sessions := node.sessions.erase id } : NodeM disk PUnit) node
      (fun _ _ => True) (fun _ _ => True) :=
    leads_of_ok rfl (Relation.ReflTransGen.single (held_erase node id)) trivial
  refine leads_bind hforgotten ?_
  intro _ later _ _
  split
  · exact within_pure _ later
  · refine within_bind (syncDisconnected_held id) (fun _ => ?_) later
    split
    · exact within_pure _
    · refine within_get_bind (fun _ => within_ite ?_ (within_pure _))
      intro later
      refine leads_drawJitter_bind (frame_drew later).held (fun jitter => ?_)
      apply leads_get_bind
      apply leads_lift_bind
      · intro manager _
        exact leads_of_ok rfl (Relation.ReflTransGen.single
          ⟨rfl, rfl, fun h => h, fun _ => Nat.le_refl _⟩) trivial
      · intro _ _
        trivial

section Chain

variable [Crypto] {store : Option (ChainStore disk)}

theorem syncTick_held (env : Env) : Within Held (syncTick env : NodeM disk Unit) := by
  unfold syncTick
  refine within_get_bind (fun _ => within_bind
    (within_forM (fun id => plain_held (expireExport_plain env id))) (fun _ =>
      within_bind (plain_held tip_plain) (fun current => within_get_bind (fun _ =>
        within_bind (modifySync_held _) (fun _ => within_get_bind (fun _ => ?_))))))
  have hmempool : forall ids : List Str, Within Held
      (ids.forM (requestMempool env current.1 current.2) : NodeM disk Unit) :=
    fun _ => within_forM (fun id => plain_held (requestMempool_plain env _ _ id))
  exact within_ite (within_bind (requestBlocks_held env _ _) (fun _ => hmempool _)) (hmempool _)

theorem receiveBlocks_held (env : Env) (id : Str) (expected : GetBlocksPayload)
    (payload : BlocksPayload) : Within Held (receiveBlocks store env id expected payload) := by
  unfold receiveBlocks
  refine within_bind (modifySync_held _) (fun _ => within_bind
    (modifySession_held id (fun _ => ⟨rfl, fun h => h, fun h => h⟩)) (fun _ =>
      within_ite (within_throw _) (within_bind (plain_held tip_plain) (fun _ =>
        within_ite (within_pure _) (within_ite (within_throw _)
          (within_bind (plain_held (acceptBatch_plain env id _)) (fun accepted =>
            within_ite (failedRequest_held env id _ _) (within_bind (plain_held tip_plain)
              (fun reached => within_ite (within_throw _) (within_get_bind (fun _ => ?_)))))))))))
  exact within_bind (modifySession_held id (fun _ => ⟨rfl, fun h => h, fun h => h⟩)) (fun _ =>
    within_ite (within_discard (request_held env id _)) (within_pure _))

theorem receiveResponse_held (env : Env) (id : Str) (request : Request) (payload : Payload) :
    Within Held (receiveResponse store env id request payload) := by
  unfold receiveResponse
  split
  · exact failedRequest_held env id _ _
  · exact plain_held (receiveStatus_plain id true _)
  · exact within_forM (fun endpoint => plain_held (learnEndpoint_plain env endpoint))
  · exact receiveBlocks_held env id _ _
  · exact plain_held (receiveMempool_plain env id _ _)
  · exact within_throw _

theorem remote_held (env : Env) (id : Str) (packet : Packet) :
    Within Held (remote store env id packet) := by
  unfold remote
  refine within_bind (plain_held (modifyCounters_plain _)) (fun _ => within_session_bind
    (fun session => within_ite (plain_held (handshake_plain env id _)) ?_))
  split
  · exact within_throw _
  · exact within_throw _
  · exact within_discard (plain_held (send_plain _ _))
  · exact within_ite (within_throw _)
      (modifySession_held id (fun _ => ⟨rfl, fun h => h, fun h => h⟩))
  · exact within_bind (plain_held statusPayload_plain) (fun _ =>
      within_discard (plain_held (send_plain _ _)))
  · exact plain_held (servePeers_plain env id _)
  · exact within_bind (plain_held (consumeService_plain env id)) (fun _ => within_ite
      (plain_held (serveBlocks_plain id _ _)) (plain_held (sendError_plain _ _ _)))
  · exact within_bind (plain_held (consumeService_plain env id)) (fun _ => within_ite
      (plain_held (serveMempool_plain env id _ _)) (plain_held (sendError_plain _ _ _)))
  · split
    · exact plain_held (receiveAnnouncement_plain env id _)
    · refine within_bind (correlate_held env id _ _) (fun answered => ?_)
      split
      · exact within_pure _
      · exact receiveResponse_held env id _ _

theorem handleRemote_held (env : Env) (id : Str) (packet : Packet) :
    Within Held (handleRemote store env id packet) := by
  unfold handleRemote
  apply within_get_bind
  intro node
  split
  · exact within_pure _
  · refine within_ite (within_pure _) (within_tryCatch (remote_held env id packet) (fun e =>
      within_ite ?_ (within_throw _)))
    exact within_bind (modifySession_held id (fun _ => ⟨rfl, fun h => h, fun h => h⟩))
      (fun _ => plain_held (closePeer_plain id))

end Chain

end Methods

/-!
## Taken slots
-/

/-- Every dial and every open session without one has a slot.  At most one open session
has come from each dial, and none before the socket of the dial is open. -/
structure Slotted (opened : List Endpoint) (node : Node disk) : Prop where
  outbound : node.AllOutbound
  nodup : node.dialTasks.Nodup
  dials : node.dialTasks.length ≤ node.config.maxConcurrentDials
  room : node.dialTasks.length +
    walkIns Session.dialEndpoint Session.isOpen node.dialTasks node.sessions.values ≤
      node.config.maxPeers
  single : forall endpoint, endpoint ∈ node.dialTasks ->
    holders Session.dialEndpoint Session.isOpen node.sessions.values endpoint ≤ 1
  unopened : forall endpoint, endpoint ∈ node.dialTasks -> endpoint ∉ opened ->
    holders Session.dialEndpoint Session.isOpen node.sessions.values endpoint = 0

variable {opened : List Endpoint} {node next : Node disk}

theorem slotted_empty (hsessions : node.sessions = Dict.empty) (hdials : node.dialTasks = []) :
    Slotted opened node := by
  refine ⟨?_, ?_, ?_, ?_, ?_, ?_⟩
  · intro session hsession
    rw [hsessions] at hsession
    cases hsession
  · rw [hdials]
    exact List.nodup_nil
  · rw [hdials]
    exact Nat.zero_le _
  · rw [hdials, hsessions]
    exact Nat.zero_le _
  · rw [hdials]
    intro endpoint h
    cases h
  · rw [hdials]
    intro endpoint h
    cases h

theorem Slotted.within (h : Slotted opened node) : node.WithinSlots :=
  ⟨(present_add_vacant_le h.single).trans h.room, h.dials⟩

theorem Held.walkIns_le (h : Held node next) (keys : List Endpoint) :
    walkIns Session.dialEndpoint Session.isOpen keys next.sessions.values ≤
      walkIns Session.dialEndpoint Session.isOpen keys node.sessions.values :=
  h.opened (fun origin => !keys.any (fun k => decide (origin = some k)))

theorem Held.holders_le (h : Held node next) (endpoint : Endpoint) :
    holders Session.dialEndpoint Session.isOpen next.sessions.values endpoint ≤
      holders Session.dialEndpoint Session.isOpen node.sessions.values endpoint :=
  h.opened (fun origin => decide (origin = some endpoint))

theorem Slotted.held (h : Slotted opened node) (hheld : Held node next) :
    Slotted opened next where
  outbound := hheld.outbound h.outbound
  nodup := by
    rw [hheld.dialTasks]
    exact h.nodup
  dials := by
    rw [hheld.dialTasks, hheld.config]
    exact h.dials
  room := by
    rw [hheld.dialTasks, hheld.config]
    exact (Nat.add_le_add_left (hheld.walkIns_le _) _).trans h.room
  single := by
    rw [hheld.dialTasks]
    exact fun endpoint hdial => (hheld.holders_le endpoint).trans (h.single endpoint hdial)
  unopened := by
    rw [hheld.dialTasks]
    intro endpoint hdial hunopened
    exact Nat.eq_zero_of_le_zero
      ((hheld.holders_le endpoint).trans (h.unopened endpoint hdial hunopened).le)

theorem Slotted.settle (h : Slotted opened node) :
    Slotted (opened.filter (fun endpoint => endpoint ∈ node.dialTasks)) node :=
  { h with
    unopened := by
      intro endpoint hdial hunopened
      refine h.unopened endpoint hdial (fun hopened => hunopened ?_)
      exact List.mem_filter.mpr ⟨hopened, decide_eq_true hdial⟩ }

theorem Slotted.mono (h : Slotted opened node) {later : List Endpoint}
    (hsubset : opened ⊆ later) : Slotted later node :=
  { h with unopened := fun endpoint hdial hlater =>
      h.unopened endpoint hdial (fun hopened => hlater (hsubset hopened)) }

theorem occupiedSlots_eq (node : Node disk) :
    occupiedSlots node = node.sessions.values.length +
      vacant Session.dialEndpoint (fun _ => true) node.sessions.values node.dialTasks := by
  unfold occupiedSlots vacant Dict.size Dict.values
  rw [List.length_map, ← List.countP_eq_length_filter]
  congr 1
  apply List.countP_congr
  intro endpoint _
  simp

theorem Slotted.occupied (h : Slotted opened node) :
    node.dialTasks.length +
      walkIns Session.dialEndpoint Session.isOpen node.dialTasks node.sessions.values ≤
        occupiedSlots node := by
  rw [occupiedSlots_eq]
  exact taken_le h.nodup _

theorem AllOutbound.unheld (h : node.AllOutbound) {endpoint : Endpoint}
    (hfree : forall session, session ∈ node.sessions.values -> session.isOpen = true ->
      session.dialEndpoint = some endpoint -> session.endpoint ≠ some endpoint) :
    holders Session.dialEndpoint Session.isOpen node.sessions.values endpoint = 0 := by
  unfold holders
  rw [List.countP_eq_zero]
  intro session hsession hcounted
  rcases Bool.and_eq_true_iff.mp hcounted with ⟨hopen, hdialled⟩
  have hdialled := of_decide_eq_true hdialled
  exact hfree session hsession hopen hdialled (h session hsession endpoint hdialled).right

theorem Slotted.dial (h : Slotted opened node) {endpoint : Endpoint}
    (hnew : endpoint ∉ node.dialTasks)
    (hunheld : holders Session.dialEndpoint Session.isOpen node.sessions.values endpoint = 0)
    (hslots : occupiedSlots node < node.config.maxPeers)
    (hdials : node.dialTasks.length < node.config.maxConcurrentDials) (manager : PeerManager) :
    Slotted opened
      { node with manager := manager, dialTasks := node.dialTasks ++ [endpoint] } where
  outbound := h.outbound
  nodup := by
    refine List.Nodup.append h.nodup (List.nodup_singleton _) ?_
    rw [List.disjoint_singleton]
    exact hnew
  dials := by
    rw [List.length_append]
    exact hdials
  room := by
    have hwalk := walkIns_reserve Session.dialEndpoint Session.isOpen node.dialTasks endpoint
      node.sessions.values
    have hoccupied := h.occupied
    rw [List.length_append, List.length_singleton]
    dsimp only
    omega
  single := by
    intro other hother
    rcases List.mem_append.mp hother with hold | hlast
    · exact h.single other hold
    · rw [List.mem_singleton.mp hlast]
      exact hunheld.le.trans (Nat.zero_le 1)
  unopened := by
    intro other hother hunopened
    rcases List.mem_append.mp hother with hold | hlast
    · exact h.unopened other hold hunopened
    · rw [List.mem_singleton.mp hlast]
      exact hunheld

theorem Slotted.hangUp (h : Slotted opened node) (endpoint : Endpoint) (manager : PeerManager) :
    Slotted opened
      { node with manager := manager, dialTasks := node.dialTasks.erase endpoint } where
  outbound := h.outbound
  nodup := h.nodup.erase endpoint
  dials := List.length_erase_le.trans h.dials
  room := by
    by_cases hdial : endpoint ∈ node.dialTasks
    · have hwalk := walkIns_cancel Session.dialEndpoint Session.isOpen node.dialTasks endpoint
        node.sessions.values
      have hsingle := h.single endpoint hdial
      have hroom := h.room
      have hlength := List.length_erase_of_mem hdial
      have hpos := List.length_pos_of_mem hdial
      dsimp only
      omega
    · dsimp only
      rw [List.erase_of_not_mem hdial]
      exact h.room
  single := fun other hother => h.single other (List.mem_of_mem_erase hother)
  unopened := fun other hother => h.unopened other (List.mem_of_mem_erase hother)

theorem countP_opened (node : Node disk) (remote : Endpoint) (dialEndpoint : Option Endpoint)
    (now : Rat) (origin : Option Endpoint -> Bool) :
    (node.opened remote dialEndpoint now).openBy origin ≤
      node.openBy origin + if origin dialEndpoint = true then 1 else 0 :=
  Dict.countP_values_set node.sessions _ _ _

theorem allOutbound_opened (h : node.AllOutbound) (remote : Endpoint)
    (dialEndpoint : Option Endpoint) (now : Rat) :
    (node.opened remote dialEndpoint now).AllOutbound := by
  intro session hsession
  rcases List.mem_map.mp hsession with ⟨item, hitem, hvalue⟩
  rcases (Dict.mem_items_set _ _ _ _).mp hitem with hnew | ⟨hold, _⟩
  · rw [← hvalue, hnew]
    intro endpoint hdialled
    exact ⟨by rw [show dialEndpoint = some endpoint from hdialled]; rfl, hdialled⟩
  · rw [← hvalue]
    exact h item.2 (List.mem_map.mpr ⟨item, hold, rfl⟩)

theorem Slotted.attach (h : Slotted opened node) {endpoint : Endpoint}
    (hdial : endpoint ∈ node.dialTasks) (hunopened : endpoint ∉ opened) (remote : Endpoint)
    (now : Rat) :
    Slotted (opened ++ [endpoint]) (node.opened remote (some endpoint) now) where
  outbound := allOutbound_opened h.outbound remote (some endpoint) now
  nodup := h.nodup
  dials := h.dials
  room := by
    have hcount := node.countP_opened remote (some endpoint) now
      (fun origin => !node.dialTasks.any (fun k => decide (origin = some k)))
    have hreserved : (!node.dialTasks.any (fun k => decide (some endpoint = some k))) = false := by
      rw [Bool.not_eq_false', List.any_eq_true]
      exact ⟨endpoint, hdial, decide_eq_true rfl⟩
    rw [hreserved, if_neg Bool.false_ne_true] at hcount
    exact (Nat.add_le_add_left hcount _).trans h.room
  single := by
    intro other hother
    have hcount := node.countP_opened remote (some endpoint) now
      (fun origin => decide (origin = some other))
    by_cases hsame : some endpoint = some other
    · have hnone := h.unopened endpoint hdial hunopened
      rw [Option.some.inj hsame] at hnone
      rw [if_pos (decide_eq_true hsame)] at hcount
      exact hcount.trans (Nat.add_le_add_right hnone.le 1)
    · rw [if_neg (fun heq => hsame (of_decide_eq_true heq))] at hcount
      exact hcount.trans (h.single other hother)
  unopened := by
    intro other hother hlater
    rw [List.mem_append, not_or, List.mem_singleton] at hlater
    have hcount := node.countP_opened remote (some endpoint) now
      (fun origin => decide (origin = some other))
    have hdistinct : ¬ some endpoint = some other :=
      fun heq => hlater.right (Option.some.inj heq).symm
    rw [if_neg (fun heq => hdistinct (of_decide_eq_true heq))] at hcount
    exact Nat.eq_zero_of_le_zero (hcount.trans (h.unopened other hother hlater.left).le)

theorem Slotted.accept (h : Slotted opened node)
    (hslots : occupiedSlots node < node.config.maxPeers) (remote : Endpoint) (now : Rat) :
    Slotted opened (node.opened remote none now) where
  outbound := allOutbound_opened h.outbound remote none now
  nodup := h.nodup
  dials := h.dials
  room := by
    have hcount := node.countP_opened remote none now
      (fun origin => !node.dialTasks.any (fun k => decide (origin = some k)))
    have hle : walkIns Session.dialEndpoint Session.isOpen node.dialTasks
        (node.opened remote none now).sessions.values ≤
          walkIns Session.dialEndpoint Session.isOpen node.dialTasks node.sessions.values + 1 := by
      refine le_trans hcount (Nat.add_le_add_left ?_ _)
      split
      · exact Nat.le_refl _
      · exact Nat.zero_le _
    have hoccupied := h.occupied
    have hroom : node.dialTasks.length + (walkIns Session.dialEndpoint Session.isOpen
        node.dialTasks node.sessions.values + 1) ≤ node.config.maxPeers := by
      omega
    exact (Nat.add_le_add_left hle _).trans hroom
  single := by
    intro other hother
    exact (node.countP_opened remote none now (fun origin => decide (origin = some other))).trans
      (h.single other hother)
  unopened := by
    intro other hother hunopened
    exact Nat.eq_zero_of_le_zero
      ((node.countP_opened remote none now (fun origin => decide (origin = some other))).trans
        (h.unopened other hother hunopened).le)

/-!
## Events
-/

/-- A change that leaves no slot out. -/
abbrev Keeps (opened : List Endpoint) : Node disk -> Node disk -> Prop :=
  Preserves (Slotted opened)

theorem Held.keeps (h : Held node next) : Keeps opened node next :=
  fun hslotted => hslotted.held h

theorem held_keeps {alpha : Type} {act : NodeM disk alpha} (h : Within Held act) :
    Within (Keeps opened) act :=
  h.mono (fun _ _ => Held.keeps)

theorem plain_keeps {alpha : Type} {act : NodeM disk alpha} (h : Plain act) :
    Within (Keeps opened) act :=
  held_keeps (plain_held h)

theorem keeps_drew (node : Node disk) :
    Keeps opened node { node with drawn := node.drawn + 1 } :=
  (frame_drew node).held.keeps

theorem Slotted.free (h : Slotted opened node) {endpoint : Endpoint}
    (hfree : ¬ node.sessions.values.any (fun session =>
      decide (session.endpoint = some endpoint) && !session.peer.closed) = true) :
    holders Session.dialEndpoint Session.isOpen node.sessions.values endpoint = 0 := by
  apply AllOutbound.unheld h.outbound
  intro session hsession hopen _ hendpoint
  apply hfree
  rw [List.any_eq_true]
  exact ⟨session, hsession, Bool.and_eq_true_iff.mpr ⟨decide_eq_true hendpoint, hopen⟩⟩

theorem dialCandidate_keeps (env : Env) (endpoint : Endpoint) :
    Within (Keeps opened) (dialCandidate env endpoint : NodeM disk Bool) := by
  intro node
  unfold dialCandidate
  apply leads_get_bind
  apply leads_ite
  · intro _
    exact leads_pure trivial
  intro hnew
  apply leads_ite
  · intro _
    exact leads_pure trivial
  intro hroom
  apply leads_drawJitter_bind (keeps_drew node)
  intro jitter
  apply leads_get_bind
  apply leads_lift_bind
  · intro marked _
    refine leads_of_ok rfl (Relation.ReflTransGen.single ?_) trivial
    intro h
    rw [not_or, not_or] at hnew
    rw [not_or, not_le, not_le] at hroom
    exact h.dial hnew.right.left (h.free hnew.right.right) hroom.left hroom.right marked.2
  · intro _ _
    trivial

theorem dialDue_keeps (env : Env) (endpoints : List Endpoint) :
    Within (Keeps opened) (dialDue env endpoints : NodeM disk Unit) := by
  induction endpoints with
  | nil => exact within_pure _
  | cons endpoint rest ih =>
      unfold dialDue
      exact within_bind (dialCandidate_keeps env endpoint) (fun _ => within_ite ih (within_pure _))

theorem connect_keeps (env : Env) (endpoint : Endpoint) :
    Within (Keeps opened) (connect env endpoint : NodeM disk Unit) := by
  intro node
  unfold connect
  apply leads_get_bind
  apply leads_ite
  · intro _
    exact leads_throw trivial
  intro _
  apply leads_lift_bind _ (fun _ _ => trivial)
  intro found _
  apply leads_ite
  · intro _
    exact leads_throw trivial
  intro _
  apply leads_ite
  · intro _
    exact leads_pure trivial
  intro hnew
  apply leads_ite
  · intro _
    exact leads_throw trivial
  intro hroom
  apply leads_lift_bind _ (fun _ _ => trivial)
  intro added _
  apply leads_drawJitter_bind (keeps_drew node)
  intro jitter
  apply leads_lift_bind _ (fun _ _ => trivial)
  intro marked _
  refine leads_modify (Relation.ReflTransGen.single ?_) trivial
  intro h
  rw [not_or] at hnew
  rw [not_or, not_le, not_le] at hroom
  exact h.dial hnew.left (h.free hnew.right) hroom.left hroom.right marked.2

theorem dialDone_keeps (endpoint : Endpoint) :
    Within (Keeps opened)
      (modify (fun node => { node with dialTasks := node.dialTasks.erase endpoint }) :
        NodeM disk PUnit) :=
  within_modify (fun node h => h.hangUp endpoint node.manager)

theorem held_closeDialled (node : Node disk) (endpoint : Endpoint) :
    Held node { node with
      sessions := node.sessions.mapValues (fun session =>
        if session.dialEndpoint = some endpoint then
          { session with peer := session.peer.beginClose }
        else session) } := by
  apply held_mapValues
  intro session
  split
  · exact (Session.Stays.beginClose session).seated
  · exact (Session.Stays.refl session).seated

theorem dialFailed_keeps (env : Env) (endpoint : Endpoint) :
    Within (Keeps opened) (dialFailed env endpoint : NodeM disk Unit) := by
  intro node
  unfold dialFailed
  apply leads_drawJitter_bind (keeps_drew node)
  intro jitter
  apply leads_get_bind
  apply leads_lift_bind _ (fun _ _ => trivial)
  intro manager _
  refine leads_of_ok rfl (Relation.ReflTransGen.single ?_) trivial
  intro h
  exact (h.held (held_closeDialled _ endpoint)).hangUp endpoint manager

theorem dialRaises_keeps (env : Env) (endpoint : Endpoint) :
    Within (Keeps opened) (Dialling.dialRaises env endpoint : NodeM disk Unit) := by
  intro node
  unfold Dialling.dialRaises
  apply leads_drawJitter_bind (keeps_drew node)
  intro jitter
  apply leads_get_bind
  apply leads_lift_bind _ (fun _ _ => trivial)
  intro manager _
  refine leads_of_ok rfl (Relation.ReflTransGen.single ?_) trivial
  intro h
  have hclosed := h.held (held_closeDialled _ endpoint)
  exact { hclosed with }

section Chain

variable [Crypto] {store : Option (ChainStore disk)}

theorem tick_keeps (env : Env) : Within (Keeps opened) (tick env : NodeM disk Unit) := by
  unfold tick
  refine within_get_bind (fun _ => within_bind
    (within_forM (fun id => held_keeps (tickSession_held env id))) (fun _ =>
      within_bind (held_keeps (syncTick_held env)) (fun _ => within_bind ?_ (fun _ =>
        within_get_bind (fun _ => dialDue_keeps env _)))))
  exact held_keeps (within_modify (fun _ => ⟨rfl, rfl, fun h => h, fun _ => Nat.le_refl _⟩))

theorem handleEvent_keeps (env : Env) (kind : EventKind) :
    Within (Keeps opened) (handleEvent store env kind) := by
  unfold handleEvent
  split
  · refine within_bind (held_keeps (within_modify
      (fun _ => ⟨rfl, rfl, fun h => h, fun _ => Nat.le_refl _⟩))) (fun _ =>
        within_bind (tick_keeps env) (fun _ => within_pure _))
  · exact within_bind (held_keeps (handleRemote_held env _ _)) (fun _ => within_pure _)
  · refine within_tryCatch (within_bind (plain_keeps (runCommand_plain env _))
      (fun _ => within_pure _)) (fun e => within_ite (within_pure _) (within_throw _))

theorem dispatch_keeps (env : Env) (cancelled : Bool) :
    Within (Keeps opened) (dispatch store env cancelled) := by
  intro node
  unfold dispatch
  apply leads_get_bind
  apply leads_ite
  · intro _
    exact leads_pure trivial
  intro _
  split
  · exact leads_pure trivial
  rename_i event rest hevents
  have hpopped : Leads (Keeps opened) (set { node with events := rest } : NodeM disk PUnit) node
      (fun _ _ => True) (fun _ _ => True) :=
    leads_of_ok rfl (Relation.ReflTransGen.single
      (Held.keeps ⟨rfl, rfl, fun h => h, fun _ => Nat.le_refl _⟩)) trivial
  refine leads_bind hpopped (fun _ later _ _ => ?_)
  refine within_bind (within_tryCatch ?_ (fun e => within_bind (plain_keeps (fatal_plain e))
    (fun _ => within_pure _))) (fun _ => within_bind (plain_keeps (release_plain _))
      (fun _ => within_pure _)) later
  refine within_bind ?_ (fun _ => within_ite (within_pure _) (handleEvent_keeps env _))
  unfold reapPeers
  exact within_get_bind (fun _ => within_forM (fun id => held_keeps (reapPeer_held env id)))

theorem acceptedSocket_keeps (env : Env) (remote : Endpoint) :
    Within (Keeps opened) (acceptedSocket env remote : NodeM disk Unit) := by
  intro node
  unfold acceptedSocket
  apply leads_get_bind
  apply leads_ite
  · intro _
    exact leads_pure trivial
  intro hroom
  split
  · exact leads_pure trivial
  rw [not_or, not_le] at hroom
  refine leads_tryCatch_any (Leads.discard (attach_routine env remote none (fun _ _ h => h.held.keeps) ?_))
    (fun e later _ => plain_keeps (fatal_plain e) later)
  exact fun h => h.accept hroom.right remote env.now

theorem dialled_leads_opened (env : Env) (endpoint remote : Endpoint)
    (hunopened : endpoint ∉ opened) (h : Slotted opened node) :
    Slotted (opened ++ Dialling.opens node (.dialled endpoint remote))
      (finalState (dialled env endpoint remote) node) := by
  unfold dialled
  rw [finalState_get_bind]
  by_cases hdial : node.lifecycle = .running ∧ endpoint ∈ node.dialTasks
  · have hopens : Dialling.opens node (.dialled endpoint remote) = [endpoint] := if_pos hdial
    rw [if_pos hdial, hopens]
    have hattached : Keeps (opened ++ [endpoint]) node
        (node.opened remote (some endpoint) env.now) :=
      fun _ => h.attach hdial.right hunopened remote env.now
    exact preserves_final (Leads.discard (attach_routine env remote _
      (fun _ _ h => h.held.keeps) hattached)) (h.mono (List.subset_append_left _ _))
  · have hopens : Dialling.opens node (.dialled endpoint remote) = [] := if_neg hdial
    rw [if_neg hdial, hopens, List.append_nil]
    exact h

end Chain

/-!
## Callers
-/

theorem startDial_leads (env : Env) (endpoint : Endpoint)
    (hunheld : node.AllOutbound ->
      holders Session.dialEndpoint Session.isOpen node.sessions.values endpoint = 0) :
    Leads (Keeps opened) (Dialling.startDial env endpoint) node (fun _ _ => True)
      (fun _ _ => True) := by
  unfold Dialling.startDial
  apply leads_get_bind
  apply leads_ite
  · intro _
    exact leads_pure trivial
  intro hnew
  apply leads_ite
  · intro _
    exact leads_throw trivial
  intro hroom
  apply leads_lift_bind _ (fun _ _ => trivial)
  intro added _
  apply leads_drawJitter_bind (keeps_drew node)
  intro jitter
  apply leads_lift_bind _ (fun _ _ => trivial)
  intro marked _
  refine leads_modify (Relation.ReflTransGen.single ?_) trivial
  intro h
  rw [not_or, not_le, not_le] at hroom
  exact h.dial hnew (hunheld h.outbound) hroom.left hroom.right marked.2

end Node

/-- A caller that goes on still sees the open sessions of its endpoint. -/
def DialEvent.sees {disk : Type} (event : DialEvent) (node : Node disk) : Bool :=
  match event with
  | .connectResumes caller seen =>
      node.sessions.items.all (fun item =>
        !(item.2.isOpen && decide (item.2.dialEndpoint = some caller.endpoint)) ||
          decide (item.1 ∈ seen))
  | _ => true

namespace Node

variable {disk : Type} {opened : List Endpoint} {node : Node disk}

theorem connectResumes_leads (env : Env) (caller : Caller) (seen : List Str)
    (hsees : (DialEvent.connectResumes caller seen).sees node = true) :
    Leads (Keeps opened) (Dialling.connectResumes env caller seen) node (fun _ _ => True)
      (fun _ _ => True) := by
  unfold Dialling.connectResumes
  apply leads_get_bind
  apply leads_ite
  · intro _
    exact leads_throw trivial
  intro _
  split
  · exact leads_pure trivial
  rename_i hscan
  refine leads_bind (startDial_leads env caller.endpoint ?_) (fun _ _ _ _ => leads_pure trivial)
  intro houtbound
  apply houtbound.unheld
  intro session hsession hopen hdialled hendpoint
  rcases List.mem_map.mp hsession with ⟨item, hitem, hvalue⟩
  have hseen : item.1 ∈ seen := by
    have hitem := (List.all_eq_true.mp hsees) item hitem
    rw [hvalue, hopen, hdialled, decide_eq_true rfl] at hitem
    exact of_decide_eq_true hitem
  have hmissed := List.find?_eq_none.mp hscan item
    (List.mem_filter.mpr ⟨hitem, decide_eq_true hseen⟩)
  apply hmissed
  rw [hvalue, hopen, hendpoint, decide_eq_true rfl]
  rfl

end Node

namespace Dialling

open Node

variable [Crypto] {disk : Type} {store : Option (ChainStore disk)} {opened : List Endpoint}

theorem handle_keeps (env : Env) {event : NodeEvent}
    (hevent : forall endpoint remote, event ≠ .dialled endpoint remote) :
    Within (Keeps opened) (Node.handle store env event) := by
  unfold Node.handle
  cases event with
  | dialled endpoint remote => exact absurd rfl (hevent endpoint remote)
  | acceptedSocket remote =>
      exact within_bind (acceptedSocket_keeps env remote) (fun _ => within_pure _)
  | connect endpoint => exact within_bind (connect_keeps env endpoint) (fun _ => within_pure _)
  | dialFailed endpoint =>
      exact within_bind (dialFailed_keeps env endpoint) (fun _ => within_pure _)
  | dialDone endpoint => exact within_bind (dialDone_keeps endpoint) (fun _ => within_pure _)
  | readPrefix id a b c d =>
      exact within_bind (plain_keeps (readPrefix_plain env id a b c d)) (fun _ => within_pure _)
  | readBody id body =>
      exact within_bind (plain_keeps (readBody_plain id body)) (fun _ => within_pure _)
  | readStopped id =>
      exact within_bind (plain_keeps (readStopped_plain id)) (fun _ => within_pure _)
  | wrote id =>
      exact within_bind (plain_keeps (wrote_plain id)) (fun _ => within_pure _)
  | startClosing id =>
      exact within_bind (plain_keeps (startClosing_plain id)) (fun _ => within_pure _)
  | cleanedUp id =>
      exact within_bind (plain_keeps (cleanedUp_plain id)) (fun _ => within_pure _)
  | call command =>
      exact within_bind (plain_keeps (call_plain command)) (fun _ => within_pure _)
  | timer => exact within_bind (plain_keeps timer_plain) (fun _ => within_pure _)
  | dispatch cancelled => exact dispatch_keeps env cancelled
  | stop => exact within_bind (plain_keeps stop_plain) (fun _ => within_pure _)

theorem handle_slotted (env : Env) (event : NodeEvent) {dialling : Dialling disk}
    (hadmits : dialling.admits event = true) (h : Slotted dialling.opened dialling.node) :
    Slotted (dialling.opened ++ opens dialling.node event)
      (finalState (Node.handle store env event) dialling.node) := by
  cases hevent : event with
  | dialled endpoint remote =>
      rw [hevent] at hadmits
      have hunopened : endpoint ∉ dialling.opened := of_decide_eq_true hadmits
      unfold Node.handle
      rw [finalState_bind_pure]
      exact dialled_leads_opened env endpoint remote hunopened h
  | _ =>
      rw [← hevent]
      have hopens : opens dialling.node event = [] := by
        rw [hevent]
        rfl
      rw [hopens, List.append_nil]
      refine preserves_final (handle_keeps env ?_ _) h
      rw [hevent]
      rintro _ _ ⟨⟩

theorem step_slotted (call : Env × DialEvent) {dialling : Dialling disk}
    (hsees : call.2.sees dialling.node = true) (h : Slotted dialling.opened dialling.node) :
    Slotted ((machine store).step call dialling).2.opened
      ((machine store).step call dialling).2.node := by
  rcases call with ⟨env, event⟩
  cases event with
  | node event =>
      change Slotted (Dialling.opened (Prod.snd (if _ then _ else _)))
        (Dialling.node (Prod.snd (if _ then _ else _)))
      by_cases hadmits : dialling.admits event = true
      · rw [if_pos hadmits]
        have hlater := @handle_slotted _ disk store env event dialling hadmits h
        cases hrun : Node.handle store env event dialling.node with
        | ok answer node =>
            rw [finalState_of_ok hrun] at hlater
            exact hlater.settle
        | error e node =>
            rw [finalState_of_error hrun] at hlater
            exact hlater.settle
      · rw [if_neg hadmits]
        exact h
  | dialRaises endpoint =>
      change Slotted (Dialling.opened (Prod.snd (if _ then _ else _)))
        (Dialling.node (Prod.snd (if _ then _ else _)))
      by_cases hdial : endpoint ∈ dialling.node.dialTasks
      · rw [if_pos hdial]
        have hlater := preserves_final (dialRaises_keeps env endpoint dialling.node) h
        cases hrun : dialRaises env endpoint dialling.node with
        | ok answer node =>
            rw [finalState_of_ok hrun] at hlater
            exact hlater.settle
        | error e node =>
            rw [finalState_of_error hrun] at hlater
            exact hlater.settle
      · rw [if_neg hdial]
        exact h
  | connectResumes caller seen =>
      change Slotted (Dialling.opened (Prod.snd (if _ then _ else _)))
        (Dialling.node (Prod.snd (if _ then _ else _)))
      by_cases hresumes : caller ∈ dialling.callers ∧
          settled dialling.node caller.awaited = true
      · rw [if_pos hresumes]
        have hlater := preserves_final (connectResumes_leads env caller seen hsees) h
        cases hrun : connectResumes env caller seen dialling.node with
        | ok answer node =>
            rw [finalState_of_ok hrun] at hlater
            exact hlater.settle
        | error e node =>
            rw [finalState_of_error hrun] at hlater
            exact hlater.settle
      · rw [if_neg hresumes]
        exact h

/-- Every caller that goes on sees the open sessions of its endpoint. -/
def callersSee (store : Option (ChainStore disk)) :
    List (Env × DialEvent) -> Dialling disk -> Bool
  | [], _ => true
  | call :: rest, dialling =>
      call.2.sees dialling.node && callersSee store rest ((machine store).step call dialling).2

theorem run_slotted (calls : List (Env × DialEvent)) :
    forall dialling : Dialling disk, callersSee store calls dialling = true ->
      Slotted dialling.opened dialling.node ->
      Slotted ((machine store).run calls dialling).opened
        ((machine store).run calls dialling).node := by
  induction calls with
  | nil =>
      intro dialling _ h
      exact h
  | cons call rest ih =>
      intro dialling hsees h
      rcases Bool.and_eq_true_iff.mp hsees with ⟨hfirst, hrest⟩
      exact ih _ hrest (step_slotted call hfirst h)

/-- While no caller misses an open session of its endpoint, the open sessions and the
dials without one have their slots. -/
theorem run_withinSlots {node : Node disk} (hsessions : node.sessions = Dict.empty)
    (hdials : node.dialTasks = []) (calls : List (Env × DialEvent))
    (hsees : callersSee store calls (start node) = true) :
    ((machine store).run calls (start node)).node.WithinSlots :=
  (run_slotted calls (start node) hsees (slotted_empty hsessions hdials)).within

end Dialling

end Network

/-!
# A missed session

Three connections come and go, so the table of sessions is full of forgotten entries.  A
connection of a peer is introduced, and `connect` awaits it.  It is closed, and the peer
is dialled; the new session moves the entries of the table, and a closed session is
forgotten.  The caller goes on at a place where no entry is left, and it dials again.
-/

namespace Sample

open Network

def threePeers : NodeConfig :=
  { NodeConfig.default_ with
    maxPeers := 3
    sizes_pos := by decide
    durations_pos := NodeConfig.default_.durations_pos }

/-- The random tokens in the order of their last two digits. -/
def tokenAt (n : Nat) : Str :=
  List.replicate 30 '0' ++ [hexDigit (n / 16 % 16), hexDigit (n % 16)]

theorem tokenAt_valid (n : Nat) : isToken (tokenAt n) = true := by
  have hdigit : forall d, d < 16 -> isLowerHex (hexDigit d) = true :=
    fun d hd => (hexDigit_spec d hd).right.left
  unfold isToken tokenAt
  rw [List.length_append, List.all_append, List.all_cons, List.all_cons,
    hdigit _ (Nat.mod_lt _ (by decide)), hdigit _ (Nat.mod_lt _ (by decide))]
  rfl

/-- A node that has just started. -/
def listening : Node Unit :=
  { config := threePeers
    nodeId := List.replicate 32 '2'
    endpoint := { host := str "127.0.0.1", port := 5000 }
    lifecycle := .running
    failure := none
    chain := start
    disk := ()
    sessions := Dict.empty
    events := []
    inboundEvents := 0
    inboundBytes := 0
    closedPeers := []
    dialTasks := []
    manager := { entries := Dict.empty, selfEndpoint := none }
    sync := SyncManager.empty
    tickQueued := false
    counters := ⟨0, 0, 0, 0⟩
    entropy := { token := tokenAt, jitter := fun _ => 1, token_valid := tokenAt_valid }
    drawn := 0 }

def peerEndpoint : Endpoint :=
  { host := str "127.0.0.1", port := 6000 }

def inboundEndpoint : Endpoint :=
  { host := str "127.0.0.1", port := 40000 }

def versionPacket (nonce : Str) : Packet :=
  { payload := .version
      { networkId := NETWORK_ID
        genesisHash := GENESIS_HASH
        nodeId := List.replicate 32 'b'
        connectionNonce := nonce
        listenPort := peerEndpoint.port
        height := 0
        tipHash := GENESIS_HASH }
    requestId := none }

/-- A message arrives and is handled. -/
def arrives (id : Str) (packet : Packet) : List NodeEvent :=
  [.readPrefix id 0 0 (UInt8.ofNat (packet.body.length / 256))
      (UInt8.ofNat (packet.body.length % 256)),
    .readBody id packet.body, .dispatch false]

/-- The dispatcher runs and forgets closed sessions. -/
def reaps : List NodeEvent :=
  [.call (.read (fun _ => .ok ())), .dispatch false]

/-- The session that `connect` awaits. -/
def awaitedId : Str :=
  tokenAt 8

def missedId : Str :=
  tokenAt 11

/-- Up to the place where the caller goes on. -/
def untilAwaited : List NodeEvent :=
  List.replicate 3 (.acceptedSocket inboundEndpoint) ++
    [tokenAt 0, tokenAt 2, tokenAt 4].map NodeEvent.startClosing ++
    [tokenAt 0, tokenAt 2, tokenAt 4].map NodeEvent.cleanedUp ++ reaps ++
    List.replicate 2 (.acceptedSocket inboundEndpoint) ++
    arrives awaitedId (versionPacket (List.replicate 32 'c')) ++
    [.startClosing (tokenAt 6), .connect peerEndpoint, .startClosing awaitedId,
      .connect peerEndpoint, .dialled peerEndpoint peerEndpoint, .cleanedUp (tokenAt 6)] ++
    arrives missedId (versionPacket (List.replicate 32 'd')) ++
    arrives missedId { payload := .verack, requestId := none } ++
    [.dialDone peerEndpoint, .cleanedUp awaitedId]

/-- The caller goes on, and two connections arrive before its dial is open. -/
def dialEvents (seen : List Str) : List DialEvent :=
  untilAwaited.map DialEvent.node ++
    .connectResumes { endpoint := peerEndpoint, awaited := awaitedId, tableSize := 2 } seen ::
      (reaps ++ List.replicate 2 (NodeEvent.acceptedSocket inboundEndpoint) ++
        [NodeEvent.dialled peerEndpoint peerEndpoint]).map DialEvent.node

def dialCalls (seen : List Str) : List (Env × DialEvent) :=
  (dialEvents seen).map (fun event => ({ now := 0, wallClock := 1788652920 }, event))

end Sample

namespace Network

namespace Dialling

/-- A caller that misses a session takes a slot that is not there. -/
theorem missed_session_oversubscribes :
    ¬ forall (node : Node Unit) (calls : List (Env × DialEvent)),
      node.sessions = Dict.empty -> node.dialTasks = [] ->
        ((@machine Unit Sample.crypto none).run calls (start node)).node.WithinSlots := by
  intro h
  have hwithin := h Sample.listening (Sample.dialCalls []) rfl rfl
  have hcounts : (fun last : Node Unit => (last.openSessions, last.config.maxPeers))
      ((@machine Unit Sample.crypto none).run (Sample.dialCalls [])
        (start Sample.listening)).node = (4, 3) := by
    decide +kernel
  rcases Prod.mk.inj hcounts with ⟨hopen, hmax⟩
  have hslots := hwithin.left
  rw [hopen, hmax] at hslots
  omega

/-- A caller that sees the session returns. -/
theorem seen_session_withinSlots :
    ((@machine Unit Sample.crypto none).run (Sample.dialCalls [Sample.missedId])
      (start Sample.listening)).node.WithinSlots :=
  @run_withinSlots Sample.crypto Unit none Sample.listening rfl rfl
    (Sample.dialCalls [Sample.missedId]) (by decide +kernel)

end Dialling

end Network

end PyChain
