import PyChain.Network.Turns

/-!
# Routine changes of a node

Most of what a node does neither opens nor forgets a connection, neither starts nor ends
a dial, and neither asks for a block download nor settles one.  Such changes are routine.
Slots and downloads are counted by what is left.
-/

namespace PyChain

open Foundation

namespace Network

/-- The session of a dial keeps the endpoint it has dialled. -/
def Session.Outbound (session : Session) : Prop :=
  forall endpoint, session.dialEndpoint = some endpoint ->
    session.peer.outbound = true ∧ session.endpoint = some endpoint

/-- What a routine change leaves alone in a session. -/
structure Session.Stays (session next : Session) : Prop where
  pending : next.pending = session.pending
  dialEndpoint : next.dialEndpoint = session.dialEndpoint
  outbound : session.Outbound -> next.Outbound
  closed : session.peer.closed = true -> next.peer.closed = true
  established : session.peer.established = true ->
    next.peer.established = true ∨ next.peer.closed = true

namespace Session

theorem Stays.refl (session : Session) : Stays session session :=
  ⟨rfl, rfl, fun h => h, fun h => h, Or.inl⟩

theorem Stays.trans {session middle next : Session} (h : Stays session middle)
    (h' : Stays middle next) : Stays session next where
  pending := h'.pending.trans h.pending
  dialEndpoint := h'.dialEndpoint.trans h.dialEndpoint
  outbound := fun houtbound => h'.outbound (h.outbound houtbound)
  closed := fun hclosed => h'.closed (h.closed hclosed)
  established := by
    intro hestablished
    rcases h.established hestablished with hkept | hclosed
    · exact h'.established hkept
    · exact Or.inr (h'.closed hclosed)

theorem Stays.transport (session : Session) {peer : PeerConnection}
    (houtbound : peer.outbound = session.peer.outbound)
    (hclosed : session.peer.closed = true -> peer.closed = true)
    (hestablished : session.peer.established = true ->
      peer.established = true ∨ peer.closed = true) :
    Stays session { session with peer := peer } where
  pending := rfl
  dialEndpoint := rfl
  outbound := by
    intro h endpoint hendpoint
    rcases h endpoint hendpoint with ⟨hdialled, hkept⟩
    exact ⟨houtbound.trans hdialled, hkept⟩
  closed := hclosed
  established := hestablished

theorem Stays.beginClose (session : Session) :
    Stays session { session with peer := session.peer.beginClose } := by
  unfold PeerConnection.beginClose
  split
  · exact Stays.refl session
  · exact Stays.transport session rfl (fun _ => rfl) (fun _ => Or.inr rfl)

end Session

namespace Node

variable {disk : Type}

/-- A change of fields that no slot and no download depends on. -/
structure Frame (node next : Node disk) : Prop where
  config : next.config = node.config
  entropy : next.entropy = node.entropy
  drawn : node.drawn ≤ next.drawn
  dialTasks : next.dialTasks = node.dialTasks
  source : next.sync.source = node.sync.source
  sessions : List.Forall₂
    (fun item later => later.1 = item.1 ∧ Session.Stays item.2 later.2)
    node.sessions.items next.sessions.items

theorem items_stay (items : List (Str × Session)) :
    List.Forall₂ (fun item later => later.1 = item.1 ∧ Session.Stays item.2 later.2)
      items items :=
  List.forall₂_same.mpr (fun item _ => ⟨rfl, Session.Stays.refl item.2⟩)

theorem Frame.refl (node : Node disk) : Frame node node :=
  ⟨rfl, rfl, le_refl _, rfl, rfl, items_stay _⟩

theorem forall₂_trans {alpha : Type} {R : alpha -> alpha -> Prop}
    (htrans : forall x y z, R x y -> R y z -> R x z) {xs ys : List alpha}
    (h : List.Forall₂ R xs ys) : forall {zs : List alpha}, List.Forall₂ R ys zs ->
      List.Forall₂ R xs zs := by
  induction h with
  | nil =>
      intro zs h'
      cases h'
      exact List.Forall₂.nil
  | cons hhead _ ih =>
      intro zs h'
      cases h' with
      | cons hlater hrest => exact List.Forall₂.cons (htrans _ _ _ hhead hlater) (ih hrest)

theorem forall₂_exists {alpha beta : Type} {R : alpha -> beta -> Prop} {xs : List alpha}
    {ys : List beta} (h : List.Forall₂ R xs ys) {x : alpha} (hx : x ∈ xs) :
    exists y, y ∈ ys ∧ R x y := by
  induction h with
  | nil => cases hx
  | @cons a b _ _ hhead _ ih =>
      rcases List.mem_cons.mp hx with rfl | hrest
      · exact ⟨b, List.mem_cons_self, hhead⟩
      · rcases ih hrest with ⟨y, hy, hR⟩
        exact ⟨y, List.mem_cons_of_mem _ hy, hR⟩

theorem Frame.trans {node middle next : Node disk} (h : Frame node middle)
    (h' : Frame middle next) : Frame node next where
  config := h'.config.trans h.config
  entropy := h'.entropy.trans h.entropy
  drawn := h.drawn.trans h'.drawn
  dialTasks := h'.dialTasks.trans h.dialTasks
  source := h'.source.trans h.source
  sessions := by
    refine forall₂_trans ?_ h.sessions h'.sessions
    rintro x y z ⟨hkey, hstays⟩ ⟨hkey', hstays'⟩
    exact ⟨hkey'.trans hkey, hstays.trans hstays'⟩

theorem frame_sessions (node : Node disk) {f : Str × Session -> Session}
    (hf : forall item, item ∈ node.sessions.items -> Session.Stays item.2 (f item))
    {sessions : Dict Str Session}
    (hitems : sessions.items = node.sessions.items.map (fun item => (item.1, f item))) :
    Frame node { node with sessions := sessions } := by
  refine ⟨rfl, rfl, le_refl _, rfl, rfl, ?_⟩
  rw [hitems, List.forall₂_map_right_iff, List.forall₂_same]
  intro item hitem
  exact ⟨rfl, hf item hitem⟩

theorem frame_modify (node : Node disk) (id : Str) {f : Session -> Session}
    (hf : forall session, node.sessions.get? id = some session -> session.Stays (f session)) :
    Frame node { node with sessions := node.sessions.modify id f } := by
  refine frame_sessions node (f := fun item => if item.1 = id then f item.2 else item.2) ?_ ?_
  · intro item hitem
    split
    · rename_i hkey
      apply hf
      rw [← hkey]
      exact (Dict.get?_eq_some_iff node.sessions item.1 item.2).mpr hitem
    · exact Session.Stays.refl item.2
  · apply List.map_congr_left
    intro item _
    split
    · rfl
    · rfl

theorem frame_replace {node : Node disk} {id : Str} {session later : Session}
    (hsession : node.sessions.get? id = some session) (hstays : session.Stays later) :
    Frame node (node.replace id later) := by
  apply frame_modify
  intro known hknown
  rw [hsession] at hknown
  rw [← Option.some.inj hknown]
  exact hstays

theorem frame_mapValues (node : Node disk) {f : Session -> Session}
    (hf : forall session : Session, session.Stays (f session)) :
    Frame node { node with sessions := node.sessions.mapValues f } :=
  frame_sessions node (f := fun item => f item.2) (fun item _ => hf item.2) rfl

theorem Frame.later {node next : Node disk} (h : Frame node next) {id : Str}
    {session : Session} (hsession : node.sessions.get? id = some session) :
    exists later, next.sessions.get? id = some later ∧ session.Stays later := by
  rcases forall₂_exists h.sessions ((Dict.get?_eq_some_iff _ _ _).mp hsession) with
    ⟨⟨key, later⟩, hmem, hkey, hstays⟩
  refine ⟨later, ?_, hstays⟩
  rw [← show key = id from hkey]
  exact (Dict.get?_eq_some_iff _ _ _).mpr hmem

theorem Frame.earlier {node next : Node disk} (h : Frame node next) {id : Str}
    {later : Session} (hlater : next.sessions.get? id = some later) :
    exists session, node.sessions.get? id = some session ∧ session.Stays later := by
  rcases forall₂_exists h.sessions.flip ((Dict.get?_eq_some_iff _ _ _).mp hlater) with
    ⟨⟨key, session⟩, hmem, hkey, hstays⟩
  refine ⟨session, ?_, hstays⟩
  rw [show id = key from hkey]
  exact (Dict.get?_eq_some_iff _ _ _).mpr hmem

/-- Routine changes.  A request that is not for blocks takes a fresh token, and is
answered or given up under it. -/
inductive Routine : Node disk -> Node disk -> Prop where
  | framed {node next : Node disk} : Frame node next -> Routine node next
  | asked {node middle : Node disk} {id : Str} {session : Session} {request : Request}
      {deadline : Rat} :
      Frame node middle -> node.drawn < middle.drawn ->
      middle.sessions.get? id = some session -> request.kind ≠ .getBlocks ->
      Routine node (middle.replace id
        { session with
          pending := session.pending.set (node.entropy.token node.drawn)
            { request := request, deadline := deadline } })
  | answered {node : Node disk} {id requestId : Str} {session : Session}
      {pending : PendingRequest} :
      node.sessions.get? id = some session ->
      session.pending.get? requestId = some pending -> pending.request.kind ≠ .getBlocks ->
      Routine node (node.replace id
        { session with pending := session.pending.erase requestId })

/-- A method that only makes certain changes, whatever it finds. -/
def Within {alpha : Type} (move : Node disk -> Node disk -> Prop) (act : NodeM disk alpha) :
    Prop :=
  forall node, Leads move act node (fun _ _ => True) (fun _ _ => True)

/-- A method that does nothing but routine. -/
abbrev Plain {alpha : Type} (act : NodeM disk alpha) : Prop :=
  Within Routine act

/-- A change that a predicate survives. -/
def Preserves (P : Node disk -> Prop) (node next : Node disk) : Prop :=
  P node -> P next

/-!
## Rules
-/

section Rules

variable {alpha beta : Type} {move : Node disk -> Node disk -> Prop}

theorem within_pure (a : alpha) : Within move (pure a : NodeM disk alpha) :=
  fun _ => leads_pure trivial

theorem within_throw (e : PyError) : Within move (throw e : NodeM disk alpha) :=
  fun _ => leads_throw trivial

theorem within_bind {act : NodeM disk alpha} {next : alpha -> NodeM disk beta}
    (h : Within move act) (hnext : forall a, Within move (next a)) : Within move (act >>= next) :=
  fun node => leads_bind (h node) (fun a node' _ _ => hnext a node')

theorem within_get_bind {next : Node disk -> NodeM disk alpha}
    (h : forall node, Within move (next node)) : Within move (get >>= next) :=
  fun node => leads_get_bind (h node node)

theorem within_modify {f : Node disk -> Node disk} (h : forall node, move node (f node)) :
    Within move (modify f : NodeM disk PUnit) :=
  fun node => leads_modify (Relation.ReflTransGen.single (h node)) trivial

theorem plain_modify {f : Node disk -> Node disk} (h : forall node, Frame node (f node)) :
    Plain (modify f : NodeM disk PUnit) :=
  within_modify (fun node => Routine.framed (h node))

theorem Within.mono {move' : Node disk -> Node disk -> Prop} {act : NodeM disk alpha}
    (h : Within move act) (hmove : forall node next, move node next -> move' node next) :
    Within move' act :=
  fun node => (h node).mono hmove

theorem preserves_final {P : Node disk -> Prop} {act : NodeM disk alpha} {node : Node disk}
    {post : alpha -> Node disk -> Prop} {raised : PyError -> Node disk -> Prop}
    (h : Leads (Preserves P) act node post raised) (hP : P node) : P (finalState act node) := by
  have hmoves := h.final
  generalize finalState act node = last at hmoves
  induction hmoves with
  | refl => exact hP
  | tail _ hlast ih => exact hlast ih

theorem within_discard {act : NodeM disk alpha} (h : Within move act) :
    Within move (discard act) :=
  within_bind h (fun _ => within_pure _)

theorem within_lift (x : Except PyError alpha) : Within move (lift x : NodeM disk alpha) := by
  cases x with
  | ok a => exact within_pure a
  | error e => exact within_throw e

theorem within_lift_bind {x : Except PyError alpha} {next : alpha -> NodeM disk beta}
    (h : forall a, Within move (next a)) : Within move (lift x >>= next) :=
  within_bind (within_lift x) h

theorem within_ite {condition : Prop} [Decidable condition] {act other : NodeM disk alpha}
    (hthen : Within move act) (helse : Within move other) :
    Within move (if condition then act else other) := by
  split
  · exact hthen
  · exact helse

theorem within_forM {items : List alpha} {body : alpha -> NodeM disk PUnit}
    (h : forall item, Within move (body item)) : Within move (items.forM body) :=
  fun _ => leads_forM trivial (fun item _ node' _ _ => h item node')

theorem within_tryCatch {act : NodeM disk alpha} {handle : PyError -> NodeM disk alpha}
    (h : Within move act) (hhandle : forall e, Within move (handle e)) :
    Within move (tryCatch act handle) :=
  fun node => leads_tryCatch_any (h node) (fun e node' _ => hhandle e node')

theorem within_session (id : Str) : Within move (session id : NodeM disk Session) := by
  intro node
  unfold session
  apply leads_get_bind
  split
  · exact leads_pure trivial
  · exact leads_throw trivial

theorem within_session_bind {id : Str} {next : Session -> NodeM disk beta}
    (h : forall session, Within move (next session)) : Within move (session id >>= next) :=
  within_bind (within_session id) h

theorem leads_session_get {node : Node disk} {id : Str} {next : Session -> NodeM disk beta}
    {post : beta -> Node disk -> Prop} {raised : PyError -> Node disk -> Prop}
    (hraised : raised .keyError node)
    (h : forall known, node.sessions.get? id = some known ->
      Leads move (next known) node post raised) :
    Leads move (session id >>= next) node post raised := by
  cases hknown : node.sessions.get? id with
  | some known => exact leads_session_bind hknown (h known hknown)
  | none =>
      have hrun : session id node = .error .keyError node := by
        unfold session
        rw [run_bind_ok (rfl : (get : NodeM disk (Node disk)) node = .ok node node), hknown]
        rfl
      exact leads_of_error (run_bind_error hrun next) Relation.ReflTransGen.refl hraised

end Rules

/-!
## Primitives
-/

theorem modifySession_plain (id : Str) {f : Session -> Session}
    (hf : forall session : Session, session.Stays (f session)) :
    Plain (modifySession id f : NodeM disk Unit) :=
  plain_modify (fun node => frame_modify node id (fun session _ => hf session))

theorem modifyPeer_plain (id : Str) {f : PeerConnection -> PeerConnection}
    (hf : forall session : Session, session.Stays { session with peer := f session.peer }) :
    Plain (modifyPeer id f : NodeM disk Unit) :=
  modifySession_plain id hf

theorem modifySync_plain {f : SyncManager -> SyncManager}
    (hf : forall sync, (f sync).source = sync.source) :
    Plain (modifySync f : NodeM disk Unit) :=
  plain_modify (fun node => ⟨rfl, rfl, le_refl _, rfl, hf node.sync, items_stay _⟩)

theorem modifyCounters_plain (f : Counters -> Counters) :
    Plain (modifyCounters f : NodeM disk Unit) :=
  plain_modify (fun _ => ⟨rfl, rfl, le_refl _, rfl, rfl, items_stay _⟩)

theorem frame_drew (node : Node disk) : Frame node { node with drawn := node.drawn + 1 } :=
  ⟨rfl, rfl, Nat.le_succ _, rfl, rfl, items_stay _⟩

theorem drawToken_plain : Plain (drawToken : NodeM disk Str) :=
  fun node => leads_of_ok rfl
    (Relation.ReflTransGen.single (Routine.framed (frame_drew node))) trivial

theorem reserve_plain (size : Nat) : Plain (reserve size : NodeM disk Bool) := by
  intro node
  unfold reserve
  apply leads_get_bind
  apply leads_ite
  · intro _
    exact leads_pure trivial
  · intro _
    exact leads_of_ok rfl (Relation.ReflTransGen.single (Routine.framed
      ⟨rfl, rfl, le_refl _, rfl, rfl, items_stay _⟩)) trivial

theorem release_plain (size : Nat) : Plain (release size : NodeM disk Unit) := by
  unfold release
  refine within_bind (plain_modify (fun _ => ⟨rfl, rfl, le_refl _, rfl, rfl, items_stay _⟩))
    (fun _ => ?_)
  exact within_get_bind (fun _ => within_ite (within_throw _) (within_pure _))

theorem enqueue_plain (event : Event) : Plain (enqueue event : NodeM disk Unit) := by
  intro node
  unfold enqueue
  apply leads_get_bind
  apply leads_ite
  · intro _
    exact leads_throw trivial
  · intro _
    exact leads_of_ok rfl (Relation.ReflTransGen.single (Routine.framed
      ⟨rfl, rfl, le_refl _, rfl, rfl, items_stay _⟩)) trivial

theorem fatal_plain (e : PyError) : Plain (fatal e : NodeM disk Unit) := by
  apply plain_modify
  intro node
  split
  · exact ⟨rfl, rfl, le_refl _, rfl, rfl, items_stay _⟩
  · exact Frame.refl node

theorem closePeer_plain (id : Str) : Plain (closePeer id : NodeM disk Unit) :=
  modifyPeer_plain id (fun session =>
    Session.Stays.transport session rfl (fun _ => rfl) (fun _ => Or.inr rfl))

theorem expire_plain (env : Env) (id requestId : Str) :
    Plain (expire env id requestId : NodeM disk Unit) :=
  modifySession_plain id (fun _ => ⟨rfl, rfl, fun h => h, fun h => h, Or.inl⟩)

theorem loggingPolicyLimit_plain {act : NodeM disk Unit} (h : Plain act) :
    Plain (loggingPolicyLimit act) :=
  within_tryCatch h (fun _ => within_ite (within_pure _) (within_throw _))

/-!
## Messages
-/

theorem send_stays {config : NodeConfig} {packet : Packet} {known : Session}
    {outcome : Bool × PeerConnection} (h : known.peer.send config packet = .ok outcome) :
    known.Stays { known with peer := outcome.2 } := by
  unfold PeerConnection.send at h
  split at h
  · rw [← Except.ok.inj h]
    exact Session.Stays.refl known
  · rcases bind_eq_ok_iff.mp h with ⟨frame, _, hsent⟩
    split at hsent
    · rw [← Except.ok.inj hsent]
      exact Session.Stays.beginClose known
    · rw [← Except.ok.inj hsent]
      exact Session.Stays.transport known rfl (fun hclosed => hclosed) Or.inl

theorem send_frame (id : Str) (packet : Packet) (node : Node disk) :
    Leads Frame (send id packet) node (fun _ _ => True) (fun _ _ => True) := by
  unfold send
  apply leads_get_bind
  apply leads_session_get trivial
  intro known hknown
  apply leads_ite
  · intro _
    exact leads_pure trivial
  intro _
  apply leads_lift_bind
  · intro outcome houtcome
    refine leads_modifySession_bind hknown
      (Relation.ReflTransGen.single (frame_replace hknown (send_stays houtcome))) ?_
    apply leads_ite
    · intro _
      exact leads_modify_bind (Relation.ReflTransGen.single
        ⟨rfl, rfl, le_refl _, rfl, rfl, items_stay _⟩) (leads_pure trivial)
    · intro _
      exact leads_pure trivial
  · intro _ _
    trivial

theorem frames_frame {node next : Node disk} (h : Relation.ReflTransGen Frame node next) :
    Frame node next := by
  induction h with
  | refl => exact Frame.refl node
  | tail _ hlast ih => exact ih.trans hlast

theorem send_plain (id : Str) (packet : Packet) : Plain (send id packet : NodeM disk Bool) :=
  fun node => (send_frame id packet node).mono (fun _ _ => Routine.framed)

theorem sendError_plain (id : Str) (requestId : Option Str) (code : ErrorCode) :
    Plain (sendError id requestId code : NodeM disk Unit) :=
  within_discard (send_plain id _)

theorem broadcast_plain (packet : Packet) (source : Option Str) :
    Plain (broadcast packet source : NodeM disk Unit) := by
  unfold broadcast
  refine within_get_bind (fun _ => within_forM (fun id => ?_))
  unfold broadcastTo
  refine within_session_bind (fun _ => within_ite ?_ (within_pure _))
  exact loggingPolicyLimit_plain (within_discard (send_plain id packet))

theorem request_plain (env : Env) (id : Str) {request : Request}
    (hkind : request.kind ≠ .getBlocks) :
    Plain (Node.request env id request : NodeM disk (Option Str)) := by
  intro node
  unfold Node.request
  apply leads_get_bind
  apply leads_session_get trivial
  intro known hknown
  apply leads_ite
  · intro _
    exact leads_pure trivial
  intro _
  have hdrew := frame_drew node
  have hsend := send_frame id
    { payload := request.payload, requestId := some (node.entropy.token node.drawn) }
    { node with drawn := node.drawn + 1 }
  cases hrun : send id
      { payload := request.payload, requestId := some (node.entropy.token node.drawn) }
      { node with drawn := node.drawn + 1 } with
  | error e middle =>
      have hmiddle := hdrew.trans (frames_frame (hsend.of_error hrun).left)
      exact leads_of_error (run_bind_error hrun _)
        (Relation.ReflTransGen.single (Routine.framed hmiddle)) trivial
  | ok sent middle =>
      have hmiddle := hdrew.trans (frames_frame (hsend.of_ok hrun).left)
      have hdrawn : node.drawn < middle.drawn :=
        Nat.lt_of_lt_of_le (Nat.lt_succ_self _) (frames_frame (hsend.of_ok hrun).left).drawn
      rcases hmiddle.later hknown with ⟨session, hsession, _⟩
      cases sent with
      | false =>
          exact leads_of_ok (run_bind_ok hrun _)
            (Relation.ReflTransGen.single (Routine.framed hmiddle)) trivial
      | true =>
          have hasked := @Routine.asked _ node middle id session request
            (env.now + node.config.requestTimeout) hmiddle hdrawn hsession hkind
          exact leads_of_ok ((run_bind_ok hrun _).trans
            (run_bind_ok (modifySession_run hsession _) _))
            (Relation.ReflTransGen.single hasked) trivial

section Chain

variable [Crypto] {store : Option (ChainStore disk)}

/-!
## Local admission and synchronisation
-/

theorem tip_plain : Plain (tip : NodeM disk (Nat × Str)) := by
  unfold tip
  refine within_get_bind (fun _ => within_lift_bind (fun _ => within_lift_bind (fun _ => ?_)))
  exact within_pure _

theorem statusPayload_plain : Plain (statusPayload : NodeM disk StatusPayload) :=
  within_bind tip_plain (fun _ => within_pure _)

theorem performCall_plain (call : Blockchain.Call) :
    Plain (performCall store call : NodeM disk Bool) := by
  intro node
  unfold performCall
  apply leads_get_bind
  have hcalled : Frame node (node.called store call) :=
    ⟨rfl, rfl, le_refl _, rfl, rfl, items_stay _⟩
  refine leads_of_run ?_ (Relation.ReflTransGen.single (Routine.framed hcalled))
    (within_lift (Blockchain.perform store call node.chain node.disk).1 _)
  rfl

omit [Crypto] in
theorem dropExport_plain (id : Str) : Plain (dropExport id : NodeM disk Unit) := by
  apply modifySync_plain
  intro sync
  split
  · rfl
  · rfl

omit [Crypto] in
theorem tipChanged_plain : Plain (tipChanged : NodeM disk Unit) := by
  unfold tipChanged
  refine within_get_bind (fun _ => within_bind (within_forM dropExport_plain) (fun _ => ?_))
  apply plain_modify
  intro node
  have hsessions := frame_mapValues node (f := fun session => { session with nextMempool := 0 })
    (fun _ => ⟨rfl, rfl, fun h => h, fun h => h, Or.inl⟩)
  exact ⟨rfl, rfl, le_refl _, rfl, rfl, hsessions.sessions⟩

omit [Crypto] in
theorem expireExport_plain (env : Env) (id : Str) :
    Plain (expireExport env id : NodeM disk Unit) := by
  unfold expireExport
  apply within_get_bind
  intro node
  split
  · exact within_pure _
  · exact within_ite (dropExport_plain id) (within_pure _)

theorem submitTransaction_plain (transaction : Transaction) (source : Option Str) :
    Plain (submitTransaction store transaction source) := by
  unfold submitTransaction
  refine within_bind (performCall_plain _) (fun accepted => ?_)
  refine within_ite ?_ (within_pure _)
  refine within_bind (modifyCounters_plain _) (fun _ => within_get_bind (fun _ => ?_))
  refine within_bind (loggingPolicyLimit_plain ?_) (fun _ => within_pure _)
  exact within_lift_bind (fun _ => broadcast_plain _ _)

theorem acceptBlock_plain (env : Env) (block : Block) (source : Option Str) :
    Plain (acceptBlock store env block source) := by
  unfold acceptBlock
  refine within_bind tip_plain (fun current => within_ite ?_ ?_)
  · split
    · exact within_pure _
    · refine within_get_bind (fun _ => within_lift_bind (fun known => within_ite ?_ ?_))
      · exact within_bind (within_discard (request_plain env _ (by decide)))
          (fun _ => within_pure _)
      · exact within_pure _
  · refine within_bind (performCall_plain _) (fun accepted => within_ite ?_ (within_pure _))
    refine within_bind (modifyCounters_plain _) (fun _ => within_bind tipChanged_plain (fun _ =>
      within_get_bind (fun _ => ?_)))
    refine within_bind (loggingPolicyLimit_plain ?_) (fun _ => ?_)
    · exact within_lift_bind (fun _ => broadcast_plain _ _)
    · exact within_bind statusPayload_plain (fun _ => within_bind (broadcast_plain _ _)
        (fun _ => within_pure _))

omit [Crypto] in
theorem requestMempool_plain (env : Env) (height : Nat) (tipHash id : Str) :
    Plain (requestMempool env height tipHash id : NodeM disk Unit) := by
  unfold requestMempool
  refine within_bind (modifySession_plain id ?_) (fun _ => within_session_bind (fun _ => ?_))
  · intro session
    split
    · exact ⟨rfl, rfl, fun h => h, fun h => h, Or.inl⟩
    · exact Session.Stays.refl session
  · refine within_ite (within_get_bind (fun _ => ?_)) (within_pure _)
    refine within_bind (request_plain env id (by rintro ⟨⟩)) (fun _ =>
      within_ite ?_ (within_pure _))
    refine within_bind (modifySync_plain (fun _ => rfl)) (fun _ => ?_)
    exact modifySession_plain id (fun _ => ⟨rfl, rfl, fun h => h, fun h => h, Or.inl⟩)

omit [Crypto] in
theorem failedRequest_plain (env : Env) (id : Str) {request : Request} (code : FailureCode)
    (hkind : request.kind ≠ .getBlocks) :
    Plain (failedRequest env id request code : NodeM disk Unit) := by
  unfold failedRequest
  apply within_get_bind
  intro node
  refine within_bind
    (modifySession_plain id (fun _ => ⟨rfl, rfl, fun h => h, fun h => h, Or.inl⟩))
    (fun _ => ?_)
  cases request with
  | getBlocks _ => exact absurd rfl hkind
  | getMempool payload =>
      refine within_bind (modifySync_plain (fun _ => rfl)) (fun _ => ?_)
      refine within_bind
        (modifySession_plain id (fun _ => ⟨rfl, rfl, fun h => h, fun h => h, Or.inl⟩))
        (fun _ => within_ite ?_ (within_pure _))
      exact within_discard (request_plain env id (by decide))
  | getStatus => exact within_pure _
  | getPeers => exact within_pure _

theorem serveBlocks_plain (id : Str) (payload : GetBlocksPayload) (requestId : Option Str) :
    Plain (serveBlocks id payload requestId : NodeM disk Unit) := by
  unfold serveBlocks
  refine within_get_bind (fun _ => within_lift_bind (fun reply => ?_))
  split
  · exact sendError_plain _ _ _
  · exact within_discard (send_plain _ _)

theorem acceptBatch_plain (env : Env) (id : Str) (items : List Str) :
    Plain (acceptBatch store env id items) := by
  induction items with
  | nil => exact within_pure _
  | cons encoded rest ih =>
      unfold acceptBatch
      refine within_get_bind (fun _ => within_lift_bind (fun block =>
        within_bind tip_plain (fun _ => within_ite (within_throw _) ?_)))
      exact within_bind (acceptBlock_plain env block _) (fun _ => within_ite ih (within_pure _))

omit [Crypto] in
theorem servePage_plain (env : Env) (id : Str) (payload : GetMempoolPayload)
    (requestId : Option Str) (tipHash : Str) (snapshot : ExportSnapshot) :
    Plain (servePage env id payload requestId tipHash snapshot : NodeM disk Unit) := by
  unfold servePage
  refine within_ite (within_throw _) (within_get_bind (fun _ => within_lift_bind (fun result =>
    within_ite ?_ ?_)))
  · exact within_bind (dropExport_plain id) (fun _ => sendError_plain _ _ _)
  · refine within_bind (modifySync_plain (fun _ => rfl)) (fun _ => ?_)
    exact within_bind (within_discard (send_plain _ _)) (fun _ =>
      within_ite (dropExport_plain id) (within_pure _))

theorem openSnapshot_plain (env : Env) (id : Str) (requestId : Option Str) (tipHash : Str)
    (count size : Nat) :
    Plain (openSnapshot env id requestId tipHash count size :
      NodeM disk (Option ExportSnapshot)) := by
  unfold openSnapshot
  refine within_bind (modifySync_plain (fun _ => rfl)) (fun _ =>
    within_bind drawToken_plain (fun token => within_get_bind (fun node => ?_)))
  split
  · exact within_bind (modifySync_plain (fun _ => rfl)) (fun _ => within_pure _)
  · refine within_bind (modifySync_plain (fun _ => rfl)) (fun _ => within_ite ?_ (within_throw _))
    exact within_bind (sendError_plain _ _ _) (fun _ => within_pure _)

theorem serveFirst_plain (env : Env) (id : Str) (payload : GetMempoolPayload)
    (requestId : Option Str) (tipHash : Str) :
    Plain (serveFirst env id payload requestId tipHash : NodeM disk Unit) := by
  unfold serveFirst
  refine within_get_bind (fun _ => within_session_bind (fun _ =>
    within_ite (sendError_plain _ _ _) ?_))
  refine within_bind
    (modifySession_plain id (fun _ => ⟨rfl, rfl, fun h => h, fun h => h, Or.inl⟩))
    (fun _ => within_lift_bind (fun stats => within_ite (sendError_plain _ _ _)
      (within_ite (sendError_plain _ _ _) ?_)))
  refine within_bind (openSnapshot_plain env id requestId tipHash _ _) (fun opened => ?_)
  split
  · exact within_pure _
  · exact servePage_plain env id payload requestId tipHash _

theorem serveMempool_plain (env : Env) (id : Str) (payload : GetMempoolPayload)
    (requestId : Option Str) :
    Plain (serveMempool env id payload requestId : NodeM disk Unit) := by
  unfold serveMempool
  refine within_bind tip_plain (fun current => within_ite ?_ ?_)
  · exact within_bind (dropExport_plain id) (fun _ => sendError_plain _ _ _)
  · refine within_bind (expireExport_plain env id) (fun _ => ?_)
    split
    · exact serveFirst_plain env id payload requestId _
    · apply within_get_bind
      intro node
      split
      · exact sendError_plain _ _ _
      · exact within_ite (sendError_plain _ _ _) (servePage_plain env id payload requestId _ _)

theorem receiveMempool_plain (env : Env) (id : Str) (expected : GetMempoolPayload)
    (payload : MempoolPayload) :
    Plain (receiveMempool store env id expected payload) := by
  unfold receiveMempool
  refine within_bind tip_plain (fun current => within_get_bind (fun node => ?_))
  split
  · exact within_pure _
  · refine within_ite (within_pure _) (within_ite (within_throw _) (within_ite (within_throw _)
      (within_ite (within_throw _) ?_)))
    refine within_bind (within_forM (fun encoded => ?_)) (fun _ =>
      within_bind (modifySync_plain (fun _ => rfl)) (fun _ => modifySession_plain id ?_))
    · unfold acceptPage
      exact within_get_bind (fun _ => within_lift_bind (fun transaction =>
        within_discard (submitTransaction_plain transaction _)))
    · intro session
      split
      · exact ⟨rfl, rfl, fun h => h, fun h => h, Or.inl⟩
      · exact ⟨rfl, rfl, fun h => h, fun h => h, Or.inl⟩

/-!
## Handshakes and remote messages
-/

omit [Crypto] in
theorem modifySession_same (id : Str) {f : Session -> Session}
    (hpeer : forall session, (f session).peer = session.peer)
    (hpending : forall session, (f session).pending = session.pending)
    (hdial : forall session, (f session).dialEndpoint = session.dialEndpoint)
    (hendpoint : forall session, (f session).endpoint = session.endpoint) :
    Plain (modifySession id f : NodeM disk Unit) := by
  apply modifySession_plain
  intro session
  refine ⟨hpending session, hdial session, ?_, ?_, ?_⟩
  · intro houtbound endpoint hdialled
    rw [hpeer, hendpoint]
    exact houtbound endpoint ((hdial session).symm.trans hdialled)
  · rw [hpeer]
    exact fun h => h
  · rw [hpeer]
    exact Or.inl

omit [Crypto] in
theorem resolveDuplicates_plain (env : Env) (id : Str) :
    Plain (resolveDuplicates env id : NodeM disk Unit) := by
  unfold resolveDuplicates
  refine within_get_bind (fun node => within_session_bind (fun session =>
    within_lift_bind (fun smallest => ?_)))
  split
  · exact within_pure _
  · refine within_bind (within_forM closePeer_plain) (fun _ => within_ite ?_ (within_pure _))
    refine within_bind (modifyPeer_plain id (fun session =>
      Session.Stays.transport session rfl (fun h => h) (fun _ => Or.inl rfl))) (fun _ => ?_)
    have hready : Plain (modifySession id (fun session =>
        { session with ready := some (session.ready.getD true) }) : NodeM disk Unit) :=
      modifySession_same id (fun _ => rfl) (fun _ => rfl) (fun _ => rfl) (fun _ => rfl)
    split
    · exact within_bind (within_throw _) (fun _ => hready)
    · refine within_bind ?_ (fun _ => hready)
      unfold markConnected
      refine within_get_bind (fun _ => within_lift_bind (fun marked => plain_modify (fun _ => ?_)))
      exact ⟨rfl, rfl, le_refl _, rfl, rfl, items_stay _⟩

omit [Crypto] in
theorem introduced_stays {node : Node disk} {session : Session} {payload : VersionPayload}
    {endpoint : Endpoint} (h : checkVersion node session payload = .ok endpoint) :
    session.Stays
      { session with
        endpoint := some endpoint
        peer :=
          { session.peer with
            nodeId := some payload.nodeId
            remoteNonce := some payload.connectionNonce }
        remoteHeight := payload.height
        remoteTip := payload.tipHash
        versionReceived := true } := by
  refine ⟨rfl, rfl, ?_, fun hclosed => hclosed, Or.inl⟩
  intro houtbound dialled hdialled
  rcases houtbound dialled hdialled with ⟨hpeer, _⟩
  unfold checkVersion at h
  simp only [bind_eq_ok_iff] at h
  rcases h with ⟨_, _, _, _, _, _, _, _, found, _, _, hrequired, hreturn⟩
  have hfound : found = endpoint := Except.ok.inj hreturn
  have hsame := (require_eq_ok_iff.mp hrequired) hpeer
  refine ⟨hpeer, ?_⟩
  rw [← hfound, ← hsame]
  exact hdialled

omit [Crypto] in
theorem introduce_plain (id : Str) (payload : Payload) :
    Plain (introduce id payload : NodeM disk Unit) := by
  unfold introduce
  split
  · intro node
    apply leads_get_bind
    apply leads_session_get trivial
    intro known hknown
    apply leads_lift_bind
    · intro endpoint hendpoint
      refine leads_modifySession_bind hknown (Relation.ReflTransGen.single
        (Routine.framed (frame_replace hknown (introduced_stays hendpoint)))) ?_
      exact within_discard (send_plain _ _) _
    · intro _ _
      trivial
  · refine within_session_bind (fun _ => within_ite (within_throw _) ?_)
    exact modifySession_same id (fun _ => rfl) (fun _ => rfl) (fun _ => rfl) (fun _ => rfl)
  · exact within_throw _

omit [Crypto] in
theorem handshake_plain (env : Env) (id : Str) (payload : Payload) :
    Plain (handshake env id payload : NodeM disk Unit) := by
  unfold handshake
  refine within_bind (introduce_plain id payload) (fun _ => within_session_bind (fun _ => ?_))
  exact within_ite (resolveDuplicates_plain env id) (within_pure _)

omit [Crypto] in
theorem consumeService_plain (env : Env) (id : Str) :
    Plain (consumeService env id : NodeM disk Bool) := by
  unfold consumeService
  refine within_session_bind (fun _ => within_bind ?_ (fun _ => within_pure _))
  exact modifySession_same id (fun _ => rfl) (fun _ => rfl) (fun _ => rfl) (fun _ => rfl)

omit [Crypto] in
theorem servePeers_plain (env : Env) (id : Str) (requestId : Option Str) :
    Plain (servePeers env id requestId : NodeM disk Unit) := by
  unfold servePeers
  refine within_bind
    (plain_modify (fun _ => ⟨rfl, rfl, le_refl _, rfl, rfl, items_stay _⟩)) (fun _ => ?_)
  exact within_get_bind (fun _ => within_session_bind (fun _ => within_discard (send_plain _ _)))

theorem receiveStatus_plain (id : Str) (solicited : Bool) (payload : StatusPayload) :
    Plain (receiveStatus id solicited payload : NodeM disk Unit) := by
  unfold receiveStatus
  refine within_ite (within_throw _) (within_bind ?_ (fun _ =>
    within_session_bind (fun session => ?_)))
  · exact modifySession_same id (fun _ => rfl) (fun _ => rfl) (fun _ => rfl) (fun _ => rfl)
  · split
    · exact within_pure _
    · refine within_ite (within_bind tip_plain (fun _ => modifySession_plain id ?_))
        (within_pure _)
      intro session
      split
      · exact ⟨rfl, rfl, fun h => h, fun h => h, Or.inl⟩
      · exact ⟨rfl, rfl, fun h => h, fun h => h, Or.inl⟩

omit [Crypto] in
theorem learnEndpoint_plain (env : Env) (endpoint : Endpoint) :
    Plain (learnEndpoint env endpoint : NodeM disk Unit) := by
  apply plain_modify
  intro node
  split
  · exact ⟨rfl, rfl, le_refl _, rfl, rfl, items_stay _⟩
  · exact Frame.refl node

theorem receiveAnnouncement_plain (env : Env) (id : Str) (payload : Payload) :
    Plain (receiveAnnouncement store env id payload) := by
  unfold receiveAnnouncement
  split
  · exact within_pure _
  · exact receiveStatus_plain id false _
  · exact within_get_bind (fun _ => within_lift_bind (fun transaction =>
      within_discard (submitTransaction_plain transaction _)))
  · exact within_get_bind (fun _ => within_lift_bind (fun block =>
      within_discard (acceptBlock_plain env block _)))
  · exact within_throw _

omit [Crypto] in
theorem maintain_plain (env : Env) (id : Str) : Plain (maintain env id : NodeM disk Unit) := by
  unfold maintain
  refine within_get_bind (fun node => within_session_bind (fun known =>
    within_ite (closePeer_plain id) ?_))
  have hdiscovery : Plain
      (do
        if known.nextDiscovery ≤ env.now then
          discard (Node.request env id .getPeers)
          modifySession id (fun session =>
            { session with nextDiscovery := env.now + node.config.discoveryInterval })
        : NodeM disk Unit) := by
    refine within_ite (within_bind (within_discard (request_plain env id (by decide)))
      (fun _ => ?_)) (within_pure _)
    exact modifySession_same id (fun _ => rfl) (fun _ => rfl) (fun _ => rfl) (fun _ => rfl)
  have hstatus : Plain
      (do
        if known.nextStatus ≤ env.now then
          discard (Node.request env id .getStatus)
          modifySession id (fun session =>
            { session with nextStatus := env.now + node.config.statusInterval })
        if known.nextDiscovery ≤ env.now then
          discard (Node.request env id .getPeers)
          modifySession id (fun session =>
            { session with nextDiscovery := env.now + node.config.discoveryInterval })
        : NodeM disk Unit) := by
    refine within_ite (within_bind (within_discard (request_plain env id (by decide)))
      (fun _ => within_bind ?_ (fun _ => hdiscovery))) hdiscovery
    exact modifySession_same id (fun _ => rfl) (fun _ => rfl) (fun _ => rfl) (fun _ => rfl)
  refine within_ite (within_bind drawToken_plain (fun nonce =>
    within_bind ?_ (fun _ => ?_))) hstatus
  · exact modifySession_same id (fun _ => rfl) (fun _ => rfl) (fun _ => rfl) (fun _ => rfl)
  · exact within_bind (within_discard (send_plain _ _)) (fun _ => hstatus)

theorem runCommand_plain (env : Env) (command : Command) :
    Plain (runCommand store env command) := by
  unfold runCommand
  split
  · exact within_bind (submitTransaction_plain _ _) (fun _ => within_pure _)
  · exact within_bind (acceptBlock_plain env _ _) (fun _ => within_pure _)
  · exact within_get_bind (fun _ => within_lift_bind (fun _ => within_pure _))

/-!
## Readers, writers and callers
-/

omit [Crypto] in
theorem modifyPeer_transport (id : Str) {f : PeerConnection -> PeerConnection}
    (houtbound : forall peer, (f peer).outbound = peer.outbound)
    (hclosed : forall peer, (f peer).closed = peer.closed)
    (hestablished : forall peer, (f peer).established = peer.established) :
    Plain (modifyPeer id f : NodeM disk Unit) := by
  apply modifyPeer_plain
  intro session
  refine Session.Stays.transport session (houtbound _) ?_ ?_
  · rw [hclosed]
    exact fun h => h
  · rw [hestablished]
    exact Or.inl

omit [Crypto] in
theorem stopReader_plain (id : Str) (e : PyError) :
    Plain (stopReader id e : NodeM disk Unit) := by
  apply modifyPeer_plain
  intro session
  unfold PeerConnection.beginClose
  dsimp only
  split
  · exact Session.Stays.transport session rfl (fun h => h) Or.inl
  · exact Session.Stays.transport session rfl (fun _ => rfl) (fun _ => Or.inr rfl)

omit [Crypto] in
theorem releaseReading_plain (id : Str) : Plain (releaseReading id : NodeM disk Unit) := by
  unfold releaseReading
  apply within_session_bind
  intro session
  split
  · exact within_pure _
  · exact within_bind (modifyPeer_transport id (fun _ => rfl) (fun _ => rfl) (fun _ => rfl))
      (fun _ => release_plain _)

omit [Crypto] in
theorem readPrefix_plain (env : Env) (id : Str) (a b c d : UInt8) :
    Plain (readPrefix env id a b c d : NodeM disk Unit) := by
  unfold readPrefix
  apply within_get_bind
  intro node
  split
  · exact within_pure _
  · refine within_ite (within_pure _) (within_tryCatch ?_ (fun e => stopReader_plain id e))
    refine within_lift_bind (fun size => within_bind
      (modifyPeer_transport id (fun _ => rfl) (fun _ => rfl) (fun _ => rfl)) (fun _ =>
        within_ite (within_throw _) (within_bind (reserve_plain _) (fun room => ?_))))
    exact within_ite (modifyPeer_transport id (fun _ => rfl) (fun _ => rfl) (fun _ => rfl))
      (modifyPeer_plain id Session.Stays.beginClose)

omit [Crypto] in
theorem readBody_plain (id : Str) (body : Bytes) :
    Plain (readBody id body : NodeM disk Unit) := by
  unfold readBody
  apply within_get_bind
  intro node
  split
  · exact within_pure _
  · split
    · exact within_pure _
    · refine within_ite (within_pure _) (within_tryCatch ?_ (fun e => stopReader_plain id e))
      refine within_bind (within_tryCatch ?_ ?_) (fun taken => within_ite
        (modifyPeer_transport id (fun _ => rfl) (fun _ => rfl) (fun _ => rfl))
        (releaseReading_plain id))
      · exact within_lift_bind (fun _ => within_ite (within_pure _)
          (within_bind (enqueue_plain _) (fun _ => within_pure _)))
      · exact fun _ => within_bind (releaseReading_plain id) (fun _ => within_throw _)

omit [Crypto] in
theorem readStopped_plain (id : Str) : Plain (readStopped id : NodeM disk Unit) := by
  unfold readStopped
  apply within_get_bind
  intro node
  split
  · exact within_pure _
  · exact within_tryCatch (within_bind (releaseReading_plain id) (fun _ => within_throw _))
      (fun e => stopReader_plain id e)

omit [Crypto] in
theorem wrote_plain (id : Str) : Plain (wrote id : NodeM disk Unit) :=
  modifyPeer_transport id (fun _ => rfl) (fun _ => rfl) (fun _ => rfl)

omit [Crypto] in
theorem startClosing_plain (id : Str) : Plain (startClosing id : NodeM disk Unit) :=
  modifyPeer_plain id Session.Stays.beginClose

omit [Crypto] in
theorem cleanedUp_plain (id : Str) : Plain (cleanedUp id : NodeM disk Unit) := by
  unfold cleanedUp
  apply within_get_bind
  intro node
  split
  · exact within_pure _
  · refine within_ite (within_pure _) (within_bind (releaseReading_plain id) (fun _ =>
      within_bind (modifySession_plain id (fun session => ?_)) (fun _ =>
        within_bind (plain_modify (fun node => ?_)) (fun _ => ?_))))
    · exact Session.Stays.trans (Session.Stays.transport session rfl (fun h => h) Or.inl)
        ⟨rfl, rfl, fun h => h, fun h => h, Or.inl⟩
    · split
      · exact Frame.refl node
      · exact ⟨rfl, rfl, le_refl _, rfl, rfl, items_stay _⟩
    · split
      · exact within_pure _
      · exact fatal_plain _

theorem call_plain (command : Command) : Plain (call command : NodeM disk Unit) := by
  unfold call
  refine within_get_bind (fun _ => within_ite (within_throw _) ?_)
  split
  · exact within_pure _
  · refine within_bind (reserve_plain _) (fun _ => within_ite ?_ (within_throw _))
    exact within_tryCatch (enqueue_plain _)
      (fun _ => within_bind (release_plain _) (fun _ => within_throw _))

omit [Crypto] in
theorem timer_plain : Plain (timer : NodeM disk Unit) := by
  unfold timer
  refine within_get_bind (fun _ => within_ite (within_tryCatch ?_ fatal_plain) (within_pure _))
  refine within_bind (reserve_plain _) (fun _ => within_ite ?_ (within_pure _))
  exact within_bind (plain_modify (fun _ => ⟨rfl, rfl, le_refl _, rfl, rfl, items_stay _⟩))
    (fun _ => enqueue_plain _)

omit [Crypto] in
theorem stop_plain : Plain (stop : NodeM disk Unit) := by
  apply plain_modify
  intro node
  split
  · exact ⟨rfl, rfl, le_refl _, rfl, rfl, items_stay _⟩
  · exact Frame.refl node

theorem attach_routine {move : Node disk -> Node disk -> Prop} {node : Node disk} (env : Env)
    (remote : Endpoint) (dialEndpoint : Option Endpoint)
    (hroutine : forall node next, Routine node next -> move node next)
    (hopened : move node (node.opened remote dialEndpoint env.now)) :
    Leads move (attach env remote dialEndpoint) node (fun _ _ => True) (fun _ _ => True) := by
  have hgreeting : Plain
      (do
        let current <- tip
        discard (send (node.entropy.token node.drawn)
          { payload := .version
              { networkId := NETWORK_ID
                genesisHash := GENESIS_HASH
                nodeId := node.nodeId
                connectionNonce := node.entropy.token (node.drawn + 1)
                listenPort := node.endpoint.port
                height := current.1
                tipHash := current.2 }
            requestId := none })
        return node.entropy.token node.drawn : NodeM disk Str) :=
    within_bind tip_plain (fun _ => within_bind (within_discard (send_plain _ _))
      (fun _ => within_pure _))
  refine leads_of_run ?_ (Relation.ReflTransGen.single hopened) (hgreeting.mono hroutine _)
  rfl

end Chain

end Node

end Network

end PyChain
