import Mathlib.Algebra.Order.BigOperators.Group.List
import PyChain.Network.BlockDownload

/-!
# Who holds a reservation

A reservation is held by a reader that awaits a body, by an event that waits for the
dispatcher, or by a turn that passes it on.  As long as the counters cover what is
held, the queue has room for every reserved event and no release underflows.
-/

namespace PyChain

open Foundation

namespace Network

namespace Node

variable {disk : Type}

/-- What only readers and closing tasks change in a session. -/
def mark (session : Session) : Option Nat × Option PyError :=
  (session.peer.reading, session.peer.unexpectedError)

def marks (node : Node disk) : List (Option Nat × Option PyError) :=
  node.sessions.values.map mark

/-- The sizes that readers have reserved. -/
def held (node : Node disk) : List Nat :=
  (marks node).filterMap Prod.fst

/-- No task has failed, and the counters cover what is held; the listed sizes are
reserved by the turn that runs. -/
structure Tidy (flying : List Nat) (node : Node disk) : Prop where
  failure : node.failure = none
  alive : node.lifecycle ≠ .failed
  unharmed : forall entry, entry ∈ marks node -> entry.2 = none
  sized : forall size, size ∈ held node -> size ≤ node.config.maxFrameBytes + 4
  events : ((flying.length + node.events.length + (held node).length : Nat) : Int) ≤
    node.inboundEvents
  bytes : ((flying.sum + (node.events.map Event.size).sum + (held node).sum : Nat) : Int) ≤
    node.inboundBytes
  bounded : node.inboundEvents ≤ node.config.inboundMaxEvents

variable {node next : Node disk} {flying : List Nat} {id : Str} {known : Session}

/-!
## What leaves reservations alone
-/

/-- Nothing that reservations depend on has changed. -/
structure Untouched (node next : Node disk) : Prop where
  config : next.config = node.config
  failure : next.failure = node.failure
  lifecycle : next.lifecycle = node.lifecycle
  events : next.events = node.events
  inboundEvents : next.inboundEvents = node.inboundEvents
  inboundBytes : next.inboundBytes = node.inboundBytes
  marks : marks next = marks node

theorem Untouched.refl (node : Node disk) : Untouched node node :=
  ⟨rfl, rfl, rfl, rfl, rfl, rfl, rfl⟩

theorem Untouched.tidy (h : Untouched node next) (htidy : Tidy flying node) :
    Tidy flying next := by
  have hheld : held next = held node := by
    unfold held
    rw [h.marks]
  constructor
  · rw [h.failure]
    exact htidy.failure
  · rw [h.lifecycle]
    exact htidy.alive
  · rw [h.marks]
    exact htidy.unharmed
  · rw [hheld, h.config]
    exact htidy.sized
  · rw [h.events, hheld, h.inboundEvents]
    exact htidy.events
  · rw [h.events, hheld, h.inboundBytes]
    exact htidy.bytes
  · rw [h.inboundEvents, h.config]
    exact htidy.bounded

theorem marks_modify (node : Node disk) (id : Str) {f : Session -> Session}
    (h : forall session, mark (f session) = mark session) :
    marks { node with sessions := node.sessions.modify id f } = marks node := by
  unfold marks Dict.values Dict.modify
  simp only [List.map_map]
  apply List.map_congr_left
  intro item _
  simp only [Function.comp_apply]
  split
  · exact h item.2
  · rfl

theorem marks_mapValues (node : Node disk) {f : Session -> Session}
    (h : forall session, mark (f session) = mark session) :
    marks { node with sessions := node.sessions.mapValues f } = marks node := by
  unfold marks Dict.values Dict.mapValues
  simp only [List.map_map]
  apply List.map_congr_left
  intro item _
  exact h item.2

theorem untouched_modify (node : Node disk) (id : Str) {f : Session -> Session}
    (h : forall session, mark (f session) = mark session) :
    Untouched node { node with sessions := node.sessions.modify id f } :=
  { Untouched.refl node with marks := marks_modify node id h }

theorem untouched_mapValues (node : Node disk) {f : Session -> Session}
    (h : forall session, mark (f session) = mark session) :
    Untouched node { node with sessions := node.sessions.mapValues f } :=
  { Untouched.refl node with marks := marks_mapValues node h }

theorem marks_split (hknown : node.sessions.get? id = some known) :
    exists front back, marks node = front ++ mark known :: back ∧
      forall f : Session -> Session,
        marks { node with sessions := node.sessions.modify id f } =
          front ++ mark (f known) :: back := by
  rcases Dict.values_modify_split hknown with ⟨front, back, hvalues, hmodify⟩
  refine ⟨front.map mark, back.map mark, ?_, ?_⟩
  · unfold marks
    rw [hvalues, List.map_append, List.map_cons]
  · intro f
    unfold marks
    simp only [hmodify, List.map_append, List.map_cons]

theorem marks_replace {later : Session} (hknown : node.sessions.get? id = some known)
    (h : mark later = mark known) : marks (node.replace id later) = marks node := by
  rcases marks_split hknown with ⟨front, back, hmarks, hmodify⟩
  unfold replace
  rw [hmodify, hmarks, h]

theorem reading_beginClose (peer : PeerConnection) : peer.beginClose.reading = peer.reading := by
  unfold PeerConnection.beginClose
  split
  · rfl
  · rfl

theorem unexpectedError_beginClose (peer : PeerConnection) :
    peer.beginClose.unexpectedError = peer.unexpectedError := by
  unfold PeerConnection.beginClose
  split
  · rfl
  · rfl

theorem mark_beginClose (session : Session) :
    mark { session with peer := session.peer.beginClose } = mark session := by
  unfold mark
  rw [reading_beginClose, unexpectedError_beginClose]

theorem Quiet.mark {session later : Session} (h : Quiet session later) :
    mark later = mark session := by
  unfold Node.mark
  rw [h.peer]

theorem Talk.marks {speech : Str -> Blockchain -> Session -> Payload -> Prop}
    (h : Talk speech node next) : marks next = marks node := by
  cases h with
  | counted _ => rfl
  | drew => rfl
  | quiet hsession hquiet => exact marks_replace hsession hquiet.mark
  | queued hsession _ _ _ => exact marks_replace hsession rfl
  | overflowed hsession _ => exact marks_replace hsession (mark_beginClose _)

theorem Steady.untouched (h : Steady node next) (hmarks : marks next = marks node) :
    Untouched node next :=
  ⟨h.config, h.failure, h.lifecycle, h.events, h.inboundEvents, h.inboundBytes, hmarks⟩

section Chain

variable [Crypto] {store : Option (ChainStore disk)} {input : EventKind}

theorem Move.marks (h : Move store input node next) : marks next = marks node := by
  cases h with
  | talk h => exact h.marks
  | relayed h => exact h.marks
  | quietAll h => exact marks_mapValues node (fun session => (h session).mark)
  | performed _ => rfl
  | synced _ _ => rfl
  | managed _ _ => rfl
  | closed hsession => exact marks_replace hsession rfl
  | superseded hsession _ _ => exact marks_replace hsession rfl
  | introduced hsession _ _ _ => exact marks_replace hsession rfl
  | acknowledged hsession _ _ _ _ => exact marks_replace hsession rfl
  | established hsession _ _ _ _ => exact marks_replace hsession rfl
  | heard hsession _ _ => exact marks_replace hsession rfl
  | diverged hsession _ hquiet => exact marks_replace hsession hquiet.mark
  | refused hsession _ => exact marks_replace hsession rfl
  | ticked => rfl

theorem moves_untouched (h : Relation.ReflTransGen (Move store input) node next) :
    Untouched node next := by
  refine (moves_steady h).untouched ?_
  induction h with
  | refl => rfl
  | tail _ hlast ih => exact hlast.marks.trans ih

end Chain

/-!
## Passing reservations on
-/

theorem Tidy.reserved (h : Tidy flying node) (size : Nat)
    (hroom : node.inboundEvents < node.config.inboundMaxEvents) :
    Tidy (size :: flying)
      { node with
        inboundEvents := node.inboundEvents + 1
        inboundBytes := node.inboundBytes + size } := by
  have hevents := h.events
  have hbytes := h.bytes
  refine { h with events := ?_, bytes := ?_, bounded := ?_ }
  · rw [List.length_cons]
    change ((flying.length + 1 + node.events.length + (held node).length : Nat) : Int) ≤
      node.inboundEvents + 1
    omega
  · rw [List.sum_cons]
    change ((size + flying.sum + (node.events.map Event.size).sum + (held node).sum : Nat) : Int) ≤
      node.inboundBytes + size
    omega
  · exact hroom

theorem Tidy.released {size : Nat} (h : Tidy (size :: flying) node) :
    Tidy flying
      { node with
        inboundEvents := node.inboundEvents - 1
        inboundBytes := node.inboundBytes - size } := by
  have hevents := h.events
  have hbytes := h.bytes
  have hbounded := h.bounded
  rw [List.length_cons] at hevents
  rw [List.sum_cons] at hbytes
  refine { h with events := ?_, bytes := ?_, bounded := ?_ }
  · change ((flying.length + node.events.length + (held node).length : Nat) : Int) ≤
      node.inboundEvents - 1
    omega
  · change ((flying.sum + (node.events.map Event.size).sum + (held node).sum : Nat) : Int) ≤
      node.inboundBytes - size
    omega
  · change node.inboundEvents - 1 ≤ (node.config.inboundMaxEvents : Int)
    omega

theorem Tidy.queued {item : Event} (h : Tidy (item.size :: flying) node) :
    Tidy flying { node with events := node.events ++ [item] } := by
  have hevents := h.events
  have hbytes := h.bytes
  rw [List.length_cons] at hevents
  rw [List.sum_cons] at hbytes
  refine { h with events := ?_, bytes := ?_ }
  · rw [List.length_append, List.length_singleton]
    change ((flying.length + (node.events.length + 1) + (held node).length : Nat) : Int) ≤
      node.inboundEvents
    omega
  · rw [List.map_append, List.sum_append, List.map_singleton, List.sum_singleton]
    change ((flying.sum + ((node.events.map Event.size).sum + item.size) + (held node).sum :
      Nat) : Int) ≤ node.inboundBytes
    omega

theorem Tidy.popped {item : Event} {rest : List Event} (h : Tidy flying node)
    (hqueue : node.events = item :: rest) :
    Tidy (item.size :: flying) { node with events := rest } := by
  have hevents := h.events
  have hbytes := h.bytes
  rw [hqueue, List.length_cons] at hevents
  rw [hqueue, List.map_cons, List.sum_cons] at hbytes
  refine { h with events := ?_, bytes := ?_ }
  · rw [List.length_cons]
    change ((flying.length + 1 + rest.length + (held node).length : Nat) : Int) ≤
      node.inboundEvents
    omega
  · rw [List.sum_cons]
    change ((item.size + flying.sum + (rest.map Event.size).sum + (held node).sum : Nat) : Int) ≤
      node.inboundBytes
    omega

theorem Tidy.room {size : Nat} (h : Tidy (size :: flying) node) :
    node.events.length < node.config.inboundMaxEvents := by
  have hevents := h.events
  have hbounded := h.bounded
  rw [List.length_cons] at hevents
  omega

theorem Tidy.exchanged {flying' : List Nat} {f : Session -> Session} (h : Tidy flying node)
    (hknown : node.sessions.get? id = some known)
    (hharm : (f known).peer.unexpectedError = none)
    (hsize : forall size, (f known).peer.reading = some size ->
      size ≤ node.config.maxFrameBytes + 4)
    (hcount : flying'.length + (f known).peer.reading.toList.length =
      flying.length + known.peer.reading.toList.length)
    (hsum : flying'.sum + (f known).peer.reading.toList.sum =
      flying.sum + known.peer.reading.toList.sum) :
    Tidy flying' { node with sessions := node.sessions.modify id f } := by
  rcases marks_split hknown with ⟨front, back, hmarks, hmodify⟩
  have hbefore : held node =
      front.filterMap Prod.fst ++ (known.peer.reading.toList ++ back.filterMap Prod.fst) := by
    unfold held
    rw [hmarks, List.filterMap_append, List.filterMap_cons]
    unfold mark
    cases known.peer.reading with
    | none => rfl
    | some _ => rfl
  have hafter : held { node with sessions := node.sessions.modify id f } =
      front.filterMap Prod.fst ++ ((f known).peer.reading.toList ++ back.filterMap Prod.fst) := by
    unfold held
    rw [hmodify, List.filterMap_append, List.filterMap_cons]
    unfold mark
    cases (f known).peer.reading with
    | none => rfl
    | some _ => rfl
  have hunharmed := h.unharmed
  have hsized := h.sized
  have hevents := h.events
  have hbytes := h.bytes
  rw [hmarks] at hunharmed
  rw [hbefore] at hsized hevents hbytes
  simp only [List.length_append, List.sum_append] at hevents hbytes
  refine ⟨h.failure, h.alive, ?_, ?_, ?_, ?_, h.bounded⟩
  · rw [hmodify]
    intro entry hentry
    rcases List.mem_append.mp hentry with hfront | hrest
    · exact hunharmed entry (List.mem_append_left _ hfront)
    rcases List.mem_cons.mp hrest with hself | hback
    · rw [hself]
      exact hharm
    · exact hunharmed entry (List.mem_append_right _ (List.mem_cons_of_mem _ hback))
  · rw [hafter]
    intro size hmem
    rcases List.mem_append.mp hmem with hfront | hrest
    · exact hsized size (List.mem_append_left _ hfront)
    rcases List.mem_append.mp hrest with hself | hback
    · exact hsize size (Option.mem_toList.mp hself)
    · exact hsized size (List.mem_append_right _ (List.mem_append_right _ hback))
  · rw [hafter]
    simp only [List.length_append]
    omega
  · rw [hafter]
    simp only [List.sum_append]
    omega

theorem Tidy.dropped {size : Nat} (h : Tidy flying node)
    (hknown : node.sessions.get? id = some known) (hreading : known.peer.reading = some size) :
    Tidy (size :: flying)
      { node with
        sessions := node.sessions.modify id (fun session =>
          { session with peer := { session.peer with reading := none } }) } := by
  refine h.exchanged hknown (h.unharmed (mark known) ?_) (fun _ h => by cases h) ?_ ?_
  · exact List.mem_map.mpr ⟨known, List.mem_map.mpr
      ⟨_, (Dict.get?_eq_some_iff _ _ _).mp hknown, rfl⟩, rfl⟩
  · rw [hreading]
    rfl
  · rw [hreading]
    simp only [Option.toList_none, Option.toList_some, List.sum_cons, List.sum_nil]
    omega

theorem Tidy.taken {size : Nat} (h : Tidy (size :: flying) node)
    (hknown : node.sessions.get? id = some known) (hreading : known.peer.reading = none)
    (hsize : size ≤ node.config.maxFrameBytes + 4) :
    Tidy flying
      { node with
        sessions := node.sessions.modify id (fun session =>
          { session with peer := { session.peer with reading := some size } }) } := by
  refine h.exchanged hknown (h.unharmed (mark known) ?_) ?_ ?_ ?_
  · exact List.mem_map.mpr ⟨known, List.mem_map.mpr
      ⟨_, (Dict.get?_eq_some_iff _ _ _).mp hknown, rfl⟩, rfl⟩
  · intro other hother
    rw [← Option.some.inj hother]
    exact hsize
  · rw [hreading]
    rfl
  · rw [hreading]
    simp only [Option.toList_none, Option.toList_some, List.sum_cons, List.sum_nil]
    omega

theorem Tidy.thinned {sessions : Dict Str Session} {closedPeers : List Str} {drawn : Nat}
    {kept : List (Option Nat × Option PyError)} (h : Tidy flying node)
    (hsub : List.Sublist kept ((none, none) :: marks node))
    (hperm : (sessions.values.map mark).Perm kept) :
    Tidy flying
      { node with sessions := sessions, closedPeers := closedPeers, drawn := drawn } := by
  have hheld : List.Sublist (kept.filterMap Prod.fst) (held node) := hsub.filterMap Prod.fst
  have hperm' := hperm.filterMap Prod.fst
  have hlength := hperm'.length_eq.trans_le hheld.length_le
  have hsum := hperm'.sum_eq.trans_le (hheld.sum_le_sum (fun _ _ => Nat.zero_le _))
  have hevents := h.events
  have hbytes := h.bytes
  refine ⟨h.failure, h.alive, ?_, ?_, ?_, ?_, h.bounded⟩
  · intro entry hentry
    rcases List.mem_cons.mp (hsub.subset (hperm.mem_iff.mp hentry)) with hnew | hold
    · rw [hnew]
    · exact h.unharmed entry hold
  · intro size hmem
    exact h.sized size (hheld.subset (hperm'.mem_iff.mp hmem))
  · refine le_trans (Int.ofNat_le.mpr (Nat.add_le_add_left hlength _)) ?_
    exact hevents
  · refine le_trans (Int.ofNat_le.mpr (Nat.add_le_add_left hsum _)) ?_
    exact hbytes

theorem Tidy.erased (h : Tidy flying node) (id : Str) {closedPeers : List Str} :
    Tidy flying
      { node with closedPeers := closedPeers, sessions := node.sessions.erase id } :=
  h.thinned (((Dict.values_erase_sublist node.sessions id).map mark).trans
    (List.sublist_cons_self _ _)) (List.Perm.refl _)

theorem Tidy.entered (h : Tidy flying node) (id : Str) {session : Session} {drawn : Nat}
    (hmark : mark session = (none, none)) :
    Tidy flying
      { node with drawn := drawn, sessions := node.sessions.set id session } := by
  have hperm := (Dict.values_set_perm node.sessions id session).map mark
  rw [List.map_cons, hmark] at hperm
  exact h.thinned (((Dict.values_erase_sublist node.sessions id).map mark).cons_cons _) hperm

/-!
## Readers
-/

theorem mark_mem (hknown : node.sessions.get? id = some known) : mark known ∈ marks node :=
  List.mem_map.mpr ⟨known, List.mem_map.mpr
    ⟨_, (Dict.get?_eq_some_iff _ _ _).mp hknown, rfl⟩, rfl⟩

theorem reserve_tidy (h : Tidy flying node) (size : Nat) {raised : PyError -> Node disk -> Prop} :
    Leads Any (reserve size) node
      (fun answer next => answer = false ∧ next = node ∨
        answer = true ∧ Tidy (size :: flying) next ∧ next.sessions = node.sessions ∧
          next.config = node.config) raised := by
  unfold reserve
  apply leads_get_bind
  apply leads_ite
  · intro _
    exact leads_pure (Or.inl ⟨rfl, rfl⟩)
  · intro hroom
    rcases not_or.mp hroom with ⟨_, hroom⟩
    rcases not_or.mp hroom with ⟨hroom, _⟩
    exact leads_of_ok rfl (any_step _ _)
      (Or.inr ⟨rfl, h.reserved size (not_le.mp hroom), rfl, rfl⟩)

theorem release_tidy {size : Nat} (h : Tidy (size :: flying) node)
    {raised : PyError -> Node disk -> Prop} :
    Leads Any (release size) node
      (fun _ next => Tidy flying next ∧ next.sessions = node.sessions) raised := by
  unfold release
  refine leads_modify_bind (any_step _ _) ?_
  apply leads_get_bind
  have hreleased := h.released
  have hevents := hreleased.events
  have hbytes := hreleased.bytes
  apply leads_ite
  · rintro (hnegative | hnegative)
    · omega
    · omega
  · intro _
    exact leads_pure ⟨hreleased, rfl⟩

theorem enqueue_run {item : Event} (hroom : node.events.length < node.config.inboundMaxEvents) :
    enqueue item node = .ok ⟨⟩ { node with events := node.events ++ [item] } := by
  have hrun : enqueue item node =
      (if node.config.inboundMaxEvents ≤ node.events.length then
        throw (.runtimeError "QueueFull")
      else set { node with events := node.events ++ [item] } : NodeM disk Unit) node := rfl
  rw [hrun, if_neg (not_le.mpr hroom)]
  rfl

theorem enqueue_tidy {item : Event} (h : Tidy (item.size :: flying) node)
    {raised : PyError -> Node disk -> Prop} :
    Leads Any (enqueue item) node (fun _ next => Tidy flying next) raised :=
  leads_of_ok (enqueue_run h.room) (any_step _ _) h.queued

theorem releaseReading_tidy (h : Tidy flying node) (hknown : node.sessions.get? id = some known)
    {raised : PyError -> Node disk -> Prop} :
    Leads Any (releaseReading id) node
      (fun _ next => Tidy flying next ∧ next.sessions.get? id = some
        { known with peer := { known.peer with reading := none } }) raised := by
  unfold releaseReading
  apply leads_session_bind hknown
  cases hreading : known.peer.reading with
  | none =>
      have hsame : ({ known with peer := { known.peer with reading := none } } : Session) =
          known := by
        rw [← hreading]
      rw [hsame]
      exact leads_pure ⟨h, hknown⟩
  | some size =>
      refine leads_modify_bind (any_step _ _) ?_
      refine (release_tidy (h.dropped hknown hreading)).post ?_
      rintro _ next _ ⟨htidy, hsessions⟩
      refine ⟨htidy, ?_⟩
      rw [hsessions, Dict.get?_modify, if_pos rfl, hknown]
      rfl

theorem modifyPeer_tidy (h : Tidy flying node) (id : Str) {f : PeerConnection -> PeerConnection}
    (hf : forall session : Session, mark { session with peer := f session.peer } = mark session)
    {raised : PyError -> Node disk -> Prop} :
    Leads Any (modifyPeer id f) node (fun _ next => Tidy flying next) raised :=
  leads_modify (any_step _ _) ((untouched_modify node id hf).tidy h)

/-- What ends a reader without a trace. -/
def Expected (e : PyError) : Prop :=
  ProtocolFailure e ∨ e = .osError

theorem stopReader_tidy (h : Tidy flying node) (id : Str) {e : PyError} (he : Expected e)
    {raised : PyError -> Node disk -> Prop} :
    Leads Any (stopReader id e) node (fun _ next => Tidy flying next) raised := by
  have hclosed : Leads Any (modifyPeer id PeerConnection.beginClose) node
      (fun _ next => Tidy flying next) raised :=
    modifyPeer_tidy h id mark_beginClose
  rcases he with hprotocol | hos
  · cases e with
    | networkError kind message =>
        cases kind with
        | protocol => exact hclosed
        | _ => exact hprotocol.elim
    | _ => exact hprotocol.elim
  · rw [hos]
    exact hclosed

theorem frameSize_le {maxFrameBytes size : Nat} {a b c d : UInt8}
    (h : frameSize maxFrameBytes a b c d = .ok size) : size ≤ maxFrameBytes := by
  unfold frameSize at h
  rcases bind_eq_ok_iff.mp h with ⟨_, hrequire, heq⟩
  cases heq
  exact (require_eq_ok_iff.mp hrequire).right

theorem frameSize_raises {maxFrameBytes : Nat} {a b c d : UInt8} {e : PyError}
    (h : frameSize maxFrameBytes a b c d = .error e) : Expected e := by
  unfold frameSize at h
  rcases bind_eq_error_iff.mp h with hrequire | ⟨_, _, heq⟩
  · rw [(require_eq_error_iff.mp hrequire).right]
    exact Or.inl trivial
  · cases heq

theorem readPrefix_tidy (h : Tidy flying node) (env : Env) (id : Str) (a b c d : UInt8)
    {raised : PyError -> Node disk -> Prop} :
    Leads Any (readPrefix env id a b c d) node (fun _ next => Tidy flying next) raised := by
  unfold readPrefix
  apply leads_get_bind
  split
  · exact leads_pure h
  rename_i known hknown
  apply leads_ite
  · intro _
    exact leads_pure h
  intro hidle
  rcases not_or.mp hidle with ⟨_, hreading⟩
  have hreading' : known.peer.reading = none := by simpa using hreading
  refine leads_tryCatch
    (?_ : Leads Any _ node _ (fun e next => Expected e ∧ Tidy flying next))
    (fun e next _ hraised => stopReader_tidy hraised.right id hraised.left)
  apply leads_lift_bind
  · intro size hsize
    refine leads_modify_bind (any_step _ _) ?_
    have hfilled := (untouched_modify node id (f := fun session => { session with
      peer := { session.peer with
        messageBucket := (known.peer.messageBucket.consume env.now 1).2
        byteBucket :=
          if (known.peer.messageBucket.consume env.now 1).1 then
            (known.peer.byteBucket.consume env.now (size + 4)).2
          else session.peer.byteBucket } }) (fun _ => rfl)).tidy h
    apply leads_ite
    · intro _
      exact leads_throw ⟨Or.inl trivial, hfilled⟩
    intro _
    refine leads_bind (reserve_tidy hfilled (size + 4)) ?_
    rintro room later _ (⟨hroom, hsame⟩ | ⟨hroom, hreserved, hsessions, hconfig⟩)
    · rw [hroom, hsame]
      exact modifyPeer_tidy hfilled id mark_beginClose
    · rw [hroom]
      refine leads_modify (any_step _ _) ?_
      have hself : later.sessions.get? id = some { known with
          peer := { known.peer with
            messageBucket := (known.peer.messageBucket.consume env.now 1).2
            byteBucket :=
              if (known.peer.messageBucket.consume env.now 1).1 then
                (known.peer.byteBucket.consume env.now (size + 4)).2
              else known.peer.byteBucket } } := by
        rw [hsessions, Dict.get?_modify, if_pos rfl, hknown]
        rfl
      refine hreserved.taken hself hreading' ?_
      rw [hconfig]
      exact Nat.add_le_add_right (frameSize_le hsize) 4
  · intro e he
    exact ⟨frameSize_raises he, h⟩

theorem readBody_tidy (h : Tidy flying node) (id : Str) (body : Bytes)
    {raised : PyError -> Node disk -> Prop} :
    Leads Any (readBody id body) node (fun _ next => Tidy flying next) raised := by
  unfold readBody
  apply leads_get_bind
  split
  · exact leads_pure h
  rename_i known hknown
  split
  · exact leads_pure h
  rename_i size hreading
  apply leads_ite
  · intro _
    exact leads_pure h
  intro hlength
  have hdropped := h.dropped hknown hreading
  have hsized : size ≤ node.config.maxFrameBytes + 4 := by
    apply h.sized
    unfold held
    exact List.mem_filterMap.mpr ⟨mark known, mark_mem hknown, hreading⟩
  have hbody : body.length ≤ node.config.maxFrameBytes := by
    have heq := not_not.mp hlength
    omega
  refine leads_tryCatch
    (?_ : Leads Any _ node _ (fun e next => Expected e ∧ Tidy flying next))
    (fun e next _ hraised => stopReader_tidy hraised.right id hraised.left)
  have hreceived : Leads Any
      (do
        let packet <- lift (decodeReceived body node.config.maxFrameBytes)
        if node.lifecycle ≠ .running then return false
        else
          enqueue { kind := .remote id packet, size := size }
          return true) node
      (fun taken next => taken = false ∧ next = node ∨
        taken = true ∧ exists packet, next = { node with
          events := node.events ++ [{ kind := .remote id packet, size := size }] })
      (fun e next => Expected e ∧ next = node) := by
    apply leads_lift_bind
    · intro packet _
      apply leads_ite
      · intro _
        exact leads_pure (Or.inl ⟨rfl, rfl⟩)
      · intro _
        have hqueued : Leads Any (enqueue { kind := .remote id packet, size := size }) node
            (fun _ next => next = { node with
              events := node.events ++ [{ kind := .remote id packet, size := size }] })
            (fun e next => Expected e ∧ next = node) :=
          leads_of_ok (enqueue_run hdropped.room) (any_step _ _) rfl
        refine leads_bind hqueued ?_
        intro _ next _ hnext
        exact leads_pure (Or.inr ⟨rfl, packet, hnext⟩)
    · intro e he
      exact ⟨Or.inl (raises_decodeReceived (frame_pos node.config) hbody e he), rfl⟩
  refine leads_bind (leads_tryCatch hreceived ?_) ?_
  · rintro e next _ ⟨he, hnext⟩
    rw [hnext]
    refine leads_bind (releaseReading_tidy h hknown) ?_
    intro _ later _ hlater
    exact leads_throw ⟨he, hlater.left⟩
  · rintro taken next _ (⟨htaken, hnext⟩ | ⟨htaken, packet, hnext⟩)
    · rw [htaken, hnext]
      exact (releaseReading_tidy h hknown).post (fun _ _ _ hlater => hlater.left)
    · rw [htaken, hnext]
      refine leads_modify (any_step _ _) ?_
      have hitem : Tidy (({ kind := .remote id packet, size := size } : Event).size :: flying) _ :=
        hdropped
      exact hitem.queued

theorem readStopped_tidy (h : Tidy flying node) (id : Str)
    {raised : PyError -> Node disk -> Prop} :
    Leads Any (readStopped id) node (fun _ next => Tidy flying next) raised := by
  unfold readStopped
  apply leads_get_bind
  split
  · exact leads_pure h
  rename_i known hknown
  refine leads_tryCatch
    (?_ : Leads Any _ node _ (fun e next => Expected e ∧ Tidy flying next))
    (fun e next _ hraised => stopReader_tidy hraised.right id hraised.left)
  refine leads_bind (releaseReading_tidy h hknown) ?_
  intro _ later _ hlater
  exact leads_throw ⟨Or.inr rfl, hlater.left⟩

theorem cleanedUp_tidy (h : Tidy flying node) (id : Str)
    {raised : PyError -> Node disk -> Prop} :
    Leads Any (cleanedUp id) node (fun _ next => Tidy flying next) raised := by
  unfold cleanedUp
  apply leads_get_bind
  split
  · exact leads_pure h
  rename_i known hknown
  apply leads_ite
  · intro _
    exact leads_pure h
  intro _
  refine leads_bind (releaseReading_tidy h hknown) ?_
  rintro _ released _ ⟨htidy, _⟩
  refine leads_modify_bind (any_step _ _) ?_
  have hemptied := (untouched_modify released id (f := fun session => { session with
    ready := some (session.ready.getD false)
    peer := { session.peer with queue := [] } }) (fun _ => rfl)).tidy htidy
  refine leads_modify_bind (any_step _ _) ?_
  have hnone : known.peer.unexpectedError = none := h.unharmed (mark known) (mark_mem hknown)
  rw [hnone]
  apply leads_pure
  split
  · exact hemptied
  · exact { hemptied with }

/-!
## Local callers, the timer and dials
-/

theorem call_tidy [Crypto] (h : Tidy flying node) (command : Command) :
    Leads Any (call command) node (fun _ next => Tidy flying next)
      (fun _ next => Tidy flying next) := by
  unfold call
  apply leads_get_bind
  apply leads_ite
  · intro _
    exact leads_throw h
  intro _
  split
  · exact leads_pure h
  rename_i size _
  refine leads_bind (reserve_tidy h size) ?_
  rintro room later _ (⟨hroom, hsame⟩ | ⟨hroom, hreserved, _⟩)
  · rw [hroom, hsame]
    exact leads_throw h
  · rw [hroom]
    have hqueued : Leads Any (enqueue { kind := .command command, size := size }) later
        (fun _ next => Tidy flying next) (fun _ _ => False) := enqueue_tidy hreserved
    exact leads_tryCatch hqueued (fun _ _ _ hfalse => hfalse.elim)

theorem timer_tidy (h : Tidy flying node) {raised : PyError -> Node disk -> Prop} :
    Leads Any timer node (fun _ next => Tidy flying next) raised := by
  unfold timer
  apply leads_get_bind
  apply leads_ite
  · intro _
    refine leads_tryCatch (?_ : Leads Any _ node _ (fun _ _ => False))
      (fun _ _ _ hfalse => hfalse.elim)
    refine leads_bind (reserve_tidy h 1) ?_
    rintro room later _ (⟨hroom, hsame⟩ | ⟨hroom, hreserved, _⟩)
    · rw [hroom, hsame]
      exact leads_pure h
    · rw [hroom]
      refine leads_modify_bind (any_step _ _) ?_
      have hticking : Tidy (1 :: flying) { later with tickQueued := true } :=
        { hreserved with }
      exact enqueue_tidy hticking
  · intro _
    exact leads_pure h

theorem stop_tidy (h : Tidy flying node) {raised : PyError -> Node disk -> Prop} :
    Leads Any stop node (fun _ next => Tidy flying next) raised := by
  unfold stop
  refine leads_modify (any_step _ _) ?_
  split
  · exact { h with alive := (fun hfailed => by cases hfailed) }
  · exact h

theorem connect_tidy (h : Tidy flying node) (env : Env) (endpoint : Endpoint) :
    Leads Any (connect env endpoint) node (fun _ next => Tidy flying next)
      (fun _ next => Tidy flying next) := by
  unfold connect
  apply leads_get_bind
  apply leads_ite
  · intro _
    exact leads_throw h
  intro _
  apply leads_lift_bind _ (fun _ _ => h)
  intro found _
  apply leads_ite
  · intro _
    exact leads_throw h
  intro _
  apply leads_ite
  · intro _
    exact leads_pure h
  intro _
  apply leads_ite
  · intro _
    exact leads_throw h
  intro _
  apply leads_lift_bind _ (fun _ _ => h)
  intro added _
  apply leads_drawJitter_bind trivial
  intro jitter
  apply leads_lift_bind _ (fun _ _ => { h with })
  intro marked _
  exact leads_modify (any_step _ _) { h with }

theorem dialFailed_tidy (h : Tidy flying node) (env : Env) (endpoint : Endpoint) :
    Leads Any (dialFailed env endpoint) node (fun _ next => Tidy flying next)
      (fun _ next => Tidy flying next ∧ ¬ node.config.Accepts endpoint) := by
  unfold dialFailed
  apply leads_drawJitter_bind trivial
  intro jitter
  apply leads_get_bind
  apply leads_lift_bind
  · intro manager _
    have hmark : forall session : Session,
        mark (if session.dialEndpoint = some endpoint then
          { session with peer := session.peer.beginClose } else session) = mark session := by
      intro session
      split
      · exact mark_beginClose session
      · rfl
    have hclosed := (untouched_mapValues node hmark).tidy h
    exact leads_of_ok rfl (any_step _ _) { hclosed with }
  · intro e he
    refine ⟨{ h with }, ?_⟩
    intro haccepts
    have htotal : exists next,
        node.manager.markDisconnected node.config env.now jitter endpoint = .ok next :=
      PeerManager.markDisconnected_total haccepts
    rcases htotal with ⟨next, hnext⟩
    rw [hnext] at he
    cases he

end Node

end Network

end PyChain
