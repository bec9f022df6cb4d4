import PyChain.Api.WebSocketManager

/-!
# WebSocket slots

Every admitted connection has one slot until its clean-up gives it back, so the two
counters of the manager are exact in every state.  A slot is lost for good exactly when
a cancellation gets to a clean-up before its last section.
-/

namespace PyChain

open Foundation

namespace Api

variable {payload : Type}

namespace Connection

/-- The handler reserved a slot, and its clean-up has not given it back. -/
def holds (connection : Connection) : Bool :=
  match connection.handler, connection.cleanup with
  | .refused _, _ => false
  | .accepting, _ => true
  | .awaitingStatus, _ => true
  | .serving, _ => true
  | _, .absent => false
  | _, .done => false
  | _, _ => true

/-- The clean-up runs outside its `finally`. -/
def early (connection : Connection) : Bool :=
  decide (connection.cleanup = .created) || decide (connection.cleanup = .awaitingWriter)

/-- The clean-up exists from the moment the handler has left its body, and has ended when
the handler has. -/
def Orderly (connection : Connection) : Prop :=
  match connection.handler with
  | .refused _ => connection.cleanup = .absent
  | .accepting => connection.cleanup = .absent
  | .awaitingStatus => connection.cleanup = .absent
  | .serving => connection.cleanup = .absent
  | .shielded => connection.cleanup ≠ .absent
  | .unshielded => connection.cleanup ≠ .absent
  | .ended => connection.cleanup = .absent ∨ connection.cleanup = .done ∨
      connection.cleanup = .cancelled

/-- A step of the tasks of a connection that takes no slot and gives none back. -/
structure Move (connection next : Connection) : Prop where
  ip : next.ip = connection.ip
  holds : connection.Orderly -> next.holds = connection.holds
  orderly : connection.Orderly -> next.Orderly
  cancelled : next.cleanup = .cancelled ->
    connection.cleanup = .cancelled ∨ connection.early = true

/-- The handler is in the body that its slot was reserved for. -/
def Inside (connection : Connection) : Prop :=
  connection.handler = .accepting ∨ connection.handler = .awaitingStatus ∨
    connection.handler = .serving

variable {connection : Connection}

theorem Inside.holds (h : connection.Inside) : connection.holds = true := by
  unfold Connection.holds
  rcases h with h | h | h
  · rw [h]
  · rw [h]
  · rw [h]

theorem Inside.absent (h : connection.Inside) (horderly : connection.Orderly) :
    connection.cleanup = .absent := by
  unfold Orderly at horderly
  rcases h with h | h | h
  · rw [h] at horderly
    exact horderly
  · rw [h] at horderly
    exact horderly
  · rw [h] at horderly
    exact horderly

theorem Inside.move {handler : HandlerTask} (h : connection.Inside)
    (hnext : ({ connection with handler := handler } : Connection).Inside) :
    connection.Move { connection with handler := handler } := by
  constructor
  case ip => rfl
  case holds =>
    intro _
    rw [h.holds, hnext.holds]
  case orderly =>
    intro horderly
    have habsent := h.absent horderly
    unfold Orderly
    rcases hnext with hnext | hnext | hnext
    · rw [hnext]
      exact habsent
    · rw [hnext]
      exact habsent
    · rw [hnext]
      exact habsent
  case cancelled => exact fun hcancelled => Or.inl hcancelled

theorem Inside.leave (h : connection.Inside) :
    connection.Move { connection with handler := .shielded, cleanup := .created } :=
  { ip := rfl
    holds := fun _ => h.holds.symm
    orderly := fun _ => CleanupTask.noConfusion
    cancelled := fun hcancelled => CleanupTask.noConfusion hcancelled }

theorem holds_of_cleaning (h : connection.handler = .shielded ∨ connection.handler = .unshielded) :
    connection.holds = true <->
      connection.cleanup ≠ .absent ∧ connection.cleanup ≠ .done := by
  unfold holds
  rcases h with h | h
  · rw [h]
    cases connection.cleanup with
    | absent => simp
    | created => simp
    | awaitingWriter => simp
    | closing code => simp
    | done => simp
    | cancelled => simp
  · rw [h]
    cases connection.cleanup with
    | absent => simp
    | created => simp
    | awaitingWriter => simp
    | closing code => simp
    | done => simp
    | cancelled => simp

theorem Orderly.cleaning (h : connection.Orderly) (hcleanup : connection.cleanup ≠ .absent)
    (hdone : connection.cleanup ≠ .done) (hcancelled : connection.cleanup ≠ .cancelled) :
    connection.handler = .shielded ∨ connection.handler = .unshielded := by
  unfold Orderly at h
  cases hhandler : connection.handler with
  | refused code =>
      rw [hhandler] at h
      exact absurd h hcleanup
  | accepting =>
      rw [hhandler] at h
      exact absurd h hcleanup
  | awaitingStatus =>
      rw [hhandler] at h
      exact absurd h hcleanup
  | serving =>
      rw [hhandler] at h
      exact absurd h hcleanup
  | shielded => exact Or.inl rfl
  | unshielded => exact Or.inr rfl
  | ended =>
      rw [hhandler] at h
      rcases h with h | h | h
      · exact absurd h hcleanup
      · exact absurd h hdone
      · exact absurd h hcancelled

theorem cleanup_move {cleanup : CleanupTask} (hearly : connection.early = true)
    (habsent : cleanup ≠ .absent) (hdone : cleanup ≠ .done) :
    connection.Move { connection with cleanup := cleanup } := by
  have hrunning : connection.cleanup ≠ .absent ∧ connection.cleanup ≠ .done ∧
      connection.cleanup ≠ .cancelled := by
    unfold early at hearly
    rw [Bool.or_eq_true, decide_eq_true_iff, decide_eq_true_iff] at hearly
    rcases hearly with h | h
    · rw [h]
      simp
    · rw [h]
      simp
  constructor
  case ip => rfl
  case holds =>
    intro horderly
    have hcleaning := horderly.cleaning hrunning.left hrunning.right.left hrunning.right.right
    rw [(holds_of_cleaning hcleaning).mpr ⟨hrunning.left, hrunning.right.left⟩]
    have hnext : ({ connection with cleanup := cleanup } : Connection).handler = .shielded ∨
        ({ connection with cleanup := cleanup } : Connection).handler = .unshielded := hcleaning
    exact (holds_of_cleaning hnext).mpr ⟨habsent, hdone⟩
  case orderly =>
    intro horderly
    unfold Orderly
    rcases horderly.cleaning hrunning.left hrunning.right.left hrunning.right.right with h | h
    · rw [h]
      exact habsent
    · rw [h]
      exact habsent
  case cancelled => exact fun _ => Or.inr hearly

theorem handler_move {handler : HandlerTask}
    (hold : connection.handler = .shielded ∨ connection.handler = .unshielded)
    (hnext : handler = .unshielded ∨
      handler = .ended ∧ (connection.cleanup = .done ∨ connection.cleanup = .cancelled)) :
    connection.Move { connection with handler := handler } := by
  constructor
  case ip => rfl
  case holds =>
    intro _
    rcases hnext with hnext | ⟨hnext, hcleanup⟩
    · have hcleaning : ({ connection with handler := handler } : Connection).handler = .shielded ∨
          ({ connection with handler := handler } : Connection).handler = .unshielded :=
        Or.inr hnext
      rw [Bool.eq_iff_iff, holds_of_cleaning hold]
      exact holds_of_cleaning hcleaning
    · unfold holds
      rcases hcleanup with hcleanup | hcleanup
      · rcases hold with hold | hold
        · rw [hnext, hcleanup, hold]
        · rw [hnext, hcleanup, hold]
      · rcases hold with hold | hold
        · rw [hnext, hcleanup, hold]
        · rw [hnext, hcleanup, hold]
  case orderly =>
    intro horderly
    have habsent : connection.cleanup ≠ .absent := by
      unfold Orderly at horderly
      rcases hold with hold | hold
      · rw [hold] at horderly
        exact horderly
      · rw [hold] at horderly
        exact horderly
    unfold Orderly
    rcases hnext with hnext | ⟨hnext, hcleanup⟩
    · rw [hnext]
      exact habsent
    · rw [hnext]
      exact Or.inr hcleanup
  case cancelled => exact fun hcancelled => Or.inl hcancelled

theorem refused_move {code : Nat} (h : connection.handler = .refused code) :
    connection.Move { connection with handler := .ended } := by
  constructor
  case ip => rfl
  case holds =>
    intro horderly
    unfold Orderly at horderly
    rw [h] at horderly
    unfold holds
    rw [h, show connection.cleanup = .absent from horderly]
  case orderly =>
    intro horderly
    unfold Orderly at horderly
    rw [h] at horderly
    exact Or.inl horderly
  case cancelled => exact fun hcancelled => Or.inl hcancelled

end Connection

namespace WebSocketManager

variable {config : WebSocketConfig}

/-- The turn cancels no clean-up early, directly or through a handler without its
shield. -/
def harmless (turn : Turn payload) (manager : WebSocketManager payload) : Bool :=
  match turn with
  | .handlerCancelled id =>
      match manager.connections.get? id with
      | none => true
      | some connection => !(decide (connection.handler = .unshielded) && connection.early)
  | .cleanupCancelled id =>
      match manager.connections.get? id with
      | none => true
      | some connection => !connection.early
  | _ => true

/-- Every turn of a run is harmless where it happens. -/
def harmlessRun (config : WebSocketConfig) : List (Turn payload) -> WebSocketManager payload -> Bool
  | [], _ => true
  | turn :: rest, manager =>
      harmless turn manager && harmlessRun config rest (perform config turn manager).2

/-- The counters, the admitted handlers and the tasks are untouched. -/
structure SameSlots (before after : WebSocketManager payload) : Prop where
  totalReserved : after.totalReserved = before.totalReserved
  ipCounts : after.ipCounts = before.ipCounts
  handlers : after.handlers = before.handlers
  connections : after.connections = before.connections

/-- What a turn can do to the slots. -/
inductive Effect (config : WebSocketConfig) (turn : Turn payload)
    (before : WebSocketManager payload) : WebSocketManager payload -> Prop
  | same {after} : SameSlots before after -> Effect config turn before after
  | refused {after} (id : Nat) (ip : Str) (code : Nat) :
      id ∉ before.connections.keys ->
      SameSlots (before.addConnection id ip (.refused code)) after ->
        Effect config turn before after
  | admitted {after} (id : Nat) (ip : Str) :
      id ∉ before.connections.keys -> before.rejectCode config ip = none ->
      SameSlots ((before.reserve id ip).addConnection id ip .accepting) after ->
        Effect config turn before after
  | moved {after} (id : Nat) (connection next : Connection) :
      before.connections.get? id = some connection -> connection.Move next ->
      (harmless turn before = true -> connection.cleanup ≠ .cancelled ->
        next.cleanup ≠ .cancelled) ->
      SameSlots (before.setConnection id next) after -> Effect config turn before after
  | released {after} (id : Nat) (connection : Connection) (code : Nat) :
      before.connections.get? id = some connection -> connection.cleanup = .closing code ->
      SameSlots (before.finishCleanup id connection) after -> Effect config turn before after

theorem SameSlots.refl (manager : WebSocketManager payload) : SameSlots manager manager :=
  { totalReserved := rfl
    ipCounts := rfl
    handlers := rfl
    connections := rfl }

theorem SameSlots.setConnection {before after : WebSocketManager payload}
    (h : SameSlots before after) (id : Nat) (connection : Connection) :
    SameSlots (before.setConnection id connection) (after.setConnection id connection) :=
  { totalReserved := h.totalReserved
    ipCounts := h.ipCounts
    handlers := h.handlers
    connections := congrArg (fun connections : Dict Nat Connection =>
      connections.modify id (fun _ => connection)) h.connections }

/-!
## What a turn does
-/

section Effects

variable {turn : Turn payload} {before manager : WebSocketManager payload} {id : Nat}
  {connection : Connection}

theorem Effect.handler {handler : HandlerTask}
    (hget : before.connections.get? id = some connection)
    (hmove : connection.Move { connection with handler := handler })
    (hslots : SameSlots (before.setConnection id { connection with handler := handler }) manager) :
    Effect config turn before manager :=
  Effect.moved id connection _ hget hmove (fun _ hcleanup => hcleanup) hslots

theorem Effect.leave (hget : before.connections.get? id = some connection)
    (hinside : connection.Inside) (hslots : SameSlots (before.leave id connection) manager) :
    Effect config turn before manager :=
  Effect.moved id connection _ hget hinside.leave (fun _ _ => CleanupTask.noConfusion) hslots

theorem Effect.serveOn {middle : WebSocketManager payload}
    (hget : before.connections.get? id = some connection) (hinside : connection.Inside)
    (hmiddle : SameSlots before middle) :
    Effect config turn before (middle.serveOn id connection) := by
  unfold WebSocketManager.serveOn
  split
  · exact Effect.handler hget (hinside.move (Or.inr (Or.inr rfl))) (hmiddle.setConnection id _)
  · exact Effect.leave hget hinside (hmiddle.setConnection id _)

theorem modifyClient_slots (manager : WebSocketManager payload) (id : Nat)
    (f : ClientSession payload -> ClientSession payload) :
    SameSlots manager (manager.modifyClient id f) :=
  { totalReserved := rfl
    ipCounts := rfl
    handlers := rfl
    connections := rfl }

theorem atPlace_effect {place : HandlerTask} {next : Connection -> WebSocketManager payload}
    (hnext : forall connection, before.connections.get? id = some connection ->
      connection.handler = place -> Effect config turn before (next connection)) :
    Effect config turn before (before.atPlace id place next) := by
  unfold atPlace
  cases hget : before.connections.get? id with
  | none => exact Effect.same (SameSlots.refl before)
  | some connection =>
      by_cases hplace : connection.handler = place
      · dsimp only
        rw [if_pos hplace]
        exact hnext connection hget hplace
      · dsimp only
        rw [if_neg hplace]
        exact Effect.same (SameSlots.refl before)

theorem connect_effect (host : Option Str) (originAllowed : Bool) :
    Effect config turn before (before.connect config id host originAllowed) := by
  unfold connect
  dsimp only
  split
  · exact Effect.same (SameSlots.refl before)
  next hfresh =>
    split
    · exact Effect.refused id _ _ hfresh (SameSlots.refl _)
    · split
      · exact Effect.refused id _ _ hfresh (SameSlots.refl _)
      next hcode => exact Effect.admitted id _ hfresh hcode (SameSlots.refl _)

theorem refusedClosed_effect : Effect config turn before (before.refusedClosed id) := by
  unfold refusedClosed
  split
  next ip code cleanup hget =>
    exact Effect.handler hget (Connection.refused_move rfl) (SameSlots.refl _)
  · exact Effect.same (SameSlots.refl before)

theorem accepted_effect (success : Bool) :
    Effect config turn before (before.accepted id success) := by
  apply atPlace_effect
  intro connection hget hplace
  have hinside : connection.Inside := Or.inl hplace
  split
  · exact Effect.handler hget (hinside.move (Or.inr (Or.inl rfl))) (SameSlots.refl _)
  · exact Effect.leave hget hinside (SameSlots.refl _)

theorem statusAnswered_effect (answer : Option payload) :
    Effect config turn before (before.statusAnswered id answer) := by
  apply atPlace_effect
  intro connection hget hplace
  have hinside : connection.Inside := Or.inr (Or.inl hplace)
  cases answer with
  | none => exact Effect.leave hget hinside (SameSlots.refl _)
  | some status =>
      apply Effect.serveOn hget hinside
      exact
        { totalReserved := rfl
          ipCounts := rfl
          handlers := rfl
          connections := rfl }

theorem leaveWith_effect (hget : before.connections.get? id = some connection)
    (hinside : connection.Inside) (code : Nat) :
    Effect config turn before (before.leaveWith id connection code) :=
  Effect.leave hget hinside
    { totalReserved := rfl
      ipCounts := rfl
      handlers := rfl
      connections := rfl }

theorem received_effect (input : Received) :
    Effect config turn before (before.received config id input) := by
  apply atPlace_effect
  intro connection hget hplace
  have hinside : connection.Inside := Or.inr (Or.inr hplace)
  have hleave : Effect config turn before (before.leave id connection) :=
    Effect.leave hget hinside (SameSlots.refl _)
  have hserve : Effect config turn before (before.serveOn id connection) :=
    Effect.serveOn hget hinside (SameSlots.refl before)
  cases hclient : before.clients.get? id with
  | none => exact Effect.same (SameSlots.refl before)
  | some session =>
      dsimp only
      split
      · exact hleave
      · cases input with
        | timeout idle =>
            dsimp only
            split
            · exact leaveWith_effect hget hinside _
            · exact hserve
        | disconnect => exact hleave
        | failure => exact hleave
        | other => exact hserve
        | bytes => exact leaveWith_effect hget hinside _
        | text message =>
            dsimp only
            split
            · exact leaveWith_effect hget hinside _
            · split
              · unfold pong
                rw [hclient]
                dsimp only
                split
                · exact Effect.serveOn hget hinside (modifyClient_slots before id _)
                · exact leaveWith_effect hget hinside _
              · exact hserve

theorem beginClosing_effect (hget : before.connections.get? id = some connection)
    (hearly : connection.early = true) :
    Effect config turn before (before.beginClosing id connection) :=
  Effect.moved id connection _ hget
    (Connection.cleanup_move hearly CleanupTask.noConfusion CleanupTask.noConfusion)
    (fun _ _ => CleanupTask.noConfusion) (SameSlots.refl _)

theorem cleanupResumes_effect : Effect config turn before (before.cleanupResumes id) := by
  unfold cleanupResumes
  cases hget : before.connections.get? id with
  | none => exact Effect.same (SameSlots.refl before)
  | some connection =>
      dsimp only
      have hearly : connection.cleanup = .created ∨ connection.cleanup = .awaitingWriter ->
          connection.early = true := by
        intro h
        unfold Connection.early
        rw [Bool.or_eq_true, decide_eq_true_iff, decide_eq_true_iff]
        exact h
      cases hcleanup : connection.cleanup with
      | absent => exact Effect.same (SameSlots.refl before)
      | created =>
          cases hclient : before.clients.get? id with
          | none => exact beginClosing_effect hget (hearly (Or.inl hcleanup))
          | some session =>
              apply Effect.moved id connection { connection with cleanup := .awaitingWriter } hget
                (Connection.cleanup_move (hearly (Or.inl hcleanup)) CleanupTask.noConfusion
                  CleanupTask.noConfusion) (fun _ _ => CleanupTask.noConfusion)
              exact
                { totalReserved := rfl
                  ipCounts := rfl
                  handlers := rfl
                  connections := rfl }
      | awaitingWriter => exact beginClosing_effect hget (hearly (Or.inr hcleanup))
      | closing code => exact Effect.released id connection code hget hcleanup (SameSlots.refl _)
      | done => exact Effect.same (SameSlots.refl before)
      | cancelled => exact Effect.same (SameSlots.refl before)

theorem cleanupCancelled_effect
    (hharm : forall connection, before.connections.get? id = some connection ->
      connection.early = true -> harmless turn before = false) :
    Effect config turn before (before.cleanupCancelled id) := by
  unfold cleanupCancelled
  cases hget : before.connections.get? id with
  | none => exact Effect.same (SameSlots.refl before)
  | some connection =>
      dsimp only
      have hcancel : connection.cleanup = .created ∨ connection.cleanup = .awaitingWriter ->
          Effect config turn before
            (before.setConnection id { connection with cleanup := .cancelled }) := by
        intro h
        have hearly : connection.early = true := by
          unfold Connection.early
          rw [Bool.or_eq_true, decide_eq_true_iff, decide_eq_true_iff]
          exact h
        apply Effect.moved id connection _ hget
          (Connection.cleanup_move hearly CleanupTask.noConfusion CleanupTask.noConfusion) ?_
          (SameSlots.refl _)
        intro hharmless
        rw [hharm connection hget hearly] at hharmless
        cases hharmless
      cases hcleanup : connection.cleanup with
      | absent => exact Effect.same (SameSlots.refl before)
      | created => exact hcancel (Or.inl hcleanup)
      | awaitingWriter => exact hcancel (Or.inr hcleanup)
      | closing code => exact Effect.released id connection code hget hcleanup (SameSlots.refl _)
      | done => exact Effect.same (SameSlots.refl before)
      | cancelled => exact Effect.same (SameSlots.refl before)

theorem handlerResumes_effect : Effect config turn before (before.handlerResumes id) := by
  unfold handlerResumes
  cases hget : before.connections.get? id with
  | none => exact Effect.same (SameSlots.refl before)
  | some connection =>
      dsimp only
      split
      next h =>
        exact Effect.handler hget (Connection.handler_move h.left (Or.inr ⟨rfl, h.right⟩))
          (SameSlots.refl _)
      · exact Effect.same (SameSlots.refl before)

theorem handlerCancelled_effect :
    Effect config (.handlerCancelled id) before (before.handlerCancelled id) := by
  unfold handlerCancelled
  cases hget : before.connections.get? id with
  | none => exact Effect.same (SameSlots.refl before)
  | some connection =>
      dsimp only
      cases hhandler : connection.handler with
      | refused code =>
          exact Effect.handler hget (Connection.refused_move hhandler) (SameSlots.refl _)
      | accepting => exact Effect.leave hget (Or.inl hhandler) (SameSlots.refl _)
      | awaitingStatus => exact Effect.leave hget (Or.inr (Or.inl hhandler)) (SameSlots.refl _)
      | serving => exact Effect.leave hget (Or.inr (Or.inr hhandler)) (SameSlots.refl _)
      | shielded =>
          exact Effect.handler hget (Connection.handler_move (Or.inl hhandler) (Or.inl rfl))
            (SameSlots.refl _)
      | unshielded =>
          apply cleanupCancelled_effect
          intro found hfound hearly
          rw [hget] at hfound
          rw [← Option.some.inj hfound] at hearly
          unfold harmless
          dsimp only
          rw [hget]
          dsimp only
          rw [hhandler, hearly]
          rfl
      | ended => exact Effect.same (SameSlots.refl before)

theorem offerAll_slots (message : Event payload) (ids : List Nat)
    (manager : WebSocketManager payload) :
    SameSlots manager (offerAll config message ids manager).2 := by
  induction ids generalizing manager with
  | nil => exact SameSlots.refl manager
  | cons id rest ih =>
      unfold offerAll
      cases hclient : manager.clients.get? id with
      | none => exact ih manager
      | some session =>
          dsimp only
          rcases session.offer config.wsClientQueueSize message with ⟨raised, next⟩
          cases raised with
          | some e => exact modifyClient_slots manager id _
          | none =>
              have hrest := ih (manager.modifyClient id (fun _ => next))
              exact
                { totalReserved := hrest.totalReserved
                  ipCounts := hrest.ipCounts
                  handlers := hrest.handlers
                  connections := hrest.connections }

theorem perform_effect (config : WebSocketConfig) (turn : Turn payload)
    (before : WebSocketManager payload) :
    Effect config turn before (perform config turn before).2 := by
  cases turn with
  | start => exact Effect.same ⟨rfl, rfl, rfl, rfl⟩
  | stop => exact Effect.same ⟨rfl, rfl, rfl, rfl⟩
  | connect id host originAllowed => exact connect_effect host originAllowed
  | refusedClosed id => exact refusedClosed_effect
  | accepted id success => exact accepted_effect success
  | statusAnswered id answer => exact statusAnswered_effect answer
  | received id input => exact received_effect input
  | writerTakes id => exact Effect.same (modifyClient_slots before id _)
  | writerFails id => exact Effect.same (modifyClient_slots before id _)
  | cleanupResumes id => exact cleanupResumes_effect
  | cleanupCancelled id =>
      apply cleanupCancelled_effect
      intro connection hget hearly
      unfold harmless
      dsimp only
      rw [hget]
      dsimp only
      rw [hearly]
      rfl
  | handlerResumes id => exact handlerResumes_effect
  | handlerCancelled id => exact handlerCancelled_effect
  | broadcast message => exact Effect.same (offerAll_slots message _ before)

end Effects

/-!
## Counting
-/

/-- The IPs of the handlers that have a slot. -/
def holding (connections : Dict Nat Connection) : List Str :=
  (connections.values.filter Connection.holds).map Connection.ip

section Holding

variable {connections : Dict Nat Connection} {id : Nat} {connection next : Connection}

theorem holding_of_same (hget : connections.get? id = some connection)
    (hip : next.ip = connection.ip) (hholds : next.holds = connection.holds) :
    holding (connections.modify id (fun _ => next)) = holding connections := by
  rcases Dict.values_modify_split hget with ⟨front, back, hvalues, hmodify⟩
  unfold holding
  rw [hmodify, hvalues, List.filter_append, List.filter_append, List.map_append, List.map_append]
  cases hold : connection.holds with
  | false =>
      rw [hold] at hholds
      rw [List.filter_cons_of_neg (by rw [hholds]; exact Bool.false_ne_true),
        List.filter_cons_of_neg (by rw [hold]; exact Bool.false_ne_true)]
  | true =>
      rw [hold] at hholds
      rw [List.filter_cons_of_pos hholds, List.filter_cons_of_pos hold, List.map_cons,
        List.map_cons, hip]

theorem holding_of_released (hget : connections.get? id = some connection)
    (hholds : connection.holds = true) (hnext : next.holds = false) :
    exists front back, holding connections = front ++ connection.ip :: back ∧
      holding (connections.modify id (fun _ => next)) = front ++ back := by
  rcases Dict.values_modify_split hget with ⟨front, back, hvalues, hmodify⟩
  refine ⟨(front.filter Connection.holds).map Connection.ip,
    (back.filter Connection.holds).map Connection.ip, ?_, ?_⟩
  · unfold holding
    rw [hvalues, List.filter_append, List.map_append, List.filter_cons_of_pos hholds,
      List.map_cons]
  · unfold holding
    rw [hmodify, List.filter_append, List.map_append,
      List.filter_cons_of_neg (by rw [hnext]; exact Bool.false_ne_true)]

theorem holding_of_fresh (hfresh : id ∉ connections.keys) :
    holding (connections.set id next) =
      holding connections ++ (if next.holds then [next.ip] else []) := by
  unfold holding Dict.values
  rw [Dict.items_set_of_not_mem next hfresh, List.map_append, List.filter_append,
    List.map_append, List.map_singleton]
  cases hnext : next.holds with
  | false => rw [List.filter_cons_of_neg (by rw [hnext]; exact Bool.false_ne_true)]; rfl
  | true => rw [List.filter_cons_of_pos hnext]; rfl

end Holding

/-- The counters for the IPs that hold slots: exact and within their limits. -/
structure Counted (config : WebSocketConfig) (held : List Str) (totalReserved : Int)
    (ipCounts : Dict Str Int) : Prop where
  total : totalReserved = held.length
  perIp : forall ip, ipCounts.get? ip =
    if held.count ip = 0 then none else some ((held.count ip : Nat) : Int)
  maxTotal : held.length ≤ config.wsMaxClients
  maxPerIp : forall ip, held.count ip ≤ config.wsMaxClientsPerIp

section Counts

variable {held front back : List Str} {totalReserved : Int} {ipCounts : Dict Str Int}

theorem Counted.getD (h : Counted config held totalReserved ipCounts) (ip : Str) :
    (ipCounts.get? ip).getD 0 = ((held.count ip : Nat) : Int) := by
  rw [h.perIp ip]
  by_cases hzero : held.count ip = 0
  · rw [if_pos hzero, hzero]
    rfl
  · rw [if_neg hzero]
    rfl

theorem Counted.reserve (h : Counted config held totalReserved ipCounts) (ip : Str)
    (htotal : totalReserved < config.wsMaxClients)
    (hip : (ipCounts.get? ip).getD 0 < config.wsMaxClientsPerIp) :
    Counted config (held ++ [ip]) (totalReserved + 1)
      (ipCounts.set ip ((ipCounts.get? ip).getD 0 + 1)) := by
  rw [h.total] at htotal ⊢
  rw [h.getD] at hip ⊢
  have hcount : forall other, (held ++ [ip]).count other =
      if other = ip then held.count ip + 1 else held.count other := by
    intro other
    rw [List.count_append, List.count_singleton]
    by_cases hother : other = ip
    · rw [if_pos hother, hother, if_pos (beq_self_eq_true ip)]
    · have hbeq : (ip == other) = false := beq_eq_false_iff_ne.mpr (fun heq => hother heq.symm)
      rw [if_neg hother, hbeq, if_neg Bool.false_ne_true, Nat.add_zero]
  constructor
  case total =>
    rw [List.length_append, List.length_singleton]
    push_cast
    rfl
  case perIp =>
    intro other
    rw [hcount, Dict.get?_set]
    by_cases hother : other = ip
    · rw [if_pos hother, if_pos hother, if_neg (Nat.succ_ne_zero _)]
      push_cast
      rfl
    · rw [if_neg hother, if_neg hother]
      exact h.perIp other
  case maxTotal =>
    rw [List.length_append, List.length_singleton]
    exact_mod_cast htotal
  case maxPerIp =>
    intro other
    rw [hcount]
    by_cases hother : other = ip
    · rw [if_pos hother]
      exact_mod_cast hip
    · rw [if_neg hother]
      exact h.maxPerIp other

theorem Counted.release {ip : Str}
    (h : Counted config (front ++ ip :: back) totalReserved ipCounts) :
    Counted config (front ++ back) (totalReserved - 1)
      (if (ipCounts.get? ip).getD 0 - 1 = 0 then ipCounts.erase ip
        else ipCounts.set ip ((ipCounts.get? ip).getD 0 - 1)) := by
  have hcount : forall other, (front ++ ip :: back).count other =
      (front ++ back).count other + if other = ip then 1 else 0 := by
    intro other
    rw [List.count_append, List.count_append, List.count_cons]
    by_cases hother : other = ip
    · rw [if_pos hother, hother, if_pos (beq_self_eq_true ip)]
      omega
    · have hbeq : (ip == other) = false := beq_eq_false_iff_ne.mpr (fun heq => hother heq.symm)
      rw [if_neg hother, hbeq, if_neg Bool.false_ne_true]
      omega
  have hone : (ipCounts.get? ip).getD 0 - 1 = (((front ++ back).count ip : Nat) : Int) := by
    rw [h.getD, hcount, if_pos rfl]
    push_cast
    omega
  rw [hone]
  constructor
  case total =>
    rw [h.total, List.length_append, List.length_append, List.length_cons]
    push_cast
    omega
  case perIp =>
    intro other
    have hbefore := h.perIp other
    rw [hcount] at hbefore
    by_cases hzero : (front ++ back).count ip = 0
    · rw [if_pos (by exact_mod_cast hzero), Dict.get?_erase]
      by_cases hother : other = ip
      · rw [if_pos hother, hother, if_pos hzero]
      · rw [if_neg hother, hbefore, if_neg hother, Nat.add_zero]
    · rw [if_neg (by exact_mod_cast hzero), Dict.get?_set]
      by_cases hother : other = ip
      · rw [if_pos hother, hother, if_neg hzero]
      · rw [if_neg hother, hbefore, if_neg hother, Nat.add_zero]
  case maxTotal =>
    have hmax := h.maxTotal
    rw [List.length_append, List.length_cons] at hmax
    rw [List.length_append]
    omega
  case maxPerIp =>
    intro other
    have hmax := h.maxPerIp other
    rw [hcount] at hmax
    exact le_trans (Nat.le_add_right _ _) hmax

end Counts

/-- The counters are exact, and every task is in order. -/
structure Accounted (config : WebSocketConfig) (manager : WebSocketManager payload) : Prop where
  orderly : forall id connection, manager.connections.get? id = some connection ->
    connection.Orderly
  registered : forall id, id ∈ manager.handlers <->
    exists connection, manager.connections.get? id = some connection ∧ connection.holds = true
  counted : Counted config (holding manager.connections) manager.totalReserved manager.ipCounts

section Accounts

variable {before after : WebSocketManager payload} {id : Nat} {connection next : Connection}

theorem Accounted.new : Accounted config (new : WebSocketManager payload) := by
  constructor
  case orderly =>
    intro id connection hget
    cases hget
  case registered =>
    intro id
    constructor
    · intro hid
      cases hid
    · rintro ⟨connection, hget, _⟩
      cases hget
  case counted =>
    exact
      { total := rfl
        perIp := fun _ => rfl
        maxTotal := Nat.zero_le _
        maxPerIp := fun _ => Nat.zero_le _ }

theorem Accounted.same (h : Accounted config before) (hsame : SameSlots before after) :
    Accounted config after := by
  constructor
  case orderly =>
    rw [hsame.connections]
    exact h.orderly
  case registered =>
    rw [hsame.connections, hsame.handlers]
    exact h.registered
  case counted =>
    rw [hsame.connections, hsame.totalReserved, hsame.ipCounts]
    exact h.counted

theorem orderly_of_get? (h : Accounted config before) {connections : Dict Nat Connection}
    (hget : forall other, connections.get? other =
      if other = id then some next else before.connections.get? other)
    (hnext : next.Orderly) :
    forall other found, connections.get? other = some found -> found.Orderly := by
  intro other found hfound
  rw [hget] at hfound
  by_cases hother : other = id
  · rw [if_pos hother] at hfound
    rw [← Option.some.inj hfound]
    exact hnext
  · rw [if_neg hother] at hfound
    exact h.orderly other found hfound

theorem registered_of_get? (h : Accounted config before) {connections : Dict Nat Connection}
    {handlers : List Nat}
    (hget : forall other, connections.get? other =
      if other = id then some next else before.connections.get? other)
    (hhandlers : forall other, other ∈ handlers <->
      if other = id then next.holds = true else other ∈ before.handlers) (other : Nat) :
    other ∈ handlers <->
      exists found, connections.get? other = some found ∧ found.holds = true := by
  rw [hhandlers, hget]
  by_cases hother : other = id
  · rw [if_pos hother, if_pos hother]
    constructor
    · intro hholds
      exact ⟨next, rfl, hholds⟩
    · rintro ⟨found, hfound, hholds⟩
      rw [Option.some.inj hfound]
      exact hholds
  · rw [if_neg hother, if_neg hother]
    exact h.registered other

theorem Accounted.not_registered (h : Accounted config before)
    (hfresh : id ∉ before.connections.keys) : id ∉ before.handlers := by
  intro hid
  rcases (h.registered id).mp hid with ⟨connection, hget, _⟩
  exact hfresh (Dict.mem_keys_of_get? hget)

theorem Accounted.refused (h : Accounted config before) (ip : Str) (code : Nat)
    (hfresh : id ∉ before.connections.keys) :
    Accounted config (before.addConnection id ip (.refused code)) := by
  have hget := Dict.get?_set before.connections id
    { ip := ip, handler := .refused code, cleanup := .absent }
  constructor
  case orderly => exact orderly_of_get? h hget rfl
  case registered =>
    apply registered_of_get? h hget
    intro other
    by_cases hother : other = id
    · rw [if_pos hother, hother]
      exact ⟨fun hid => absurd hid (h.not_registered hfresh), fun hholds => by cases hholds⟩
    · rw [if_neg hother]
      exact Iff.rfl
  case counted =>
    have hholding : holding (before.addConnection id ip (.refused code)).connections =
        holding before.connections := by
      unfold addConnection
      rw [holding_of_fresh hfresh]
      exact List.append_nil _
    rw [hholding]
    exact h.counted

theorem rejectCode_none {ip : Str} (h : before.rejectCode config ip = none) :
    before.totalReserved < config.wsMaxClients ∧
      (before.ipCounts.get? ip).getD 0 < config.wsMaxClientsPerIp := by
  unfold rejectCode at h
  split at h
  · cases h
  next htotal =>
    split at h
    · cases h
    next hip => exact ⟨Int.not_le.mp (fun hle => htotal (Or.inr hle)), Int.not_le.mp hip⟩

theorem Accounted.admitted (h : Accounted config before) (ip : Str)
    (hfresh : id ∉ before.connections.keys) (hcode : before.rejectCode config ip = none) :
    Accounted config ((before.reserve id ip).addConnection id ip .accepting) := by
  have hget := Dict.get?_set before.connections id
    { ip := ip, handler := .accepting, cleanup := .absent }
  rcases rejectCode_none hcode with ⟨htotal, hip⟩
  constructor
  case orderly => exact orderly_of_get? h hget rfl
  case registered =>
    apply registered_of_get? h hget
    intro other
    show other ∈ before.handlers ++ [id] <-> _
    rw [List.mem_append, List.mem_singleton]
    by_cases hother : other = id
    · rw [if_pos hother]
      exact ⟨fun _ => rfl, fun _ => Or.inr hother⟩
    · rw [if_neg hother]
      exact ⟨fun hold => hold.resolve_right hother, Or.inl⟩
  case counted =>
    have hholding : holding ((before.reserve id ip).addConnection id ip .accepting).connections =
        holding before.connections ++ [ip] := holding_of_fresh hfresh
    rw [hholding]
    exact h.counted.reserve ip htotal hip

theorem get?_setConnection (hget : before.connections.get? id = some connection) (other : Nat) :
    (before.setConnection id next).connections.get? other =
      if other = id then some next else before.connections.get? other := by
  unfold setConnection
  rw [Dict.get?_modify]
  by_cases hother : other = id
  · rw [if_pos hother, if_pos hother, hother, hget]
    rfl
  · rw [if_neg hother, if_neg hother]

theorem Accounted.registered_iff (h : Accounted config before)
    (hget : before.connections.get? id = some connection) :
    id ∈ before.handlers <-> connection.holds = true := by
  rw [h.registered, hget]
  constructor
  · rintro ⟨found, hfound, hholds⟩
    rw [Option.some.inj hfound]
    exact hholds
  · intro hholds
    exact ⟨connection, rfl, hholds⟩

theorem Accounted.moved (h : Accounted config before)
    (hget : before.connections.get? id = some connection) (hmove : connection.Move next) :
    Accounted config (before.setConnection id next) := by
  have horderly := h.orderly id connection hget
  constructor
  case orderly => exact orderly_of_get? h (get?_setConnection hget) (hmove.orderly horderly)
  case registered =>
    apply registered_of_get? h (get?_setConnection hget)
    intro other
    by_cases hother : other = id
    · rw [if_pos hother, hother, hmove.holds horderly]
      exact h.registered_iff hget
    · rw [if_neg hother]
      exact Iff.rfl
  case counted =>
    have hholding : holding (before.setConnection id next).connections =
        holding before.connections := holding_of_same hget hmove.ip (hmove.holds horderly)
    rw [hholding]
    exact h.counted

theorem Accounted.released {code : Nat} (h : Accounted config before)
    (hget : before.connections.get? id = some connection)
    (hcleanup : connection.cleanup = .closing code) :
    Accounted config (before.finishCleanup id connection) := by
  have horderly := h.orderly id connection hget
  have hcleaning : connection.handler = .shielded ∨ connection.handler = .unshielded := by
    apply horderly.cleaning
    · rw [hcleanup]
      exact CleanupTask.noConfusion
    · rw [hcleanup]
      exact CleanupTask.noConfusion
    · rw [hcleanup]
      exact CleanupTask.noConfusion
  have hholds : connection.holds = true := by
    apply (Connection.holds_of_cleaning hcleaning).mpr
    rw [hcleanup]
    exact ⟨CleanupTask.noConfusion, CleanupTask.noConfusion⟩
  have hnext : ({ connection with cleanup := .done } : Connection).holds = false := by
    unfold Connection.holds
    rcases hcleaning with hhandler | hhandler
    · rw [hhandler]
    · rw [hhandler]
  have hreleased : before.finishCleanup id connection =
      { before with
        clients := before.clients.erase id
        handlers := before.handlers.filter (fun other => decide (other ≠ id))
        totalReserved := before.totalReserved - 1
        ipCounts :=
          if (before.ipCounts.get? connection.ip).getD 0 - 1 = 0 then
            before.ipCounts.erase connection.ip
          else before.ipCounts.set connection.ip
            ((before.ipCounts.get? connection.ip).getD 0 - 1)
        connections := before.connections.modify id
          (fun _ => { connection with cleanup := .done }) } := by
    unfold finishCleanup release
    dsimp only
    rw [if_pos ((h.registered_iff hget).mpr hholds)]
    rfl
  rw [hreleased]
  constructor
  case orderly =>
    apply orderly_of_get? h (get?_setConnection hget)
    unfold Connection.Orderly
    rcases hcleaning with hhandler | hhandler
    · rw [hhandler]
      exact CleanupTask.noConfusion
    · rw [hhandler]
      exact CleanupTask.noConfusion
  case registered =>
    apply registered_of_get? h (get?_setConnection hget)
    intro other
    rw [List.mem_filter, decide_eq_true_iff]
    by_cases hother : other = id
    · rw [if_pos hother, hnext]
      exact ⟨fun hboth => absurd hother hboth.right, fun hfalse => absurd hfalse Bool.false_ne_true⟩
    · rw [if_neg hother]
      exact ⟨fun hboth => hboth.left, fun hmem => ⟨hmem, hother⟩⟩
  case counted =>
    rcases holding_of_released hget hholds hnext with ⟨front, back, hbefore, hafter⟩
    have hcounted := h.counted
    rw [hbefore] at hcounted
    dsimp only
    rw [hafter]
    exact hcounted.release

theorem Accounted.perform (h : Accounted config before) (turn : Turn payload) :
    Accounted config (perform config turn before).2 := by
  rcases perform_effect config turn before with
    hsame | ⟨id, ip, code, hfresh, hsame⟩ | ⟨id, ip, hfresh, hcode, hsame⟩ |
    ⟨id, connection, next, hget, hmove, _, hsame⟩ | ⟨id, connection, code, hget, hcleanup, hsame⟩
  · exact h.same hsame
  · exact (h.refused ip code hfresh).same hsame
  · exact (h.admitted ip hfresh hcode).same hsame
  · exact (h.moved hget hmove).same hsame
  · exact (h.released hget hcleanup).same hsame

theorem accounted_after (config : WebSocketConfig) (turns : List (Turn payload)) :
    Accounted config (WebSocketManager.after config turns) :=
  (machine config).run_invariant
    (fun turn (manager : WebSocketManager payload) (h : Accounted config manager) =>
      h.perform turn) turns WebSocketManager.new Accounted.new

/-!
## Harmless runs
-/

/-- No clean-up was cancelled before its last section. -/
def Unharmed (manager : WebSocketManager payload) : Prop :=
  forall id connection, manager.connections.get? id = some connection ->
    connection.cleanup ≠ .cancelled

theorem Unharmed.of_get? (h : Unharmed before) (id : Nat) (next : Connection)
    (hget : forall other, after.connections.get? other =
      if other = id then some next else before.connections.get? other)
    (hnext : next.cleanup ≠ .cancelled) : Unharmed after := by
  intro other found hfound
  rw [hget] at hfound
  by_cases hother : other = id
  · rw [if_pos hother] at hfound
    rw [← Option.some.inj hfound]
    exact hnext
  · rw [if_neg hother] at hfound
    exact h other found hfound

theorem Unharmed.perform {turn : Turn payload} (h : Unharmed before)
    (hharmless : harmless turn before = true) : Unharmed (perform config turn before).2 := by
  rcases perform_effect config turn before with
    hsame | ⟨id, ip, code, _, hsame⟩ | ⟨id, ip, _, _, hsame⟩ |
    ⟨id, connection, next, hget, _, hcancel, hsame⟩ | ⟨id, connection, code, hget, _, hsame⟩
  · intro id connection hget
    rw [hsame.connections] at hget
    exact h id connection hget
  · refine h.of_get? id { ip := ip, handler := .refused code, cleanup := .absent } ?_
      CleanupTask.noConfusion
    intro other
    rw [hsame.connections]
    exact Dict.get?_set before.connections id _ other
  · refine h.of_get? id { ip := ip, handler := .accepting, cleanup := .absent } ?_
      CleanupTask.noConfusion
    intro other
    rw [hsame.connections]
    exact Dict.get?_set before.connections id _ other
  · refine h.of_get? id next ?_ (hcancel hharmless (h id connection hget))
    intro other
    rw [hsame.connections]
    exact get?_setConnection hget other
  · refine h.of_get? id { connection with cleanup := .done } ?_ CleanupTask.noConfusion
    intro other
    rw [hsame.connections]
    have hconnections : (before.finishCleanup id connection).connections =
        (before.setConnection id { connection with cleanup := .done }).connections := by
      unfold finishCleanup release
      dsimp only
      split
      · rfl
      · rfl
    rw [hconnections]
    exact get?_setConnection hget other

theorem unharmed_run (turns : List (Turn payload)) {manager : WebSocketManager payload}
    (h : Unharmed manager) (hharmless : harmlessRun config turns manager = true) :
    Unharmed ((machine config).run turns manager) := by
  induction turns generalizing manager with
  | nil => exact h
  | cons turn rest ih =>
      unfold harmlessRun at hharmless
      rw [Bool.and_eq_true] at hharmless
      exact ih (h.perform hharmless.left) hharmless.right

end Accounts

/-- The slots of a manager are exact, within their limits, and all free when every
handler has ended. -/
structure SlotsExact (config : WebSocketConfig) (manager : WebSocketManager payload) :
    Prop where
  total : manager.totalReserved = (holding manager.connections).length
  perIp : forall ip, manager.ipCounts.get? ip =
    if (holding manager.connections).count ip = 0 then none
    else some (((holding manager.connections).count ip : Nat) : Int)
  entries : forall ip count, manager.ipCounts.get? ip = some count ->
    0 < count ∧ count ≤ config.wsMaxClientsPerIp
  limit : manager.totalReserved ≤ config.wsMaxClients
  ended : (forall id connection, manager.connections.get? id = some connection ->
      connection.handler = .ended) ->
    manager.totalReserved = 0 ∧ manager.ipCounts = Dict.empty

theorem Accounted.entry {manager : WebSocketManager payload} (h : Accounted config manager)
    {ip : Str} {count : Int} (hget : manager.ipCounts.get? ip = some count) :
    0 < count ∧ count ≤ config.wsMaxClientsPerIp := by
  have hmax := h.counted.maxPerIp ip
  rw [h.counted.perIp ip] at hget
  by_cases hzero : (holding manager.connections).count ip = 0
  · rw [if_pos hzero] at hget
    cases hget
  · rw [if_neg hzero] at hget
    rw [← Option.some.inj hget]
    constructor
    · exact_mod_cast Nat.pos_of_ne_zero hzero
    · exact_mod_cast hmax

theorem holding_of_ended {manager : WebSocketManager payload} (h : Accounted config manager)
    (hunharmed : Unharmed manager)
    (hended : forall id connection, manager.connections.get? id = some connection ->
      connection.handler = .ended) : holding manager.connections = [] := by
  have hnone : forall connection, connection ∈ manager.connections.values ->
      connection.holds = false := by
    intro connection hmem
    rcases List.mem_map.mp hmem with ⟨item, hitem, hvalue⟩
    have hget : manager.connections.get? item.1 = some connection := by
      rw [← hvalue]
      exact (Dict.get?_eq_some_iff _ _ _).mpr hitem
    have horderly := h.orderly item.1 connection hget
    have hhandler := hended item.1 connection hget
    unfold Connection.Orderly at horderly
    rw [hhandler] at horderly
    unfold Connection.holds
    rw [hhandler]
    rcases horderly with hcleanup | hcleanup | hcleanup
    · rw [hcleanup]
    · rw [hcleanup]
    · exact absurd hcleanup (hunharmed item.1 connection hget)
  unfold holding
  rw [List.filter_eq_nil_iff.mpr]
  · rfl
  · intro connection hmem
    rw [hnone connection hmem]
    exact Bool.false_ne_true

/-- In every state of a run that cancels no clean-up early, the counters are the handlers
that hold slots, and they are zero when all handlers have ended. -/
theorem slots_exact (config : WebSocketConfig) (turns : List (Turn payload))
    (h : harmlessRun config turns WebSocketManager.new = true) :
    SlotsExact config (after config turns) := by
  have haccounted := accounted_after config turns
  have hcounted := haccounted.counted
  have hunharmed : Unharmed (after config turns) := by
    apply unharmed_run turns _ h
    intro id connection hget
    cases hget
  constructor
  case total => exact hcounted.total
  case perIp => exact hcounted.perIp
  case entries =>
    intro ip count hget
    exact haccounted.entry hget
  case limit =>
    rw [hcounted.total]
    exact_mod_cast hcounted.maxTotal
  case ended =>
    intro hended
    have hnil := holding_of_ended haccounted hunharmed hended
    constructor
    · rw [hcounted.total, hnil]
      rfl
    · apply Dict.ext_items
      apply List.eq_nil_iff_forall_not_mem.mpr
      intro item hitem
      have hget := (Dict.get?_eq_some_iff _ item.1 item.2).mpr hitem
      rw [hcounted.perIp, hnil] at hget
      cases hget

/-- One client that connects, is served and goes away. -/
def served : List (Turn Unit) :=
  [.start, .connect 0 (some (str "10.0.0.1")) true, .accepted 0 true,
    .statusAnswered 0 (some ()), .received 0 .disconnect, .cleanupResumes 0]

/-- Two cancellations while the transport closes do no harm. -/
theorem slots_exact_served :
    SlotsExact WebSocketConfig.standard (after WebSocketConfig.standard
      (served ++ [.handlerCancelled 0, .cleanupResumes 0, .handlerCancelled 0,
        .handlerResumes 0])) :=
  slots_exact WebSocketConfig.standard _ (by decide +kernel)

/-- Two cancellations while the clean-up waits for the writer: the handler ends, and its
slot is never given back. -/
theorem slots_leak :
    ((after WebSocketConfig.standard
      (served ++ [.handlerCancelled 0, .handlerCancelled 0,
        .handlerResumes 0])).connections.values.map Connection.handler = [.ended]) ∧
    (after WebSocketConfig.standard
      (served ++ [.handlerCancelled 0, .handlerCancelled 0,
        .handlerResumes 0])).totalReserved = 1 ∧
    (after WebSocketConfig.standard
      (served ++ [.handlerCancelled 0, .handlerCancelled 0,
        .handlerResumes 0])).ipCounts.items = [(str "10.0.0.1", 1)] := by
  decide +kernel

end WebSocketManager

end Api

end PyChain
