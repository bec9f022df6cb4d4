import PyChain.Api.WebSocketManager

/-!
# Broadcasts to WebSocket clients

A broadcast offers its message to every client.  Whether it gets to the end depends
on one thing: a client whose queue is full of frames with a plain string in front
ends the loop with an exception, and the clients after it get nothing.
-/

namespace PyChain

open Foundation

namespace Api

variable {payload : Type}

namespace ClientSession

variable {capacity : Nat} {message : Event payload} {session : ClientSession payload}

/-- The queue of the client is full, and its oldest frame is a plain string. -/
def jams (capacity : Nat) (session : ClientSession payload) : Bool :=
  !session.done && decide (capacity ≤ session.queue.length) &&
    (match session.queue with
      | .text _ :: _ => true
      | _ => false)

/-- What a critical message does to a client: it is last in the queue, at the price of
one routine event at most, or the client is to be disconnected. -/
def Reached (message : Event payload) (before after : ClientSession payload) : Prop :=
  (exists kept, after.queue = kept ++ [.event message] ∧
    (kept = before.queue ∨
      exists old, old.isRoutine = true ∧ before.queue = .event old :: kept)) ∨
  (after.done = true ∧ after.closeCode = CLOSE_TRY_AGAIN_LATER)

theorem putNowait_of_room {frame : Frame payload} (h : session.queue.length < capacity) :
    session.putNowait capacity frame =
      some { session with queue := session.queue ++ [frame] } :=
  if_pos h

theorem putNowait_of_full {frame : Frame payload} (h : capacity ≤ session.queue.length) :
    session.putNowait capacity frame = none :=
  if_neg (not_lt.mpr h)

theorem putNowait_length {frame : Frame payload} {next : ClientSession payload}
    (h : session.putNowait capacity frame = some next) : next.queue.length ≤ capacity := by
  by_cases hroom : session.queue.length < capacity
  · rw [putNowait_of_room hroom] at h
    rw [← Option.some.inj h, List.length_append, List.length_singleton]
    exact hroom
  · rw [putNowait_of_full (not_lt.mp hroom)] at h
    cases h

/-!
## One client
-/

theorem offer_of_done (h : session.done = true) :
    session.offer capacity message = (none, session) :=
  if_pos h

theorem offer_of_room (hdone : session.done = false) (h : session.queue.length < capacity) :
    session.offer capacity message =
      (none, { session with queue := session.queue ++ [.event message] }) := by
  unfold offer
  rw [if_neg (by rw [hdone]; exact Bool.false_ne_true), putNowait_of_room h]

theorem offer_of_full (hdone : session.done = false) (h : capacity ≤ session.queue.length) :
    session.offer capacity message =
      if message.isRoutine then (none, session) else session.makeRoom capacity message := by
  unfold offer
  rw [if_neg (by rw [hdone]; exact Bool.false_ne_true), putNowait_of_full h]

theorem makeRoom_text {text : Str} {rest : List (Frame payload)}
    (h : session.queue = .text text :: rest) :
    session.makeRoom capacity message =
      (some { message := str "'str' object has no attribute 'get'" },
        { session with queue := rest }) := by
  unfold makeRoom
  rw [h]

theorem makeRoom_routine {old : Event payload} {rest : List (Frame payload)}
    (h : session.queue = .event old :: rest) (hold : old.isRoutine = true)
    (hbound : session.queue.length ≤ capacity) :
    session.makeRoom capacity message =
      (none, { session with queue := rest ++ [.event message] }) := by
  rw [h] at hbound
  unfold makeRoom
  rw [h]
  dsimp only
  have hroom : ({ session with queue := rest } : ClientSession payload).queue.length < capacity :=
    hbound
  rw [if_pos hold, putNowait_of_room hroom]

theorem makeRoom_critical {old : Event payload} {rest : List (Frame payload)}
    (h : session.queue = .event old :: rest) (hold : old.isRoutine = false)
    (hbound : session.queue.length ≤ capacity) :
    session.makeRoom capacity message =
      (none, ({ session with queue := rest ++ [Frame.event old] } :
        ClientSession payload).disconnectSlow) := by
  rw [h] at hbound
  unfold makeRoom
  rw [h]
  dsimp only
  have hroom : ({ session with queue := rest } : ClientSession payload).queue.length < capacity :=
    hbound
  rw [if_neg (by rw [hold]; exact Bool.false_ne_true), putNowait_of_room hroom]

/-- The message is refused by an exception exactly at a client that jams, and only a
critical one. -/
theorem offer_ok_iff (hbound : session.queue.length ≤ capacity) (hpos : 0 < capacity) :
    (session.offer capacity message).1 = none <->
      message.isRoutine = true ∨ session.jams capacity = false := by
  unfold jams
  cases hdone : session.done with
  | true =>
      rw [offer_of_done hdone]
      simp
  | false =>
      by_cases hroom : session.queue.length < capacity
      · rw [offer_of_room hdone hroom, decide_eq_false (not_le.mpr hroom)]
        simp
      · have hfull : capacity ≤ session.queue.length := not_lt.mp hroom
        rw [offer_of_full hdone hfull, decide_eq_true hfull]
        cases hroutine : message.isRoutine with
        | true => simp
        | false =>
            simp only [Bool.false_eq_true, if_false, false_or, Bool.not_false, Bool.true_and]
            cases hqueue : session.queue with
            | nil =>
                rw [hqueue] at hfull
                exact absurd hfull (not_le.mpr hpos)
            | cons frame rest =>
                cases frame with
                | text text =>
                    rw [makeRoom_text hqueue]
                    simp
                | event old =>
                    cases hold : old.isRoutine with
                    | true =>
                        rw [makeRoom_routine hqueue hold hbound]
                        simp
                    | false =>
                        rw [makeRoom_critical hqueue hold hbound]
                        simp

theorem offer_reached (hbound : session.queue.length ≤ capacity) (hpos : 0 < capacity)
    (hroutine : message.isRoutine = false) (hdone : session.done = false)
    (hok : session.jams capacity = false) :
    Reached message session (session.offer capacity message).2 := by
  by_cases hroom : session.queue.length < capacity
  · rw [offer_of_room hdone hroom]
    exact Or.inl ⟨session.queue, rfl, Or.inl rfl⟩
  · have hfull : capacity ≤ session.queue.length := not_lt.mp hroom
    rw [offer_of_full hdone hfull, hroutine, if_neg Bool.false_ne_true]
    cases hqueue : session.queue with
    | nil =>
        rw [hqueue] at hfull
        exact absurd hfull (not_le.mpr hpos)
    | cons frame rest =>
        cases frame with
        | text text =>
            unfold jams at hok
            rw [hdone, decide_eq_true hfull, hqueue] at hok
            cases hok
        | event old =>
            cases hold : old.isRoutine with
            | true =>
                rw [makeRoom_routine hqueue hold hbound]
                exact Or.inl ⟨rest, rfl, Or.inr ⟨old, hold, hqueue⟩⟩
            | false =>
                rw [makeRoom_critical hqueue hold hbound]
                exact Or.inr ⟨rfl, rfl⟩

theorem offer_length (hbound : session.queue.length ≤ capacity) :
    (session.offer capacity message).2.queue.length ≤ capacity := by
  cases hdone : session.done with
  | true =>
      rw [offer_of_done hdone]
      exact hbound
  | false =>
      by_cases hroom : session.queue.length < capacity
      · rw [offer_of_room hdone hroom, List.length_append, List.length_singleton]
        exact hroom
      · rw [offer_of_full hdone (not_lt.mp hroom)]
        cases hroutine : message.isRoutine with
        | true => exact hbound
        | false =>
            rw [if_neg Bool.false_ne_true]
            cases hqueue : session.queue with
            | nil =>
                unfold makeRoom
                rw [hqueue]
                exact hbound
            | cons frame rest =>
                have hrest : rest.length + 1 ≤ capacity := by
                  rw [hqueue] at hbound
                  exact hbound
                cases frame with
                | text text =>
                    rw [makeRoom_text hqueue]
                    exact le_trans (Nat.le_succ _) hrest
                | event old =>
                    cases hold : old.isRoutine with
                    | true =>
                        rw [makeRoom_routine hqueue hold hbound, List.length_append]
                        exact hrest
                    | false =>
                        rw [makeRoom_critical hqueue hold hbound]
                        unfold disconnectSlow
                        rw [List.length_append]
                        exact hrest

end ClientSession

namespace WebSocketManager

variable {config : WebSocketConfig} {message : Event payload}

/-!
## The queues of all clients
-/

/-- No queue is longer than its bound. -/
def Bounded (capacity : Nat) (clients : Dict Nat (ClientSession payload)) : Prop :=
  forall id session, clients.get? id = some session -> session.queue.length ≤ capacity

namespace Bounded

variable {capacity : Nat} {clients : Dict Nat (ClientSession payload)}

theorem empty : Bounded capacity (Dict.empty : Dict Nat (ClientSession payload)) := by
  intro id session h
  cases h

theorem set (h : Bounded capacity clients) {id : Nat} {session : ClientSession payload}
    (hsession : session.queue.length ≤ capacity) : Bounded capacity (clients.set id session) := by
  intro other found hfound
  rw [Dict.get?_set] at hfound
  by_cases hother : other = id
  · rw [if_pos hother] at hfound
    rw [← Option.some.inj hfound]
    exact hsession
  · rw [if_neg hother] at hfound
    exact h other found hfound

theorem erase (h : Bounded capacity clients) (id : Nat) : Bounded capacity (clients.erase id) := by
  intro other found hfound
  rw [Dict.get?_erase] at hfound
  by_cases hother : other = id
  · rw [if_pos hother] at hfound
    cases hfound
  · rw [if_neg hother] at hfound
    exact h other found hfound

theorem modify (h : Bounded capacity clients) {id : Nat}
    {f : ClientSession payload -> ClientSession payload}
    (hf : forall session, clients.get? id = some session -> session.queue.length ≤ capacity ->
      (f session).queue.length ≤ capacity) : Bounded capacity (clients.modify id f) := by
  intro other found hfound
  rw [Dict.get?_modify] at hfound
  by_cases hother : other = id
  · rw [if_pos hother] at hfound
    rcases Option.map_eq_some_iff.mp hfound with ⟨session, hsession, heq⟩
    rw [← heq]
    rw [hother] at hsession
    exact hf session hsession (h id session hsession)
  · rw [if_neg hother] at hfound
    exact h other found hfound

end Bounded

variable {manager : WebSocketManager payload}

@[simp] theorem setConnection_clients (id : Nat) (connection : Connection) :
    (manager.setConnection id connection).clients = manager.clients := rfl

@[simp] theorem leave_clients (id : Nat) (connection : Connection) :
    (manager.leave id connection).clients = manager.clients := rfl

@[simp] theorem modifyClient_clients (id : Nat)
    (f : ClientSession payload -> ClientSession payload) :
    (manager.modifyClient id f).clients = manager.clients.modify id f := rfl

theorem serveOn_clients (id : Nat) (connection : Connection) :
    (manager.serveOn id connection).clients = manager.clients := by
  unfold serveOn
  split
  · rfl
  · rfl

theorem leaveWith_clients (id : Nat) (connection : Connection) (code : Nat) :
    (manager.leaveWith id connection code).clients =
      manager.clients.modify id (fun session => { session with closeCode := code }) := rfl

theorem release_clients (id : Nat) (ip : Str) :
    (manager.release id ip).clients = manager.clients.erase id := by
  unfold release
  dsimp only
  split
  · rfl
  · rfl

theorem atPlace_cases {motive : WebSocketManager payload -> Prop} {id : Nat}
    {place : HandlerTask} {next : Connection -> WebSocketManager payload}
    (hsame : motive manager)
    (hnext : forall connection, manager.connections.get? id = some connection ->
      connection.handler = place -> motive (next connection)) :
    motive (manager.atPlace id place next) := by
  unfold atPlace
  cases hget : manager.connections.get? id with
  | none => exact hsame
  | some connection =>
      by_cases hplace : connection.handler = place
      · dsimp only
        rw [if_pos hplace]
        exact hnext connection hget hplace
      · dsimp only
        rw [if_neg hplace]
        exact hsame

theorem cleanupCancelled_clients (manager : WebSocketManager payload) (id : Nat) :
    (manager.cleanupCancelled id).clients = manager.clients ∨
      (manager.cleanupCancelled id).clients = manager.clients.erase id := by
  unfold cleanupCancelled
  cases manager.connections.get? id with
  | none => exact Or.inl rfl
  | some connection =>
      dsimp only
      cases connection.cleanup with
      | absent => exact Or.inl rfl
      | created => exact Or.inl rfl
      | awaitingWriter => exact Or.inl rfl
      | closing code => exact Or.inr (release_clients id connection.ip)
      | done => exact Or.inl rfl
      | cancelled => exact Or.inl rfl

/-!
## One turn
-/

section Turns

variable {capacity : Nat} (h : Bounded config.wsClientQueueSize manager.clients)

include h

theorem received_bounded (id : Nat) (input : Received) :
    Bounded config.wsClientQueueSize (manager.received config id input).clients := by
  have hcode : forall connection code, Bounded config.wsClientQueueSize
      (manager.leaveWith id connection code).clients := by
    intro connection code
    rw [leaveWith_clients]
    exact h.modify (fun _ _ hlength => hlength)
  unfold received
  apply atPlace_cases (motive := fun manager => Bounded config.wsClientQueueSize manager.clients) h
  intro connection _ _
  cases hclient : manager.clients.get? id with
  | none => exact h
  | some session =>
      dsimp only
      by_cases hdone : session.done = true
      · rw [if_pos hdone]
        exact h
      · rw [if_neg hdone]
        cases input with
        | timeout idle =>
            dsimp only
            split
            · exact hcode connection _
            · rw [serveOn_clients]
              exact h
        | disconnect => exact h
        | failure => exact h
        | other =>
            dsimp only
            rw [serveOn_clients]
            exact h
        | bytes => exact hcode connection _
        | text message =>
            dsimp only
            split
            · exact hcode connection _
            · split
              · unfold pong
                rw [hclient]
                dsimp only
                cases hput : session.putNowait config.wsClientQueueSize (.text (str "pong")) with
                | none => exact hcode connection _
                | some next =>
                    dsimp only
                    rw [serveOn_clients, modifyClient_clients]
                    exact h.modify (fun _ _ _ => ClientSession.putNowait_length hput)
              · rw [serveOn_clients]
                exact h

theorem cleanupResumes_bounded (id : Nat) :
    Bounded config.wsClientQueueSize (manager.cleanupResumes id).clients := by
  unfold cleanupResumes
  cases manager.connections.get? id with
  | none => exact h
  | some connection =>
      dsimp only
      cases connection.cleanup with
      | absent => exact h
      | created =>
          cases hclient : manager.clients.get? id with
          | none => exact h
          | some session => exact h.modify (fun _ _ hlength => hlength)
      | awaitingWriter => exact h
      | closing code =>
          show Bounded _ (manager.release id connection.ip).clients
          rw [release_clients]
          exact h.erase id
      | done => exact h
      | cancelled => exact h

theorem cleanupCancelled_bounded (id : Nat) :
    Bounded config.wsClientQueueSize (manager.cleanupCancelled id).clients := by
  rcases cleanupCancelled_clients manager id with hsame | herased
  · rw [hsame]
    exact h
  · rw [herased]
    exact h.erase id

theorem handlerCancelled_bounded (id : Nat) :
    Bounded config.wsClientQueueSize (manager.handlerCancelled id).clients := by
  unfold handlerCancelled
  cases manager.connections.get? id with
  | none => exact h
  | some connection =>
      dsimp only
      cases connection.handler with
      | refused code => exact h
      | accepting => exact h
      | awaitingStatus => exact h
      | serving => exact h
      | shielded => exact h
      | unshielded => exact cleanupCancelled_bounded h id
      | ended => exact h

end Turns

theorem offerAll_bounded (ids : List Nat) {manager : WebSocketManager payload}
    (h : Bounded config.wsClientQueueSize manager.clients) :
    Bounded config.wsClientQueueSize (offerAll config message ids manager).2.clients := by
  induction ids generalizing manager with
  | nil => exact h
  | cons id rest ih =>
      unfold offerAll
      cases hclient : manager.clients.get? id with
      | none => exact ih h
      | some session =>
          have hlength : (session.offer config.wsClientQueueSize message).2.queue.length ≤
              config.wsClientQueueSize := ClientSession.offer_length (h id session hclient)
          have hnext : Bounded config.wsClientQueueSize (manager.clients.modify id
              (fun _ => (session.offer config.wsClientQueueSize message).2)) :=
            h.modify (fun _ _ _ => hlength)
          dsimp only
          rcases hoffer : session.offer config.wsClientQueueSize message with ⟨raised, next⟩
          rw [hoffer] at hnext
          cases raised with
          | none => exact ih hnext
          | some e => exact hnext

theorem perform_bounded (turn : Turn payload)
    (h : Bounded config.wsClientQueueSize manager.clients) :
    Bounded config.wsClientQueueSize (perform config turn manager).2.clients := by
  cases turn with
  | start => exact h
  | stop => exact h
  | connect id host originAllowed =>
      simp only [perform, connect]
      split
      · exact h
      · split
        · exact h
        · split
          · exact h
          · exact h
  | refusedClosed id =>
      simp only [perform, refusedClosed]
      split
      · exact h
      · exact h
  | accepted id success =>
      apply atPlace_cases (motive := fun manager =>
        Bounded config.wsClientQueueSize manager.clients) h
      intro connection _ _
      split
      · exact h
      · exact h
  | statusAnswered id answer =>
      apply atPlace_cases (motive := fun manager =>
        Bounded config.wsClientQueueSize manager.clients) h
      intro connection _ _
      cases answer with
      | none => exact h
      | some status =>
          dsimp only
          rw [serveOn_clients]
          exact h.set config.queueSize_pos
  | received id input => exact received_bounded h id input
  | writerTakes id =>
      refine h.modify (fun session _ hlength => ?_)
      rw [List.length_tail]
      exact le_trans (Nat.sub_le _ _) hlength
  | writerFails id => exact h.modify (fun _ _ hlength => hlength)
  | cleanupResumes id => exact cleanupResumes_bounded h id
  | cleanupCancelled id => exact cleanupCancelled_bounded h id
  | handlerResumes id =>
      simp only [perform, handlerResumes]
      split
      · exact h
      · split
        · exact h
        · exact h
  | handlerCancelled id => exact handlerCancelled_bounded h id
  | broadcast message => exact offerAll_bounded _ h

theorem after_bounded (config : WebSocketConfig) (turns : List (Turn payload)) :
    Bounded config.wsClientQueueSize (after config turns).clients :=
  (machine config).run_invariant
    (fun turn (manager : WebSocketManager payload)
      (h : Bounded config.wsClientQueueSize manager.clients) => perform_bounded turn h)
    turns new Bounded.empty

/-!
## One broadcast
-/

/-- The loop ends without an exception when every client takes the message, and then
every client has been offered it once. -/
theorem offerAll_spec {ids : List Nat} (hnodup : ids.Nodup)
    (manager : WebSocketManager payload) :
    ((offerAll config message ids manager).1 = none <->
      forall id, id ∈ ids -> forall session, manager.clients.get? id = some session ->
        (session.offer config.wsClientQueueSize message).1 = none) ∧
    ((offerAll config message ids manager).1 = none -> forall id,
      (offerAll config message ids manager).2.clients.get? id =
        if id ∈ ids then
          (manager.clients.get? id).map (fun session =>
            (session.offer config.wsClientQueueSize message).2)
        else manager.clients.get? id) := by
  induction ids generalizing manager with
  | nil =>
      constructor
      · exact ⟨fun _ id hid => absurd hid List.not_mem_nil, fun _ => rfl⟩
      · intro _ id
        rfl
  | cons first rest ih =>
      rw [List.nodup_cons] at hnodup
      unfold offerAll
      cases hclient : manager.clients.get? first with
      | none =>
          rcases ih hnodup.right manager with ⟨hok, hall⟩
          constructor
          · refine hok.trans ⟨?_, fun hrest id hid => hrest id (List.mem_cons_of_mem first hid)⟩
            intro hrest id hid session hsession
            rcases List.mem_cons.mp hid with hfirst | hlater
            · rw [hfirst, hclient] at hsession
              cases hsession
            · exact hrest id hlater session hsession
          · intro hnone id
            rw [hall hnone id]
            by_cases hfirst : id = first
            · rw [hfirst, if_neg hnodup.left, if_pos List.mem_cons_self, hclient]
              rfl
            · simp only [List.mem_cons, hfirst, false_or]
      | some session =>
          dsimp only
          rcases hoffer : session.offer config.wsClientQueueSize message with ⟨raised, next⟩
          cases raised with
          | some e =>
              constructor
              · constructor
                · intro hnone
                  cases hnone
                · intro hrest
                  have hfirst := hrest first List.mem_cons_self session hclient
                  rw [hoffer] at hfirst
                  cases hfirst
              · intro hnone
                cases hnone
          | none =>
              have hother : forall id, id ≠ first ->
                  (manager.modifyClient first (fun _ => next)).clients.get? id =
                    manager.clients.get? id := by
                intro id hid
                rw [modifyClient_clients, Dict.get?_modify, if_neg hid]
              rcases ih hnodup.right (manager.modifyClient first (fun _ => next)) with
                ⟨hok, hall⟩
              constructor
              · refine hok.trans ⟨?_, ?_⟩
                · intro hrest id hid found hfound
                  rcases List.mem_cons.mp hid with hfirst | hlater
                  · rw [hfirst, hclient] at hfound
                    rw [← Option.some.inj hfound, hoffer]
                  · apply hrest id hlater found
                    rw [hother id (fun heq => hnodup.left (heq ▸ hlater))]
                    exact hfound
                · intro hrest id hid found hfound
                  apply hrest id (List.mem_cons_of_mem first hid) found
                  rw [hother id (fun heq => hnodup.left (heq ▸ hid))] at hfound
                  exact hfound
              · intro hnone id
                rw [hall hnone id]
                by_cases hfirst : id = first
                · rw [hfirst, if_neg hnodup.left, if_pos List.mem_cons_self, modifyClient_clients,
                    Dict.get?_modify, if_pos rfl, hclient, Option.map_some, Option.map_some,
                    hoffer]
                · rw [hother id hfirst]
                  simp only [List.mem_cons, hfirst, false_or]

/-- In every reachable state, a broadcast raises nothing, treats every client on its own
and, if it is critical, reaches or disconnects every client that is not done, exactly
when it is a routine event or no client jams. -/
theorem broadcast_reaches_iff (config : WebSocketConfig) (turns : List (Turn payload))
    (message : Event payload) :
    (((after config turns).broadcast config message).1 = none ∧
      forall id session, (after config turns).clients.get? id = some session ->
        ((after config turns).broadcast config message).2.clients.get? id =
          some (session.offer config.wsClientQueueSize message).2 ∧
        (message.isRoutine = false -> session.done = false ->
          ClientSession.Reached message session
            (session.offer config.wsClientQueueSize message).2)) <->
    (message.isRoutine = true ∨
      forall id session, (after config turns).clients.get? id = some session ->
        session.jams config.wsClientQueueSize = false) := by
  have hbounded := after_bounded config turns
  have hnodup : (after config turns).clients.keys.Nodup := (after config turns).clients.nodupKeys
  rcases @offerAll_spec payload config message _ hnodup (after config turns) with ⟨hok, hall⟩
  have hkeys : forall id session, (after config turns).clients.get? id = some session ->
      id ∈ (after config turns).clients.keys := fun _ _ => Dict.mem_keys_of_get?
  constructor
  · rintro ⟨hnone, _⟩
    cases hroutine : message.isRoutine with
    | true => exact Or.inl rfl
    | false =>
        apply Or.inr
        intro id session hsession
        have hfine := hok.mp hnone id (hkeys id session hsession) session hsession
        rcases (ClientSession.offer_ok_iff (hbounded id session hsession)
          config.queueSize_pos).mp hfine with habsurd | hjams
        · rw [hroutine] at habsurd
          cases habsurd
        · exact hjams
  · intro hcondition
    have hnone : ((after config turns).broadcast config message).1 = none := by
      apply hok.mpr
      intro id _ session hsession
      apply (ClientSession.offer_ok_iff (hbounded id session hsession) config.queueSize_pos).mpr
      rcases hcondition with hroutine | hjams
      · exact Or.inl hroutine
      · exact Or.inr (hjams id session hsession)
    refine ⟨hnone, ?_⟩
    intro id session hsession
    constructor
    · have hget := hall hnone id
      rw [if_pos (hkeys id session hsession), hsession] at hget
      exact hget
    · intro hroutine hdone
      apply ClientSession.offer_reached (hbounded id session hsession) config.queueSize_pos
        hroutine hdone
      rcases hcondition with habsurd | hjams
      · rw [hroutine] at habsurd
        cases habsurd
      · exact hjams id session hsession

/-- A client that sends pings while its writer is stuck, and a second one. -/
def pinging : List (Turn Unit) :=
  [.start, .connect 0 (some (str "10.0.0.1")) true, .accepted 0 true,
    .statusAnswered 0 (some ()), .writerTakes 0] ++
  List.replicate 64 (.received 0 (.text (str "ping"))) ++
  [.connect 1 (some (str "10.0.0.2")) true, .accepted 1 true, .statusAnswered 1 (some ())]

/-- The broadcast of a found block fails at the first client, and the second one neither
gets the message nor is disconnected. -/
theorem broadcast_jams :
    ((after WebSocketConfig.standard pinging).broadcast WebSocketConfig.standard
      { type := some (str "block_found"), payload := () }).1 =
        some { message := str "'str' object has no attribute 'get'" } ∧
    ((after WebSocketConfig.standard pinging).broadcast WebSocketConfig.standard
      { type := some (str "block_found"), payload := () }).2.clients.get? 1 =
        some
          { ip := str "10.0.0.2"
            queue := [.event (nodeStatus ())]
            done := false
            closeCode := CLOSE_NORMAL } := by
  decide +kernel

end WebSocketManager

end Api

end PyChain
