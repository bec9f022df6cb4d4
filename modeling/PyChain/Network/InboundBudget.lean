import PyChain.Network.Reservations

/-!
# The inbound budget

Every turn of the event loop hands its reservations on or gives them back, so
the counters are exact in every state that a node can reach.
-/

namespace PyChain

open Foundation

namespace Network

namespace EventLoop

/-!
## Startup, the timer and local callers
-/

section Turns

variable {config : NodeConfig} {loop : EventLoop}

theorem start_sound (h : Sound config [] loop) :
    Sound config [] (finalState start loop) := by
  unfold start
  rw [finalState_get_bind]
  by_cases hcreated : loop.state ≠ .created
  · rw [if_pos hcreated]
    exact h
  · rw [if_neg hcreated]
    have hframe : Frame loop { loop with state := .starting, startTask := .opening } :=
      ⟨rfl, rfl, rfl, rfl, rfl, rfl, rfl⟩
    apply hframe.sound_of_absent h
    apply h.orderly.absent
    rw [not_not.mp hcreated]
    decide

theorem Sound.startTask (h : Sound config [] loop) (task : StartTask) :
    Sound config [] { loop with startTask := task } := by
  have hframe : Frame loop { loop with startTask := task } :=
    ⟨rfl, rfl, rfl, rfl, rfl, rfl, rfl⟩
  exact hframe.sound_of_halted h rfl rfl h.orderly.halted

theorem dispatching_of_idle (hidle : loop.handling = false) : loop.dispatching = [] := by
  unfold handling at hidle
  unfold dispatching
  cases hdispatcher : loop.dispatcherTask with
  | handling event =>
      rw [hdispatcher] at hidle
      cases hidle
  | _ => rfl

theorem serverOpened_sound (h : Sound config [] loop) (hidle : loop.handling = false) :
    Sound config [] (finalState serverOpened loop) := by
  unfold serverOpened
  rw [finalState_get_bind]
  by_cases hopening : loop.startTask = .opening
  · rw [if_pos hopening]
    by_cases hstarting : loop.state ≠ .starting
    · rw [if_pos hstarting]
      exact (h.startTask .done).startRaised
    · rw [if_neg hstarting]
      have hframe : Frame loop
          { loop with
            state := .running
            startTask := .serving
            dispatcherTask := .looping
            maintenanceTask := .looping } :=
        ⟨rfl, rfl, rfl, rfl, rfl, (dispatching_of_idle hidle).symm, rfl⟩
      apply hframe.sound_of_absent h
      apply h.orderly.absent
      rw [not_not.mp hstarting]
      decide
  · rw [if_neg hopening]
    exact h

theorem startServing_sound (h : Sound config [] loop) :
    Sound config [] (finalState startServing loop) := by
  unfold startServing
  rw [finalState_get_bind]
  by_cases hserving : loop.startTask = .serving
  · rw [if_pos hserving, finalState_set_bind]
    by_cases hrunning : loop.state ≠ .running
    · rw [if_pos hrunning]
      exact (h.startTask .done).startRaised
    · rw [if_neg hrunning]
      exact h.startTask .done
  · rw [if_neg hserving]
    exact h

theorem startFailed_sound (h : Sound config [] loop) (cancelled : Bool) :
    Sound config [] (finalState (startFailed cancelled) loop) := by
  unfold startFailed
  rw [finalState_get_bind]
  by_cases hstarted : loop.startTask = .opening ∨ loop.startTask = .serving
  · rw [if_pos hstarted]
    cases cancelled with
    | true => exact h.startRaised
    | false => exact (h.startTask .done).startRaised
  · rw [if_neg hstarted]
    exact h

theorem maintenanceTurn_sound (h : Sound config [] loop) :
    Sound config [] (finalState maintenanceTurn loop) := by
  unfold maintenanceTurn
  rw [finalState_get_bind]
  by_cases hlooping : loop.maintenanceTask = .looping
  · rw [if_pos hlooping]
    by_cases hrunning : loop.state ≠ .running
    · rw [if_pos hrunning]
      have hframe : Frame loop { loop with maintenanceTask := .done } :=
        ⟨rfl, rfl, rfl, rfl, rfl, rfl, rfl⟩
      exact hframe.sound_of_halted h rfl rfl h.orderly.halted
    · rw [if_neg hrunning]
      by_cases hqueued : loop.tickQueued = false
      · rw [if_pos hqueued]
        rcases reserve_cases 1 loop with hrefused | ⟨htaken, _, hevents, hbytes⟩
        · rw [finalState_bind_ok hrefused]
          exact h
        · rw [finalState_bind_ok htaken]
          have hreserved := h.reserved hevents hbytes
          have hframe : Frame (loop.reserved 1)
              { loop.reserved 1 with tickQueued := true } :=
            ⟨rfl, rfl, rfl, rfl, rfl, rfl, rfl⟩
          have hticked : Sound config [1] { loop.reserved 1 with tickQueued := true } :=
            hframe.sound_of_halted hreserved rfl rfl hreserved.orderly.halted
          have htick : Sound config (Event.size { kind := .tick, size := 1 } :: [])
              { loop.reserved 1 with tickQueued := true } := hticked
          have hput := putNowait_run htick
          change Sound config []
            (finalState (tryCatch (putNowait { kind := .tick, size := 1 }) _)
              { loop.reserved 1 with tickQueued := true })
          rw [finalState_tryCatch_ok hput]
          exact htick.queued (not_not.mp hrunning)
      · rw [if_neg hqueued]
        exact h
  · rw [if_neg hlooping]
    exact h

theorem call_sound (h : Sound config [] loop) (command : Command) (size : Nat) :
    Sound config [] (finalState (call command size) loop) := by
  unfold call
  rw [finalState_get_bind]
  by_cases hrunning : loop.state ≠ .running
  · rw [if_pos hrunning]
    exact h
  · rw [if_neg hrunning]
    rcases reserve_cases size loop with hrefused | ⟨htaken, _, hevents, hbytes⟩
    · rw [finalState_bind_ok hrefused]
      exact h
    · rw [finalState_bind_ok htaken]
      have hreserved :
          Sound config (Event.size { kind := .command command, size := size } :: [])
            (loop.reserved size) := h.reserved hevents hbytes
      have hput := putNowait_run hreserved
      change Sound config [] (finalState
        (tryCatch (putNowait { kind := .command command, size := size }) _)
        (loop.reserved size))
      rw [finalState_tryCatch_ok hput]
      exact hreserved.queued (not_not.mp hrunning)

end Turns

/-!
## Turns of connections
-/

section ConnectionTurns

variable {config : NodeConfig} {held : List Nat} {loop : EventLoop} {id : Str}
  {connection : Connection}

theorem attach_sound (h : Sound config [] loop) (id : Str) (started : Bool) (now : Rat) :
    Sound config [] (finalState (attach id started now) loop) := by
  unfold attach
  rw [finalState_get_bind]
  by_cases hfresh : loop.state = .running ∧ id ∉ loop.connections.keys
  · rw [if_pos hfresh]
    have habsent : loop.cleanupTask = .absent := by
      apply h.orderly.absent
      rw [hfresh.left]
      decide
    have howned : (Connection.create loop.config started now).reader.owned = [] := by
      cases started with
      | true => rfl
      | false => rfl
    have hreading : EventLoop.reading { loop with
        connections :=
          loop.connections.set id (Connection.create loop.config started now) } =
        loop.reading := by
      unfold reading Dict.values
      rw [Dict.items_set_of_not_mem _ hfresh.right, List.map_append, List.flatMap_append,
        List.map_singleton, List.flatMap_singleton, howned, List.append_nil]
    change Sound config [] { loop with
      connections := loop.connections.set id (Connection.create loop.config started now) }
    constructor
    · refine h.balanced.transfer ?_ rfl rfl rfl rfl
      unfold reservations
      rw [hreading]
      exact List.Perm.refl _
    · refine Orderly.of_absent habsent ?_
      intro other found hfound
      change (loop.connections.set id _).get? other = some found at hfound
      rw [Dict.get?_set] at hfound
      by_cases hother : other = id
      · rw [if_pos hother] at hfound
        rw [← Option.some.inj hfound]
        constructor
        · intro hclose
          rcases hclose with hclose | hclose
          · cases hclose
          · cases hclose
        · intro hreported
          cases hreported
        · intro hdetached
          cases hdetached
      · rw [if_neg hother] at hfound
        exact h.orderly.connections other found hfound
  · rw [if_neg hfresh]
    exact h

theorem withConnection_none (hget : loop.connections.get? id = none)
    (act : Connection -> LoopM Unit) : withConnection id act loop = .ok () loop := by
  unfold withConnection
  rw [run_bind_ok (rfl : (get : LoopM EventLoop) loop = .ok loop loop), hget]
  rfl

theorem withConnection_some (hget : loop.connections.get? id = some connection)
    (act : Connection -> LoopM Unit) :
    withConnection id act loop = act connection loop := by
  unfold withConnection
  rw [run_bind_ok (rfl : (get : LoopM EventLoop) loop = .ok loop loop), hget]

theorem withConnection_sound {act : Connection -> LoopM Unit} (h : Sound config held loop)
    (hact : forall connection, loop.connections.get? id = some connection ->
      Sound config held (finalState (act connection) loop)) :
    Sound config held (finalState (withConnection id act) loop) := by
  cases hget : loop.connections.get? id with
  | none =>
      rw [finalState_of_ok (withConnection_none hget act)]
      exact h
  | some connection =>
      unfold finalState
      rw [withConnection_some hget act]
      exact hact connection hget

theorem Sound.update {next : Connection} (h : Sound config held loop)
    (hget : loop.connections.get? id = some connection)
    (hreader : next.reader = connection.reader) (hnext : next.Orderly)
    (hdone : connection.closeTask = .done -> next.closeTask = .done) :
    Sound config held (loop.replace id next) := by
  apply h.replace hget _ hnext hdone
  rw [hreader]

theorem beginClose_sound (h : Sound config held loop) (id : Str) :
    Sound config held (finalState (beginClose id) loop) := by
  apply withConnection_sound h
  intro connection hget
  exact h.update hget connection.reader_beginClose
    (h.orderly.connections id connection hget).beginClose Connection.closeTask_beginClose

theorem closePeer_sound (h : Sound config held loop) (id : Str) :
    Sound config held (finalState (closePeer id) loop) := by
  apply withConnection_sound h
  intro connection hget
  have horderly := h.orderly.connections id connection hget
  have hnext : Connection.Orderly { connection with closed := true } :=
    ⟨horderly.joined, horderly.reported, horderly.detached⟩
  exact h.update hget rfl hnext (fun hdone => hdone)

theorem writerStopped_sound (h : Sound config [] loop) (id : Str)
    (unexpectedError : Option PyError) :
    Sound config [] (finalState (writerStopped id unexpectedError) loop) := by
  apply withConnection_sound h
  intro connection hget
  have horderly := h.orderly.connections id connection hget
  have hnext : Connection.Orderly
      { connection with
        unexpectedError := unexpectedError.or connection.unexpectedError } :=
    ⟨horderly.joined, horderly.reported, horderly.detached⟩
  exact h.update hget (Connection.reader_beginClose _) hnext.beginClose
    (fun hdone => Connection.closeTask_beginClose hdone)

theorem closeStarts_sound (h : Sound config [] loop) (id : Str) :
    Sound config [] (finalState (closeStarts id) loop) := by
  apply withConnection_sound h
  intro connection hget
  have horderly := h.orderly.connections id connection hget
  by_cases hscheduled : connection.closeTask = .scheduled
  · rw [if_pos hscheduled]
    have hnotdone : connection.closeTask ≠ .done := by
      rw [hscheduled]
      decide
    have hnext : Connection.Orderly { connection with closeTask := .joining } := by
      constructor
      · intro hclose
        rcases hclose with hclose | hclose
        · cases hclose
        · cases hclose
      · intro hreported
        exact absurd (horderly.reported hreported) hnotdone
      · intro hdetached
        exact absurd (horderly.detached hdetached) hnotdone
    exact h.update hget rfl hnext (fun hdone => absurd hdone hnotdone)
  · rw [if_neg hscheduled]
    exact h

theorem closeJoined_sound (h : Sound config [] loop) (id : Str) :
    Sound config [] (finalState (closeJoined id) loop) := by
  apply withConnection_sound h
  intro connection hget
  have horderly := h.orderly.connections id connection hget
  by_cases hjoined : connection.closeTask = .joining ∧
      (connection.reader = .absent ∨ connection.reader = .done)
  · rw [if_pos hjoined]
    have hnotdone : connection.closeTask ≠ .done := by
      rw [hjoined.left]
      decide
    have hnext : Connection.Orderly { connection with closeTask := .waitingClosed } := by
      constructor
      · intro _
        exact hjoined.right
      · intro hreported
        exact absurd (horderly.reported hreported) hnotdone
      · intro hdetached
        exact absurd (horderly.detached hdetached) hnotdone
    exact h.update hget rfl hnext (fun hdone => absurd hdone hnotdone)
  · rw [if_neg hjoined]
    exact h

theorem closeDone_sound (h : Sound config [] loop) (id : Str)
    (socketError : Option PyError) :
    Sound config [] (finalState (closeDone id socketError) loop) := by
  apply withConnection_sound h
  intro connection hget
  have horderly := h.orderly.connections id connection hget
  by_cases hwaiting : connection.closeTask = .waitingClosed
  · rw [if_pos hwaiting]
    have hnext : Connection.Orderly
        { connection with
          closeTask := .done
          reported := true
          unexpectedError := connection.unexpectedError.or socketError } := by
      constructor
      · intro _
        exact horderly.joined (Or.inl hwaiting)
      · intro _
        rfl
      · intro _
        rfl
    have hdone : Sound config [] (loop.replace id
        { connection with
          closeTask := .done
          reported := true
          unexpectedError := connection.unexpectedError.or socketError }) :=
      h.update hget rfl hnext (fun _ => rfl)
    by_cases herror : (connection.unexpectedError.or socketError).isSome = true
    · change Sound config [] (finalState (if _ then fatal else pure ()) _)
      rw [if_pos herror, finalState_of_ok (fatal_run _)]
      exact hdone.failing
    · change Sound config [] (finalState (if _ then fatal else pure ()) _)
      rw [if_neg herror]
      exact hdone
  · rw [if_neg hwaiting]
    exact h

theorem reapPeer_sound (h : Sound config [] loop) (id : Str) :
    Sound config [] (finalState (reapPeer id) loop) := by
  apply withConnection_sound h
  intro connection hget
  have horderly := h.orderly.connections id connection hget
  by_cases hreported : connection.reported = true
  · rw [if_pos hreported]
    have hnext : Connection.Orderly
        { connection with reported := false, attached := false } := by
      constructor
      · exact horderly.joined
      · intro hfalse
        cases hfalse
      · intro _
        exact horderly.reported hreported
    exact h.update hget rfl hnext (fun hdone => hdone)
  · rw [if_neg hreported]
    exact h

/-!
## Readers
-/

theorem stopReader_orderly (h : connection.Orderly) (unexpectedError : Option PyError) :
    (connection.stopReader unexpectedError).Orderly := by
  have hended : Connection.Orderly
      { connection with reader := .done, unexpectedError := unexpectedError } :=
    ⟨fun _ => Or.inr rfl, h.reported, h.detached⟩
  exact hended.beginClose

theorem Sound.stopReader (h : Sound config held loop)
    (hget : loop.connections.get? id = some connection)
    (howned : connection.reader.owned = []) (unexpectedError : Option PyError) :
    Sound config held (loop.replace id (connection.stopReader unexpectedError)) := by
  apply h.replace hget
  · have hreader : (connection.stopReader unexpectedError).reader = .done :=
      Connection.reader_beginClose _
    rw [hreader, howned]
    exact List.Perm.refl _
  · exact stopReader_orderly (h.orderly.connections id connection hget) unexpectedError
  · intro hdone
    exact Connection.closeTask_beginClose hdone

theorem readerRaises_run (hget : loop.connections.get? id = some connection) (e : PyError) :
    readerRaises id e loop =
      .ok () (loop.replace id (connection.stopReader (connection.readerError e))) :=
  withConnection_some hget _

theorem readerRaises_sound (h : Sound config held loop)
    (hget : loop.connections.get? id = some connection)
    (howned : connection.reader.owned = []) (e : PyError) :
    Sound config held (finalState (readerRaises id e) loop) := by
  rw [finalState_of_ok (readerRaises_run hget e)]
  exact h.stopReader hget howned _

theorem readerResumes_sound (h : Sound config [] loop) (id : Str) :
    Sound config [] (finalState (readerResumes id) loop) := by
  apply withConnection_sound h
  intro connection hget
  have horderly := h.orderly.connections id connection hget
  by_cases hresting : connection.reader = .resting
  · rw [if_pos hresting]
    have howned : connection.reader.owned = [] := by
      rw [hresting]
      rfl
    by_cases hclosed : connection.closed = true
    · rw [if_pos hclosed]
      exact h.stopReader hget howned _
    · rw [if_neg hclosed]
      apply h.replace hget
      · rw [howned]
        exact List.Perm.refl _
      · refine ⟨?_, horderly.reported, horderly.detached⟩
        intro hclose
        have hended := horderly.joined hclose
        rw [hresting] at hended
        rcases hended with hended | hended
        · cases hended
        · cases hended
      · exact fun hdone => hdone
  · rw [if_neg hresting]
    exact h

theorem readPrefix_sound (h : Sound config [] loop) (id : Str) (a b c d : UInt8)
    (now : Rat) : Sound config [] (finalState (readPrefix id a b c d now) loop) := by
  apply withConnection_sound h
  intro connection hget
  rw [finalState_get_bind]
  have horderly := h.orderly.connections id connection hget
  by_cases hawaiting : connection.reader = .awaitingPrefix
  · rw [if_pos hawaiting]
    have howned : connection.reader.owned = [] := by
      rw [hawaiting]
      rfl
    cases hsize : frameSize loop.config.maxFrameBytes a b c d with
    | error e => exact readerRaises_sound h hget howned e
    | ok bodySize =>
        generalize hconsumed : connection.consume now (bodySize + 4) = consumed
        have hconsumedOrderly : consumed.2.Orderly := by
          rw [← hconsumed]
          exact ⟨horderly.joined, horderly.reported, horderly.detached⟩
        have hreader : consumed.2.reader = connection.reader := by
          rw [← hconsumed]
          rfl
        have hdone : connection.closeTask = .done -> consumed.2.closeTask = .done := by
          rw [← hconsumed]
          exact fun hdone => hdone
        have hupdated : Sound config [] (loop.replace id consumed.2) :=
          h.update hget hreader hconsumedOrderly hdone
        have hget' : (loop.replace id consumed.2).connections.get? id = some consumed.2 :=
          get?_replace_self hget
        rw [hawaiting] at hreader
        have howned' : consumed.2.reader.owned = [] := by
          rw [hreader]
          rfl
        simp only [hconsumed]
        change Sound config [] (finalState (if _ then _ else _) (loop.replace id consumed.2))
        by_cases hlimit : consumed.1 = false
        · rw [if_pos hlimit]
          exact readerRaises_sound hupdated hget' howned' _
        · rw [if_neg hlimit]
          rcases reserve_cases (bodySize + 4) (loop.replace id consumed.2) with
            hrefused | ⟨htaken, _, hroom, hbudget⟩
          · rw [finalState_bind_ok hrefused]
            exact hupdated.stopReader hget' howned' _
          · rw [finalState_bind_ok htaken]
            have hreserved := hupdated.reserved hroom hbudget
            have hfree := hconsumedOrderly.awaiting hreader
            apply hreserved.replace hget'
            · rw [howned']
              exact List.Perm.refl _
            · refine ⟨?_, hconsumedOrderly.reported, hconsumedOrderly.detached⟩
              intro hclose
              exact absurd hclose hfree
            · exact fun hdone => hdone
  · rw [if_neg hawaiting]
    exact h

theorem Sound.takeBody {ownedSize : Nat} (h : Sound config [] loop)
    (hget : loop.connections.get? id = some connection)
    (hreader : connection.reader = .awaitingBody ownedSize) :
    Sound config [ownedSize] (loop.replace id { connection with reader := .resting }) := by
  have horderly := h.orderly.connections id connection hget
  apply h.replace hget
  · rw [hreader]
    exact List.Perm.refl _
  · refine ⟨?_, horderly.reported, horderly.detached⟩
    intro hclose
    have hended := horderly.joined hclose
    rw [hreader] at hended
    rcases hended with hended | hended
    · cases hended
    · cases hended
  · exact fun hdone => hdone

theorem onMessage_cases {ownedSize : Nat} (h : Sound config [ownedSize] loop) (id : Str)
    (packet : Packet) :
    onMessage id packet ownedSize loop = .ok false loop ∨
      exists next, onMessage id packet ownedSize loop = .ok true next ∧
        Sound config [] next := by
  generalize hattached :
    ((loop.connections.get? id).map Connection.attached).getD false = attached
  have hrun : onMessage id packet ownedSize loop =
      (if loop.state ≠ .running ∨ attached = false then return false
        else do
          putNowait { kind := .remote id packet, size := ownedSize }
          return true : LoopM Bool) loop := by
    rw [← hattached]
    unfold onMessage
    rw [run_bind_ok (rfl : (get : LoopM EventLoop) loop = .ok loop loop)]
    cases loop.connections.get? id with
    | none => rfl
    | some connection => rfl
  rw [hrun]
  by_cases hrefused : loop.state ≠ .running ∨ attached = false
  · rw [if_pos hrefused]
    exact Or.inl rfl
  · rw [if_neg hrefused]
    rw [not_or, not_not] at hrefused
    have hevent : Sound config
        (Event.size { kind := .remote id packet, size := ownedSize } :: []) loop := h
    apply Or.inr
    exact ⟨_, run_bind_ok (putNowait_run hevent) _, hevent.queued hrefused.left⟩

theorem receiveBody_sound {ownedSize : Nat} (h : Sound config [ownedSize] loop)
    (hget : loop.connections.get? id = some connection)
    (howned : connection.reader.owned = []) (body : Bytes) :
    Sound config [] (finalState (tryCatch (receiveBody id body ownedSize) (readerRaises id))
      loop) := by
  have hget' : (get : LoopM EventLoop) loop = .ok loop loop := rfl
  cases hdecode : decodeReceived body loop.config.maxFrameBytes with
  | error e =>
      have hrun : receiveBody id body ownedSize loop =
          (do
            release ownedSize
            throw e : LoopM Unit) loop := by
        unfold receiveBody
        rw [run_bind_ok hget', hdecode]
      have hraised : receiveBody id body ownedSize loop =
          .error e (loop.released ownedSize) := by
        rw [hrun]
        exact run_bind_ok (release_run h) _
      rw [finalState_tryCatch_error hraised]
      exact readerRaises_sound h.released hget howned e
  | ok packet =>
      have hrun : receiveBody id body ownedSize loop =
          (do
            let taken <- tryCatch (onMessage id packet ownedSize) (fun e => do
              release ownedSize
              throw e)
            if taken then return () else release ownedSize : LoopM Unit) loop := by
        unfold receiveBody
        rw [run_bind_ok hget', hdecode]
      rcases onMessage_cases h id packet with hrefused | ⟨next, htaken, hnext⟩
      · have hdone : receiveBody id body ownedSize loop =
            .ok () (loop.released ownedSize) := by
          rw [hrun]
          refine (run_bind_ok (run_tryCatch_ok hrefused _) _).trans ?_
          exact release_run h
        rw [finalState_tryCatch_ok hdone]
        exact h.released
      · have hdone : receiveBody id body ownedSize loop = .ok () next := by
          rw [hrun]
          exact run_bind_ok (run_tryCatch_ok htaken _) _
        rw [finalState_tryCatch_ok hdone]
        exact hnext

theorem readBody_sound (h : Sound config [] loop) (id : Str) (body : Bytes) :
    Sound config [] (finalState (readBody id body) loop) := by
  apply withConnection_sound h
  intro connection hget
  cases hreader : connection.reader with
  | awaitingBody ownedSize =>
      change Sound config [] (finalState (if _ then _ else pure ()) loop)
      by_cases hlength : body.length + 4 = ownedSize
      · rw [if_pos hlength]
        exact receiveBody_sound (h.takeBody hget hreader) (get?_replace_self hget) rfl body
      · rw [if_neg hlength]
        exact h
  | _ => exact h

theorem readFailed_sound (h : Sound config [] loop) (id : Str) :
    Sound config [] (finalState (readFailed id) loop) := by
  apply withConnection_sound h
  intro connection hget
  cases hreader : connection.reader with
  | awaitingPrefix =>
      apply readerRaises_sound h hget
      rw [hreader]
      rfl
  | awaitingBody ownedSize =>
      have htaken := h.takeBody hget hreader
      change Sound config [] (finalState
        (tryCatch (release ownedSize >>= fun _ => throw .osError) (readerRaises id))
        (loop.replace id { connection with reader := .resting }))
      rw [finalState_tryCatch_error (run_bind_ok (release_run htaken) _)]
      exact readerRaises_sound htaken.released (get?_replace_self hget) rfl .osError
  | _ => exact h

theorem readerCancelled_sound (h : Sound config [] loop) (id : Str) :
    Sound config [] (finalState (readerCancelled id) loop) := by
  apply withConnection_sound h
  intro connection hget
  cases hreader : connection.reader with
  | resting =>
      apply h.stopReader hget
      rw [hreader]
      rfl
  | awaitingPrefix =>
      apply h.stopReader hget
      rw [hreader]
      rfl
  | awaitingBody ownedSize =>
      have htaken := h.takeBody hget hreader
      have hresting :
          ({ connection with reader := .resting } : Connection).reader.owned = [] := rfl
      have hrun : (release ownedSize >>= fun _ =>
          setConnection id (connection.stopReader connection.unexpectedError) : LoopM Unit)
          (loop.replace id { connection with reader := .resting }) =
          .ok () (((loop.replace id { connection with reader := .resting }).released
            ownedSize).replace id (connection.stopReader connection.unexpectedError)) :=
        run_bind_ok (release_run htaken) _
      change Sound config [] (finalState (tryCatch (release ownedSize >>= fun _ =>
        setConnection id (connection.stopReader connection.unexpectedError))
        (readerRaises id)) (loop.replace id { connection with reader := .resting }))
      rw [finalState_tryCatch_ok hrun]
      exact htaken.released.stopReader (get?_replace_self hget) hresting
        connection.unexpectedError
  | _ => exact h

end ConnectionTurns

/-!
## The dispatcher
-/

section Dispatcher

variable {config : NodeConfig} {loop : EventLoop}

theorem dispatcherLoops_sound (h : Sound config [] loop) (hidle : loop.handling = false) :
    Sound config [] (finalState dispatcherLoops loop) := by
  unfold dispatcherLoops
  rw [finalState_get_bind]
  cases hdispatcher : loop.dispatcherTask with
  | looping =>
      by_cases hrunning : loop.state = .running
      · change Sound config [] (finalState (if _ then _ else _) loop)
        rw [if_pos hrunning]
        have hframe : Frame loop { loop with dispatcherTask := .awaitingEvent } :=
          ⟨rfl, rfl, rfl, rfl, rfl, (dispatching_of_idle hidle).symm, rfl⟩
        apply hframe.sound_of_absent h
        apply h.orderly.absent
        rw [hrunning]
        decide
      · change Sound config [] (finalState (if _ then _ else _) loop)
        rw [if_neg hrunning]
        have hframe : Frame loop { loop with dispatcherTask := .done } :=
          ⟨rfl, rfl, rfl, rfl, rfl, (dispatching_of_idle hidle).symm, rfl⟩
        exact hframe.sound_of_ended h rfl rfl rfl
  | _ => exact h

theorem dispatcherTakes_sound (h : Sound config [] loop) :
    Sound config [] (finalState dispatcherTakes loop) := by
  unfold dispatcherTakes
  rw [finalState_get_bind]
  cases hdispatcher : loop.dispatcherTask with
  | awaitingEvent =>
      cases hevents : loop.events with
      | nil => exact h
      | cons event rest =>
          have hrunning : loop.DispatcherEnded = false := by
            unfold DispatcherEnded
            rw [hdispatcher]
          change Sound config []
            { loop with events := rest, dispatcherTask := .handling event }
          constructor
          · have hperm : (EventLoop.reservations
                { loop with events := rest, dispatcherTask := .handling event } ++ []).Perm
                (loop.reservations ++ []) := by
              unfold reservations dispatching
              rw [hevents, hdispatcher]
              change (rest.map Event.size ++ loop.reading ++ [event.size] ++ []).Perm
                ((event :: rest).map Event.size ++ loop.reading ++ [] ++ [])
              rw [List.perm_iff_count]
              intro size
              simp only [List.map_cons, List.count_append, List.count_cons, List.count_nil]
              omega
            exact h.balanced.transfer hperm rfl rfl rfl rfl
          · have hphase : forall phase, loop.cleanupTask = phase ->
                ¬ (phase = .closingPeers ∨ phase = .waitingClosed ∨ phase = .done) := by
              intro phase hcleanup hlate
              rw [← hcleanup] at hlate
              have hended := h.orderly.joined hlate
              rw [hrunning] at hended
              cases hended
            refine ⟨h.orderly.connections, h.orderly.halted, ?_, ?_, ?_⟩
            · intro hlate
              exact absurd hlate (hphase _ rfl)
            · exact h.orderly.closed
            · intro hdone
              exact absurd (Or.inr (Or.inr hdone)) (hphase _ rfl)
  | _ => exact h

theorem handlerEnds_run (h : Sound config [] loop) (handled : Handled) (event : Event) :
    exists next, handlerEnds handled event loop = .ok () next ∧ Sound config [] next ∧
      next.dispatcherTask = loop.dispatcherTask := by
  have hticked : Sound config [] { loop with tickQueued := false } := by
    have hframe : Frame loop { loop with tickQueued := false } :=
      ⟨rfl, rfl, rfl, rfl, rfl, rfl, rfl⟩
    exact hframe.sound_of_halted h rfl rfl h.orderly.halted
  have hclosed : forall id, exists next, closePeer id loop = .ok () next ∧
      Sound config [] next ∧ next.dispatcherTask = loop.dispatcherTask := by
    intro id
    have hsound := closePeer_sound h id
    cases hget : loop.connections.get? id with
    | none =>
        refine ⟨loop, ?_, h, rfl⟩
        unfold closePeer
        exact withConnection_none hget _
    | some connection =>
        have hrun : closePeer id loop =
            .ok () (loop.replace id { connection with closed := true }) :=
          withConnection_some hget _
        rw [finalState_of_ok hrun] at hsound
        exact ⟨_, hrun, hsound, rfl⟩
  have hfatal := fatal_run loop
  cases hkind : event.kind with
  | tick =>
      unfold handlerEnds
      rw [hkind]
      cases handled with
      | skipped => exact ⟨loop, rfl, h, rfl⟩
      | reapFailed => exact ⟨_, hfatal, h.failing, dispatcherTask_failing loop⟩
      | failed =>
          exact ⟨_, fatal_run _, hticked.failing, dispatcherTask_failing _⟩
      | _ => exact ⟨_, rfl, hticked, rfl⟩
  | remote id packet =>
      unfold handlerEnds
      rw [hkind]
      cases handled with
      | reapFailed => exact ⟨_, hfatal, h.failing, dispatcherTask_failing loop⟩
      | failed => exact ⟨_, hfatal, h.failing, dispatcherTask_failing loop⟩
      | peerRejected => exact hclosed id
      | _ => exact ⟨loop, rfl, h, rfl⟩
  | command command =>
      unfold handlerEnds
      rw [hkind]
      cases handled with
      | reapFailed => exact ⟨_, hfatal, h.failing, dispatcherTask_failing loop⟩
      | failed => exact ⟨_, hfatal, h.failing, dispatcherTask_failing loop⟩
      | _ => exact ⟨loop, rfl, h, rfl⟩

theorem dispatcherReleases_sound (h : Sound config [] loop) (handled : Handled) :
    Sound config [] (finalState (dispatcherReleases handled) loop) := by
  unfold dispatcherReleases
  rw [finalState_get_bind]
  cases hdispatcher : loop.dispatcherTask with
  | handling event =>
      rcases handlerEnds_run h handled event with ⟨next, hrun, hnext, htask⟩
      rw [hdispatcher] at htask
      change Sound config [] (finalState (handlerEnds handled event >>= _) loop)
      rw [finalState_bind_ok hrun]
      have hheld : Sound config [event.size] { next with dispatcherTask := .looping } := by
        constructor
        · have hperm : (EventLoop.reservations { next with dispatcherTask := .looping } ++
              [event.size]).Perm (next.reservations ++ []) := by
            unfold reservations dispatching
            rw [htask]
            change (next.events.map Event.size ++ next.reading ++ [] ++ [event.size]).Perm
              (next.events.map Event.size ++ next.reading ++ [event.size] ++ [])
            rw [List.append_nil, List.append_nil]
          exact hnext.balanced.transfer hperm rfl rfl rfl rfl
        · have hrunning : next.DispatcherEnded = false := by
            unfold DispatcherEnded
            rw [htask]
          have horderly := hnext.orderly
          refine ⟨horderly.connections, horderly.halted, ?_, horderly.closed,
            horderly.drained⟩
          intro hlate
          have hended := horderly.joined hlate
          rw [hrunning] at hended
          cases hended
      change Sound config [] (finalState (tryCatch (release event.size) _)
        { next with dispatcherTask := .looping })
      rw [finalState_tryCatch_ok (release_run hheld)]
      exact hheld.released
  | _ => exact h

end Dispatcher

/-!
## The supervisor
-/

section Supervisor

variable {config : NodeConfig} {loop : EventLoop}

theorem Sound.cleanupTask (h : Sound config [] loop) (task : CleanupTask)
    (hstarted : loop.cleanupTask ≠ .absent)
    (hjoined : task = .closingPeers ∨ task = .waitingClosed ∨ task = .done ->
      loop.DispatcherEnded = true)
    (hclosed : task = .waitingClosed ∨ task = .done ->
      forall id connection, loop.connections.get? id = some connection ->
        connection.closeTask = .done)
    (hdrained : task = .done -> loop.events = []) :
    Sound config [] { loop with cleanupTask := task } := by
  have hframe : Frame loop { loop with cleanupTask := task } :=
    ⟨rfl, rfl, rfl, rfl, rfl, rfl, rfl⟩
  constructor
  · exact hframe.balanced h.balanced
  · refine ⟨h.orderly.connections, ?_, hjoined, hclosed, hdrained⟩
    intro _
    exact h.orderly.halted hstarted

theorem cleanupStarts_sound (h : Sound config [] loop) :
    Sound config [] (finalState cleanupStarts loop) := by
  unfold cleanupStarts
  rw [finalState_get_bind]
  by_cases hscheduled : loop.cleanupTask = .scheduled
  · rw [if_pos hscheduled]
    have hstarted : loop.cleanupTask ≠ .absent := by
      rw [hscheduled]
      decide
    apply h.cleanupTask .joining hstarted
    · intro hlate
      rcases hlate with hlate | hlate | hlate
      · cases hlate
      · cases hlate
      · cases hlate
    · intro hlate
      rcases hlate with hlate | hlate
      · cases hlate
      · cases hlate
    · intro hdone
      cases hdone
  · rw [if_neg hscheduled]
    exact h

theorem startCancelled_sound (h : Sound config [] loop) :
    Sound config [] (finalState startCancelled loop) := by
  unfold startCancelled
  rw [finalState_get_bind]
  by_cases hjoining : loop.cleanupTask = .joining ∧ loop.startTask ≠ .absent
  · rw [if_pos hjoining]
    exact h.startTask .done
  · rw [if_neg hjoining]
    exact h

theorem maintenanceCancelled_sound (h : Sound config [] loop) :
    Sound config [] (finalState maintenanceCancelled loop) := by
  unfold maintenanceCancelled
  rw [finalState_get_bind]
  by_cases hjoining : loop.cleanupTask = .joining ∧ loop.maintenanceTask = .looping
  · rw [if_pos hjoining]
    have hframe : Frame loop { loop with maintenanceTask := .done } :=
      ⟨rfl, rfl, rfl, rfl, rfl, rfl, rfl⟩
    exact hframe.sound_of_halted h rfl rfl h.orderly.halted
  · rw [if_neg hjoining]
    exact h

theorem dispatcherCancelled_sound (h : Sound config [] loop)
    (hidle : loop.handling = false) :
    Sound config [] (finalState dispatcherCancelled loop) := by
  have hended : Sound config [] { loop with dispatcherTask := .done } := by
    have hframe : Frame loop { loop with dispatcherTask := .done } :=
      ⟨rfl, rfl, rfl, rfl, rfl, (dispatching_of_idle hidle).symm, rfl⟩
    exact hframe.sound_of_ended h rfl rfl rfl
  unfold dispatcherCancelled
  rw [finalState_get_bind]
  cases hcleanup : loop.cleanupTask with
  | joining =>
      rw [hcleanup] at hended
      cases hdispatcher : loop.dispatcherTask with
      | looping => exact hended
      | awaitingEvent => exact hended
      | _ => exact h
  | _ => exact h

theorem cleanupJoined_sound (h : Sound config [] loop) :
    Sound config [] (finalState cleanupJoined loop) := by
  unfold cleanupJoined
  rw [finalState_get_bind]
  by_cases hjoined : loop.cleanupTask = .joining ∧ loop.DispatcherEnded = true ∧
      (loop.startTask = .absent ∨ loop.startTask = .done) ∧
      (loop.maintenanceTask = .absent ∨ loop.maintenanceTask = .done)
  · rw [if_pos hjoined]
    have hstarted : loop.cleanupTask ≠ .absent := by
      rw [hjoined.left]
      decide
    apply h.cleanupTask .closingPeers hstarted
    · intro _
      exact hjoined.right.left
    · intro hlate
      rcases hlate with hlate | hlate
      · cases hlate
      · cases hlate
    · intro hdone
      cases hdone
  · rw [if_neg hjoined]
    exact h

theorem peersClosed_sound (h : Sound config [] loop) :
    Sound config [] (finalState peersClosed loop) := by
  unfold peersClosed
  rw [finalState_get_bind]
  by_cases hclosed : loop.cleanupTask = .closingPeers ∧
      loop.connections.values.all (fun connection =>
        !connection.attached || decide (connection.closeTask = .done)) = true
  · rw [if_pos hclosed]
    have hstarted : loop.cleanupTask ≠ .absent := by
      rw [hclosed.left]
      decide
    apply h.cleanupTask .waitingClosed hstarted
    · intro _
      exact h.orderly.joined (Or.inl hclosed.left)
    · intro _ id connection hget
      have hmem : connection ∈ loop.connections.values :=
        List.mem_map.mpr ⟨(id, connection), (Dict.get?_eq_some_iff _ _ _).mp hget, rfl⟩
      have hone := List.all_eq_true.mp hclosed.right connection hmem
      cases hattached : connection.attached with
      | false => exact (h.orderly.connections id connection hget).detached hattached
      | true =>
          rw [hattached] at hone
          exact of_decide_eq_true hone
    · intro hdone
      cases hdone
  · rw [if_neg hclosed]
    exact h

theorem drain_run (events : List Event) :
    forall loop : EventLoop, Sound config [] loop -> loop.events = events ->
      loop.cleanupTask = .waitingClosed ->
      exists next, drain events loop = .ok () next ∧ Sound config [] next ∧
        next.events = [] ∧ next.cleanupTask = .waitingClosed := by
  induction events with
  | nil =>
      intro loop h hevents hcleanup
      exact ⟨loop, rfl, h, hevents, hcleanup⟩
  | cons event rest ih =>
      intro loop h hevents hcleanup
      have hheld : Sound config [event.size] { loop with events := rest } := by
        constructor
        · have hperm : (EventLoop.reservations { loop with events := rest } ++
              [event.size]).Perm (loop.reservations ++ []) := by
            unfold reservations
            rw [hevents]
            change (rest.map Event.size ++ loop.reading ++ loop.dispatching ++
              [event.size]).Perm
              ((event :: rest).map Event.size ++ loop.reading ++ loop.dispatching ++ [])
            rw [List.perm_iff_count]
            intro size
            simp only [List.map_cons, List.count_append, List.count_cons, List.count_nil]
            omega
          exact h.balanced.transfer hperm rfl rfl rfl rfl
        · refine ⟨h.orderly.connections, h.orderly.halted, h.orderly.joined,
            h.orderly.closed, ?_⟩
          intro hdone
          have hdone' : loop.cleanupTask = .done := hdone
          rw [hcleanup] at hdone'
          cases hdone'
      rcases ih _ hheld.released rfl hcleanup with ⟨next, hrun, hnext⟩
      refine ⟨next, ?_, hnext⟩
      change (release event.size >>= fun _ => drain rest) { loop with events := rest } = _
      rw [run_bind_ok (release_run hheld)]
      exact hrun

theorem Sound.cleanedUp (h : Sound config [] loop)
    (hcleanup : loop.cleanupTask = .waitingClosed) (hevents : loop.events = [])
    (storageFailed : Bool) : Sound config [] (loop.cleanedUp storageFailed) := by
  have hclosed := h.orderly.closed (Or.inl hcleanup)
  have hreading : (loop.cleanedUp storageFailed).reading = loop.reading := by
    unfold reading EventLoop.cleanedUp Dict.values Dict.mapValues
    simp only [List.map_map, List.flatMap_map, Function.comp_def]
  have hget : forall id connection,
      (loop.cleanedUp storageFailed).connections.get? id = some connection ->
      exists before, loop.connections.get? id = some before ∧
        connection = { before with attached := false, reported := false } := by
    intro id connection hfound
    change (loop.connections.mapValues _).get? id = some connection at hfound
    rw [Dict.get?_mapValues, Option.map_eq_some_iff] at hfound
    rcases hfound with ⟨before, hbefore, heq⟩
    exact ⟨before, hbefore, heq.symm⟩
  constructor
  · refine h.balanced.transfer ?_ rfl rfl rfl rfl
    unfold reservations
    rw [hreading]
    exact List.Perm.refl _
  · constructor
    · intro id connection hfound
      rcases hget id connection hfound with ⟨before, hbefore, heq⟩
      have horderly := h.orderly.connections id before hbefore
      rw [heq]
      constructor
      · exact horderly.joined
      · intro hreported
        cases hreported
      · intro _
        exact hclosed id before hbefore
    · intro _
      change (if storageFailed = true ∨ loop.state = .failed then NodeState.failed
        else .stopped).Halted
      by_cases hfailed : storageFailed = true ∨ loop.state = .failed
      · rw [if_pos hfailed]
        decide
      · rw [if_neg hfailed]
        decide
    · intro _
      exact h.orderly.joined (Or.inr (Or.inl hcleanup))
    · intro _ id connection hfound
      rcases hget id connection hfound with ⟨before, hbefore, heq⟩
      rw [heq]
      exact hclosed id before hbefore
    · intro _
      exact hevents

theorem cleanupFinishes_sound (h : Sound config [] loop) (storageFailed : Bool) :
    Sound config [] (finalState (cleanupFinishes storageFailed) loop) := by
  unfold cleanupFinishes
  rw [finalState_get_bind]
  by_cases hwaiting : loop.cleanupTask = .waitingClosed
  · rw [if_pos hwaiting]
    rcases drain_run loop.events loop h rfl hwaiting with
      ⟨next, hrun, hnext, hevents, hcleanup⟩
    have hdone :
        (drain loop.events >>= fun _ => modify (cleanedUp storageFailed) : LoopM Unit) loop =
          .ok () (next.cleanedUp storageFailed) := run_bind_ok hrun _
    rw [finalState_tryCatch_ok hdone]
    exact hnext.cleanedUp hcleanup hevents storageFailed
  · rw [if_neg hwaiting]
    exact h

end Supervisor

/-!
## Runs
-/

theorem act_sound {config : NodeConfig} {loop : EventLoop} (h : Sound config [] loop)
    (turn : Turn) (hturn : loop.handling = turn.ofHandler) :
    Sound config [] (finalState (act turn) loop) := by
  cases turn with
  | start => exact start_sound h
  | serverOpened => exact serverOpened_sound h hturn
  | startServing => exact startServing_sound h
  | startFailed cancelled => exact startFailed_sound h cancelled
  | attach id started now => exact attach_sound h id started now
  | acceptFailed =>
      change Sound config [] (finalState fatal loop)
      rw [finalState_of_ok (fatal_run loop)]
      exact h.failing
  | beginClose id => exact beginClose_sound h id
  | writerStopped id unexpectedError => exact writerStopped_sound h id unexpectedError
  | closeStarts id => exact closeStarts_sound h id
  | closeJoined id => exact closeJoined_sound h id
  | closeDone id socketError => exact closeDone_sound h id socketError
  | readerResumes id => exact readerResumes_sound h id
  | readPrefix id a b c d now => exact readPrefix_sound h id a b c d now
  | readBody id body => exact readBody_sound h id body
  | readFailed id => exact readFailed_sound h id
  | readerCancelled id => exact readerCancelled_sound h id
  | call command size => exact call_sound h command size
  | maintenanceTurn => exact maintenanceTurn_sound h
  | dispatcherLoops => exact dispatcherLoops_sound h hturn
  | dispatcherTakes => exact dispatcherTakes_sound h
  | reapPeer id => exact reapPeer_sound h id
  | closePeer id => exact closePeer_sound h id
  | overflow id => exact beginClose_sound h id
  | dispatcherReleases handled => exact dispatcherReleases_sound h handled
  | stop => exact h.stopBegun
  | cleanupStarts => exact cleanupStarts_sound h
  | startCancelled => exact startCancelled_sound h
  | dispatcherCancelled => exact dispatcherCancelled_sound h hturn
  | maintenanceCancelled => exact maintenanceCancelled_sound h
  | cleanupJoined => exact cleanupJoined_sound h
  | peersClosed => exact peersClosed_sound h
  | cleanupFinishes storageFailed => exact cleanupFinishes_sound h storageFailed

theorem step_sound {config : NodeConfig} {loop : EventLoop} (h : Sound config [] loop)
    (turn : Turn) : Sound config [] (machine.step turn loop).2 := by
  by_cases hturn : loop.handling = turn.ofHandler
  · have hact := act_sound h turn hturn
    unfold finalState at hact
    change Sound config [] (if _ then _ else _ : Except PyError Unit × EventLoop).2
    rw [if_pos hturn]
    cases hrun : act turn loop with
    | ok a next =>
        rw [hrun] at hact
        exact hact
    | error e next =>
        rw [hrun] at hact
        exact hact
  · change Sound config [] (if _ then _ else _ : Except PyError Unit × EventLoop).2
    rw [if_neg hturn]
    exact h

theorem reachable_sound (config : NodeConfig) (turns : List Turn) :
    Sound config [] (machine.run turns (create config)) := by
  apply machine.run_invariant
  · intro turn loop h
    exact step_sound h turn
  · exact create_sound config

theorem Orderly.reservations_nil {loop : EventLoop} (h : Orderly loop)
    (hdone : loop.cleanupTask = .done) : loop.reservations = [] := by
  have hreading : loop.reading = [] := by
    unfold reading
    rw [List.flatMap_eq_nil_iff]
    intro connection hmem
    rcases List.mem_map.mp hmem with ⟨item, hitem, heq⟩
    have hget : loop.connections.get? item.1 = some connection := by
      rw [Dict.get?_eq_some_iff, ← heq]
      exact hitem
    have hclosed := h.closed (Or.inr hdone) item.1 connection hget
    exact ((h.connections item.1 connection hget).joined (Or.inr hclosed)).owned
  have hdispatching : loop.dispatching = [] := by
    have hended := h.joined (Or.inr (Or.inr hdone))
    unfold DispatcherEnded at hended
    unfold dispatching
    cases hdispatcher : loop.dispatcherTask with
    | handling event =>
        rw [hdispatcher] at hended
        cases hended
    | _ => rfl
  unfold reservations
  rw [h.drained hdone, hreading, hdispatching]
  rfl

/-- In every state that a node can reach, the inbound counters are the number and the total
size of the reservations of the queue, of the readers and of the dispatcher; they stay
within their bounds, neither the queue nor the accounting has ever raised, and nothing is
left when the supervisor has finished. -/
theorem inbound_budget_exact (config : NodeConfig) (turns : List Turn) :
    let loop := machine.run turns (create config)
    loop.inboundEvents =
        (loop.events.length + loop.reading.length + loop.dispatching.length : Nat) ∧
      loop.inboundBytes =
        ((loop.events.map Event.size).sum + loop.reading.sum + loop.dispatching.sum : Nat) ∧
      loop.inboundEvents ≤ config.inboundMaxEvents ∧
      loop.inboundBytes ≤ config.inboundMaxBytes ∧
      loop.faults = [] ∧
      (loop.cleanupTask = .done -> loop.inboundEvents = 0 ∧ loop.inboundBytes = 0) := by
  intro loop
  have hsound : Sound config [] loop := reachable_sound config turns
  have hbalanced := hsound.balanced
  have hevents := hbalanced.events
  have hbytes := hbalanced.bytes
  have hmaxEvents := hbalanced.maxEvents
  have hmaxBytes := hbalanced.maxBytes
  rw [hbalanced.configured] at hmaxEvents hmaxBytes
  rw [List.append_nil] at hevents hbytes
  refine ⟨?_, ?_, hmaxEvents, hmaxBytes, hbalanced.faults, ?_⟩
  · rw [hevents]
    unfold reservations
    simp only [List.length_append, List.length_map]
  · rw [hbytes]
    unfold reservations
    simp only [List.sum_append]
  · intro hdone
    have hnil := hsound.orderly.reservations_nil hdone
    rw [hnil] at hevents hbytes
    exact ⟨hevents, hbytes⟩

/-- A message that is being read and a command that is being dispatched hold seven bytes;
both are given back before the supervisor ends. -/
example :
    let id := ['a']
    let busy := machine.run [.start, .serverOpened, .startServing, .attach id true 0,
      .readerResumes id, .readPrefix id 0 0 0 2 0, .call (.read (fun _ => .ok ())) 1,
      .dispatcherLoops, .dispatcherTakes] (create NodeConfig.default_)
    let ended := machine.run [.dispatcherReleases .completed, .stop, .cleanupStarts,
      .dispatcherCancelled, .maintenanceCancelled, .cleanupJoined, .beginClose id,
      .closeStarts id, .readerCancelled id, .closeJoined id, .closeDone id none,
      .peersClosed, .cleanupFinishes false] busy
    busy.inboundEvents = 2 ∧ busy.inboundBytes = 7 ∧ ended.inboundBytes = 0 ∧
      ended.cleanupTask = .done ∧ ended.state = .stopped := by
  decide +kernel

end EventLoop

end Network

end PyChain
