import PyChain.Network.EventLoop

/-!
# Reservations

Every unit of the inbound budget has one owner: an event of the queue, a reader
that awaits a body, the event being dispatched, or the code that runs.  Taking
and giving back reservations keeps the two counters equal to what is owned, so
the queue never overflows and the counters never fall below zero.
-/

namespace PyChain

open Foundation

namespace Network

/-- The wire size a reader has reserved. -/
def ReaderTask.owned : ReaderTask -> List Nat
  | awaitingBody ownedSize => [ownedSize]
  | _ => []

/-- A reader that does not run any more. -/
def ReaderTask.Ended (reader : ReaderTask) : Prop :=
  reader = .absent ∨ reader = .done

instance (reader : ReaderTask) : Decidable reader.Ended :=
  inferInstanceAs (Decidable (_ ∨ _))

theorem ReaderTask.Ended.owned {reader : ReaderTask} (h : reader.Ended) :
    reader.owned = [] := by
  rcases h with h | h
  · rw [h]
    rfl
  · rw [h]
    rfl

namespace EventLoop

/-- The sizes that readers have reserved. -/
def reading (loop : EventLoop) : List Nat :=
  loop.connections.values.flatMap (fun connection => connection.reader.owned)

/-- The size of the event that is being dispatched. -/
def dispatching (loop : EventLoop) : List Nat :=
  match loop.dispatcherTask with
  | .handling event => [event.size]
  | _ => []

/-- The sizes of all reservations that wait for a task. -/
def reservations (loop : EventLoop) : List Nat :=
  loop.events.map Event.size ++ loop.reading ++ loop.dispatching

/-- The counters are exact when the running code owns the sizes `held`. -/
structure Balanced (config : NodeConfig) (held : List Nat) (loop : EventLoop) : Prop where
  events : loop.inboundEvents = ((loop.reservations ++ held).length : Int)
  bytes : loop.inboundBytes = ((loop.reservations ++ held).sum : Int)
  maxEvents : loop.inboundEvents ≤ loop.config.inboundMaxEvents
  maxBytes : loop.inboundBytes ≤ loop.config.inboundMaxBytes
  faults : loop.faults = []
  configured : loop.config = config

end EventLoop

/-- A connection is told closed when its reader has ended, and forgotten after that. -/
structure Connection.Orderly (connection : Connection) : Prop where
  joined : connection.closeTask = .waitingClosed ∨ connection.closeTask = .done ->
    connection.reader.Ended
  reported : connection.reported = true -> connection.closeTask = .done
  detached : connection.attached = false -> connection.closeTask = .done

theorem Connection.Orderly.beginClose {connection : Connection} (h : connection.Orderly) :
    connection.beginClose.Orderly := by
  unfold Connection.beginClose
  by_cases habsent : connection.closeTask = .absent
  · rw [if_pos habsent]
    constructor
    · intro hclose
      rcases hclose with hclose | hclose
      · cases hclose
      · cases hclose
    · intro hreported
      have hdone := h.reported hreported
      rw [habsent] at hdone
      cases hdone
    · intro hdetached
      have hdone := h.detached hdetached
      rw [habsent] at hdone
      cases hdone
  · rw [if_neg habsent]
    exact h

theorem Connection.Orderly.running {connection : Connection} (h : connection.Orderly)
    (hreader : ¬ connection.reader.Ended) :
    ¬ (connection.closeTask = .waitingClosed ∨ connection.closeTask = .done) :=
  fun hclose => hreader (h.joined hclose)

theorem Connection.Orderly.awaiting {connection : Connection} (h : connection.Orderly)
    (hreader : connection.reader = .awaitingPrefix) :
    ¬ (connection.closeTask = .waitingClosed ∨ connection.closeTask = .done) := by
  apply h.running
  rw [hreader]
  decide

theorem Connection.reader_beginClose (connection : Connection) :
    connection.beginClose.reader = connection.reader := by
  unfold Connection.beginClose
  by_cases habsent : connection.closeTask = .absent
  · rw [if_pos habsent]
  · rw [if_neg habsent]

theorem Connection.closeTask_beginClose {connection : Connection}
    (h : connection.closeTask = .done) : connection.beginClose.closeTask = .done := by
  unfold Connection.beginClose
  have hne : connection.closeTask ≠ .absent := by
    rw [h]
    decide
  rw [if_neg hne]
  exact h

/-- A node that does not accept work any more. -/
def NodeState.Halted (state : NodeState) : Prop :=
  state = .stopping ∨ state = .stopped ∨ state = .failed

instance (state : NodeState) : Decidable state.Halted :=
  inferInstanceAs (Decidable (_ ∨ _ ∨ _))

namespace EventLoop

/-- What the supervisor has waited for. -/
structure Orderly (loop : EventLoop) : Prop where
  connections : forall id connection, loop.connections.get? id = some connection ->
    connection.Orderly
  halted : loop.cleanupTask ≠ .absent -> loop.state.Halted
  joined : loop.cleanupTask = .closingPeers ∨ loop.cleanupTask = .waitingClosed ∨
      loop.cleanupTask = .done -> loop.DispatcherEnded = true
  closed : loop.cleanupTask = .waitingClosed ∨ loop.cleanupTask = .done ->
    forall id connection, loop.connections.get? id = some connection ->
      connection.closeTask = .done
  drained : loop.cleanupTask = .done -> loop.events = []

structure Sound (config : NodeConfig) (held : List Nat) (loop : EventLoop) : Prop where
  balanced : Balanced config held loop
  orderly : Orderly loop

theorem Orderly.absent {loop : EventLoop} (h : Orderly loop)
    (hstate : ¬ loop.state.Halted) : loop.cleanupTask = .absent := by
  by_contra hne
  exact hstate (h.halted hne)

theorem Orderly.of_absent {loop : EventLoop} (habsent : loop.cleanupTask = .absent)
    (h : forall id connection, loop.connections.get? id = some connection ->
      connection.Orderly) : Orderly loop := by
  constructor
  · exact h
  · intro hne
    exact absurd habsent hne
  · rw [habsent]
    intro hphase
    rcases hphase with hphase | hphase | hphase
    · cases hphase
    · cases hphase
    · cases hphase
  · rw [habsent]
    intro hphase
    rcases hphase with hphase | hphase
    · cases hphase
    · cases hphase
  · rw [habsent]
    intro hphase
    cases hphase

theorem create_sound (config : NodeConfig) : Sound config [] (create config) := by
  constructor
  · constructor
    · rfl
    · rfl
    · exact Int.natCast_nonneg _
    · exact Int.natCast_nonneg _
    · rfl
    · rfl
  · apply Orderly.of_absent rfl
    intro id connection h
    cases h

theorem Balanced.transfer {config : NodeConfig} {held owned : List Nat}
    {loop next : EventLoop}
    (h : Balanced config held loop)
    (hperm : (next.reservations ++ owned).Perm (loop.reservations ++ held))
    (hconfig : next.config = loop.config) (hevents : next.inboundEvents = loop.inboundEvents)
    (hbytes : next.inboundBytes = loop.inboundBytes) (hfaults : next.faults = loop.faults) :
    Balanced config owned next := by
  constructor
  · rw [hevents, h.events, hperm.length_eq]
  · rw [hbytes, h.bytes, hperm.sum_eq]
  · rw [hevents, hconfig]
    exact h.maxEvents
  · rw [hbytes, hconfig]
    exact h.maxBytes
  · rw [hfaults]
    exact h.faults
  · rw [hconfig]
    exact h.configured

/-!
## Reserving, releasing and queueing
-/

section Primitives

variable {config : NodeConfig} {held : List Nat} {size : Nat} {loop : EventLoop}

def reserved (size : Nat) (loop : EventLoop) : EventLoop :=
  { loop with
    inboundEvents := loop.inboundEvents + 1
    inboundBytes := loop.inboundBytes + size }

def released (size : Nat) (loop : EventLoop) : EventLoop :=
  { loop with
    inboundEvents := loop.inboundEvents - 1
    inboundBytes := loop.inboundBytes - size }

def queued (event : Event) (loop : EventLoop) : EventLoop :=
  { loop with events := loop.events ++ [event] }

theorem reserve_cases (size : Nat) (loop : EventLoop) :
    reserve size loop = .ok false loop ∨
      (reserve size loop = .ok true (loop.reserved size) ∧ loop.state = .running ∧
        loop.inboundEvents < loop.config.inboundMaxEvents ∧
        loop.inboundBytes + size ≤ loop.config.inboundMaxBytes) := by
  by_cases h : loop.state ≠ .running ∨
      (loop.config.inboundMaxEvents : Int) ≤ loop.inboundEvents ∨
      (loop.config.inboundMaxBytes : Int) < loop.inboundBytes + size
  · apply Or.inl
    change (if _ then _ else _ : LoopM Bool) loop = _
    rw [if_pos h]
    rfl
  · apply Or.inr
    constructor
    · change (if _ then _ else _ : LoopM Bool) loop = _
      rw [if_neg h]
      rfl
    · rw [not_or, not_or, not_not, Int.not_le, Int.not_lt] at h
      exact h

theorem Sound.reserved (h : Sound config held loop)
    (hevents : loop.inboundEvents < loop.config.inboundMaxEvents)
    (hbytes : loop.inboundBytes + size ≤ loop.config.inboundMaxBytes) :
    Sound config (size :: held) (loop.reserved size) := by
  constructor
  · constructor
    · change loop.inboundEvents + 1 = ((loop.reservations ++ size :: held).length : Int)
      rw [h.balanced.events]
      simp only [List.length_append, List.length_cons]
      omega
    · change loop.inboundBytes + size = ((loop.reservations ++ size :: held).sum : Int)
      rw [h.balanced.bytes]
      simp only [List.sum_append, List.sum_cons]
      omega
    · exact hevents
    · exact hbytes
    · exact h.balanced.faults
    · exact h.balanced.configured
  · exact { h.orderly with }

theorem release_run (h : Sound config (size :: held) loop) :
    release size loop = .ok () (loop.released size) := by
  have hevents := h.balanced.events
  have hbytes := h.balanced.bytes
  simp only [List.length_append, List.length_cons, List.sum_append, List.sum_cons]
    at hevents hbytes
  have hneg : ¬ (loop.inboundEvents - 1 < 0 ∨ loop.inboundBytes - size < 0) := by omega
  change (if _ then _ else _ : LoopM Unit) (loop.released size) = _
  rw [if_neg hneg]
  rfl

theorem Sound.released (h : Sound config (size :: held) loop) :
    Sound config held (loop.released size) := by
  have hevents := h.balanced.events
  have hbytes := h.balanced.bytes
  have hmaxEvents := h.balanced.maxEvents
  have hmaxBytes := h.balanced.maxBytes
  simp only [List.length_append, List.length_cons, List.sum_append, List.sum_cons]
    at hevents hbytes
  constructor
  · constructor
    · change loop.inboundEvents - 1 = ((loop.reservations ++ held).length : Int)
      rw [List.length_append]
      omega
    · change loop.inboundBytes - size = ((loop.reservations ++ held).sum : Int)
      rw [List.sum_append]
      omega
    · change loop.inboundEvents - 1 ≤ (loop.config.inboundMaxEvents : Int)
      omega
    · change loop.inboundBytes - size ≤ (loop.config.inboundMaxBytes : Int)
      omega
    · exact h.balanced.faults
    · exact h.balanced.configured
  · exact { h.orderly with }

theorem putNowait_run {event : Event} (h : Sound config (event.size :: held) loop) :
    putNowait event loop = .ok () (loop.queued event) := by
  have hevents := h.balanced.events
  have hmaxEvents := h.balanced.maxEvents
  unfold reservations at hevents
  simp only [List.length_append, List.length_cons, List.length_map] at hevents
  have hroom : ¬ loop.config.inboundMaxEvents ≤ loop.events.length := by omega
  change (if _ then _ else _ : LoopM Unit) loop = _
  rw [if_neg hroom]
  rfl

theorem Sound.queued {event : Event} (h : Sound config (event.size :: held) loop)
    (hrunning : loop.state = .running) : Sound config held (loop.queued event) := by
  constructor
  · have hperm : ((loop.queued event).reservations ++ held).Perm
        (loop.reservations ++ event.size :: held) := by
      change ((loop.events ++ [event]).map Event.size ++ loop.reading ++ loop.dispatching ++
        held).Perm (loop.events.map Event.size ++ loop.reading ++ loop.dispatching ++
          event.size :: held)
      rw [List.map_append, List.append_assoc, List.append_assoc, List.append_assoc,
        List.append_assoc, List.append_assoc]
      apply List.Perm.append_left
      rw [List.map_singleton, List.singleton_append, ← List.append_assoc,
        ← List.append_assoc]
      exact List.perm_middle.symm
    exact h.balanced.transfer hperm rfl rfl rfl rfl
  · have habsent : loop.cleanupTask = .absent := by
      apply h.orderly.absent
      rw [hrunning]
      decide
    exact Orderly.of_absent habsent h.orderly.connections

end Primitives

/-!
## Connections
-/

def replace (loop : EventLoop) (id : Str) (connection : Connection) : EventLoop :=
  { loop with connections := loop.connections.modify id (fun _ => connection) }

section Connections

variable {config : NodeConfig} {held owned : List Nat} {loop : EventLoop} {id : Str}
  {connection next : Connection}

theorem get?_replace (hget : loop.connections.get? id = some connection) (other : Str) :
    (loop.replace id next).connections.get? other =
      if other = id then some next else loop.connections.get? other := by
  change (loop.connections.modify id _).get? other = _
  rw [Dict.get?_modify]
  by_cases h : other = id
  · rw [if_pos h, if_pos h, h, hget]
    rfl
  · rw [if_neg h, if_neg h]

theorem get?_replace_self (hget : loop.connections.get? id = some connection) :
    (loop.replace id next).connections.get? id = some next := by
  rw [get?_replace hget, if_pos rfl]

theorem replace_replace (later : Connection) :
    (loop.replace id next).replace id later = loop.replace id later := by
  unfold replace
  rw [Dict.modify_modify]

theorem reading_replace (hget : loop.connections.get? id = some connection) :
    ((loop.replace id next).reading ++ connection.reader.owned).Perm
      (loop.reading ++ next.reader.owned) := by
  rcases Dict.values_modify_split hget with ⟨front, back, hvalues, hmodify⟩
  have hreading : loop.reading =
      front.flatMap (fun connection => connection.reader.owned) ++
        (connection.reader.owned ++
          back.flatMap (fun connection => connection.reader.owned)) := by
    unfold reading
    rw [hvalues, List.flatMap_append, List.flatMap_cons]
  have hnext : (loop.replace id next).reading =
      front.flatMap (fun connection => connection.reader.owned) ++
        (next.reader.owned ++ back.flatMap (fun connection => connection.reader.owned)) := by
    change (loop.connections.modify id (fun _ => next)).values.flatMap _ = _
    rw [hmodify, List.flatMap_append, List.flatMap_cons]
  rw [hreading, hnext, List.perm_iff_count]
  intro size
  simp only [List.count_append]
  omega

theorem Sound.replace (h : Sound config held loop)
    (hget : loop.connections.get? id = some connection)
    (howned : (next.reader.owned ++ owned).Perm (connection.reader.owned ++ held))
    (hnext : next.Orderly)
    (hdone : connection.closeTask = .done -> next.closeTask = .done) :
    Sound config owned (loop.replace id next) := by
  constructor
  · have hperm : ((loop.replace id next).reservations ++ owned).Perm
        (loop.reservations ++ held) := by
      change (loop.events.map Event.size ++ (loop.replace id next).reading ++
        loop.dispatching ++ owned).Perm (loop.events.map Event.size ++ loop.reading ++
          loop.dispatching ++ held)
      rw [List.perm_iff_count]
      intro size
      have hsplit : ((loop.replace id next).reading ++ connection.reader.owned).Perm
          (loop.reading ++ next.reader.owned) := reading_replace hget
      have hreading := hsplit.count_eq size
      have hcount := howned.count_eq size
      simp only [List.count_append] at hreading hcount ⊢
      omega
    exact h.balanced.transfer hperm rfl rfl rfl rfl
  · refine ⟨?_, h.orderly.halted, h.orderly.joined, ?_, h.orderly.drained⟩
    · intro other found hfound
      rw [get?_replace hget] at hfound
      by_cases hother : other = id
      · rw [if_pos hother] at hfound
        rw [← Option.some.inj hfound]
        exact hnext
      · rw [if_neg hother] at hfound
        exact h.orderly.connections other found hfound
    · intro hclosed other found hfound
      have hall := h.orderly.closed hclosed
      rw [get?_replace hget] at hfound
      by_cases hother : other = id
      · rw [if_pos hother] at hfound
        rw [← Option.some.inj hfound]
        exact hdone (hall id connection hget)
      · rw [if_neg hother] at hfound
        exact hall other found hfound

end Connections

/-!
## Stopping
-/

section Stopping

variable {config : NodeConfig} {held : List Nat} {loop : EventLoop}

/-- A change that touches neither reservations nor connections. -/
structure Frame (loop next : EventLoop) : Prop where
  config : next.config = loop.config
  inboundEvents : next.inboundEvents = loop.inboundEvents
  inboundBytes : next.inboundBytes = loop.inboundBytes
  events : next.events = loop.events
  connections : next.connections = loop.connections
  dispatching : next.dispatching = loop.dispatching
  faults : next.faults = loop.faults

theorem Frame.balanced {next : EventLoop} (hframe : Frame loop next)
    (h : Balanced config held loop) : Balanced config held next := by
  have hreservations : next.reservations = loop.reservations := by
    unfold reservations reading
    rw [hframe.events, hframe.connections, hframe.dispatching]
  apply h.transfer _ hframe.config hframe.inboundEvents hframe.inboundBytes hframe.faults
  rw [hreservations]

theorem Frame.sound_of_absent {next : EventLoop} (hframe : Frame loop next)
    (h : Sound config held loop) (habsent : next.cleanupTask = .absent) :
    Sound config held next := by
  constructor
  · exact hframe.balanced h.balanced
  · apply Orderly.of_absent habsent
    rw [hframe.connections]
    exact h.orderly.connections

theorem Frame.sound_of_halted {next : EventLoop} (hframe : Frame loop next)
    (h : Sound config held loop) (hdispatcher : next.dispatcherTask = loop.dispatcherTask)
    (hcleanup : next.cleanupTask = loop.cleanupTask)
    (hhalted : loop.cleanupTask ≠ .absent -> next.state.Halted) :
    Sound config held next := by
  constructor
  · exact hframe.balanced h.balanced
  · have hended : next.DispatcherEnded = loop.DispatcherEnded := by
      unfold DispatcherEnded
      rw [hdispatcher]
    constructor
    · rw [hframe.connections]
      exact h.orderly.connections
    · rw [hcleanup]
      exact hhalted
    · rw [hcleanup, hended]
      exact h.orderly.joined
    · rw [hcleanup, hframe.connections]
      exact h.orderly.closed
    · rw [hcleanup, hframe.events]
      exact h.orderly.drained

theorem Frame.sound_of_ended {next : EventLoop} (hframe : Frame loop next)
    (h : Sound config held loop) (hended : next.DispatcherEnded = true)
    (hcleanup : next.cleanupTask = loop.cleanupTask) (hstate : next.state = loop.state) :
    Sound config held next := by
  constructor
  · exact hframe.balanced h.balanced
  · constructor
    · rw [hframe.connections]
      exact h.orderly.connections
    · rw [hcleanup, hstate]
      exact h.orderly.halted
    · intro _
      exact hended
    · rw [hcleanup, hframe.connections]
      exact h.orderly.closed
    · rw [hcleanup, hframe.events]
      exact h.orderly.drained

/-- The state after `_begin_stop`. -/
def stopBegun (loop : EventLoop) : EventLoop :=
  if loop.cleanupTask = .absent then
    { loop with
      state := if loop.state = .failed then .failed else .stopping
      cleanupTask := .scheduled }
  else loop

theorem beginStop_run (loop : EventLoop) : beginStop loop = .ok () loop.stopBegun := rfl

theorem Sound.stopBegun (h : Sound config held loop) :
    Sound config held loop.stopBegun := by
  unfold EventLoop.stopBegun
  by_cases habsent : loop.cleanupTask = .absent
  · rw [if_pos habsent]
    constructor
    · have hframe : Frame loop
          { loop with
            state := if loop.state = .failed then .failed else .stopping
            cleanupTask := .scheduled } := ⟨rfl, rfl, rfl, rfl, rfl, rfl, rfl⟩
      exact hframe.balanced h.balanced
    · constructor
      · exact h.orderly.connections
      · intro _
        change (if loop.state = .failed then NodeState.failed else .stopping).Halted
        by_cases hfailed : loop.state = .failed
        · rw [if_pos hfailed]
          decide
        · rw [if_neg hfailed]
          decide
      · intro hphase
        rcases hphase with hphase | hphase | hphase
        · cases hphase
        · cases hphase
        · cases hphase
      · intro hphase
        rcases hphase with hphase | hphase
        · cases hphase
        · cases hphase
      · intro hphase
        cases hphase
  · rw [if_neg habsent]
    exact h

/-- The state after `_fatal`. -/
def failing (loop : EventLoop) : EventLoop :=
  if loop.state = .stopping ∨ loop.state = .stopped ∨ loop.state = .failed then loop
  else { loop with state := .failed }.stopBegun

theorem fatal_run (loop : EventLoop) : fatal loop = .ok () loop.failing := by
  unfold failing
  by_cases hhalted : loop.state = .stopping ∨ loop.state = .stopped ∨ loop.state = .failed
  · change (if _ then _ else _ : LoopM Unit) loop = _
    rw [if_pos hhalted, if_pos hhalted]
    rfl
  · change (if _ then _ else _ : LoopM Unit) loop = _
    rw [if_neg hhalted, if_neg hhalted]
    rfl

theorem Sound.failing (h : Sound config held loop) : Sound config held loop.failing := by
  unfold EventLoop.failing
  by_cases hhalted : loop.state = .stopping ∨ loop.state = .stopped ∨ loop.state = .failed
  · rw [if_pos hhalted]
    exact h
  · rw [if_neg hhalted]
    have hframe : Frame loop { loop with state := .failed } :=
      ⟨rfl, rfl, rfl, rfl, rfl, rfl, rfl⟩
    apply Sound.stopBegun
    exact hframe.sound_of_absent h (h.orderly.absent hhalted)

theorem dispatcherTask_failing (loop : EventLoop) :
    loop.failing.dispatcherTask = loop.dispatcherTask := by
  unfold failing stopBegun
  by_cases hhalted : loop.state = .stopping ∨ loop.state = .stopped ∨ loop.state = .failed
  · rw [if_pos hhalted]
  · rw [if_neg hhalted]
    by_cases habsent : loop.cleanupTask = .absent
    · rw [if_pos habsent]
    · rw [if_neg habsent]

/-- The state after the startup has raised. -/
def startRaised (loop : EventLoop) : EventLoop :=
  stopBegun { loop with
    state :=
      if loop.state = .stopping ∨ loop.state = .stopped then loop.state else .failed }

theorem startRaises_run (loop : EventLoop) :
    startRaises loop = .ok () loop.startRaised := rfl

theorem Sound.startRaised (h : Sound config held loop) :
    Sound config held loop.startRaised := by
  apply Sound.stopBegun
  have hframe : Frame loop
      { loop with
        state :=
          if loop.state = .stopping ∨ loop.state = .stopped then loop.state
          else .failed } := ⟨rfl, rfl, rfl, rfl, rfl, rfl, rfl⟩
  apply hframe.sound_of_halted h rfl rfl
  intro _
  by_cases hstopping : loop.state = .stopping ∨ loop.state = .stopped
  · rw [if_pos hstopping]
    rcases hstopping with hstate | hstate
    · exact Or.inl hstate
    · exact Or.inr (Or.inl hstate)
  · rw [if_neg hstopping]
    exact Or.inr (Or.inr rfl)

end Stopping

end EventLoop

end Network

end PyChain
