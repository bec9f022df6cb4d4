import Mathlib.Algebra.Order.Ring.Unbundled.Rat
import Mathlib.Data.List.Sort
import PyChain.Foundation.Dict
import PyChain.Foundation.Machine
import PyChain.Network.Config

/-!
# Peer candidates

The bounded set of endpoints a node may dial, with their retry schedule.  Clock
readings and the random factor of a backoff are arguments.
-/

namespace PyChain

open Foundation

namespace Network

structure Candidate where
  endpoint : Endpoint
  seed : Bool
  seenAt : Rat
  /-- No time at all while the endpoint is connected. -/
  nextAttempt : Option Rat
  attempts : Nat
  cycleStarted : Option Rat
  dialing : Bool
  connected : Bool
  verified : Bool
deriving DecidableEq, Repr

structure PeerManager where
  entries : Dict Endpoint Candidate
  selfEndpoint : Option Endpoint
deriving DecidableEq

namespace PeerManager

def MAX_ATTEMPTS : Nat := 3

def COOLDOWN : Rat := 300

def expire (config : NodeConfig) (now : Rat) (manager : PeerManager) : PeerManager :=
  { manager with
    entries := manager.entries.filter (fun item =>
      item.2.seed || item.2.connected || item.2.dialing ||
        decide (now - item.2.seenAt < config.candidateTtl)) }

/-- Verified listen endpoints, in the order of their discovery. -/
def knownEndpoints (manager : PeerManager) : List Endpoint :=
  (manager.entries.values.filter Candidate.verified).map Candidate.endpoint

def newCandidate (endpoint : Endpoint) (seed : Bool) (now : Rat) : Candidate :=
  { endpoint := endpoint
    seed := seed
    seenAt := now
    nextAttempt := some now
    attempts := 0
    cycleStarted := none
    dialing := false
    connected := false
    verified := false }

/-- Candidates that a seed may displace. -/
def removable (manager : PeerManager) : List Candidate :=
  manager.entries.values.filter
    (fun entry => !entry.seed && !entry.connected && !entry.dialing)

def addCandidate (config : NodeConfig) (now : Rat) (endpoint : Endpoint) (seed : Bool)
    (manager : PeerManager) : Except PyError (Bool × PeerManager) := do
  let endpoint <- config.validateEndpoint endpoint.host endpoint.port
  if manager.selfEndpoint = some endpoint then return (false, manager)
  else
    let manager := manager.expire config now
    match manager.entries.get? endpoint with
    | some entry =>
        let entry := { entry with seenAt := now, seed := entry.seed || seed }
        return (false, { manager with entries := manager.entries.set endpoint entry })
    | none =>
        let entry := newCandidate endpoint seed now
        if config.maxCandidates ≤ manager.entries.size then
          match seed, List.argmin Candidate.seenAt manager.removable with
          | true, some victim =>
              return (true,
                { manager with
                  entries := (manager.entries.erase victim.endpoint).set endpoint entry })
          | _, _ => return (false, manager)
        else
          return (true, { manager with entries := manager.entries.set endpoint entry })

/-- The order in which candidates are dialled. -/
def dueLe (a b : Candidate) : Bool :=
  let key (entry : Candidate) : Nat × Rat × Str × Nat :=
    (if entry.seed then 0 else 1, entry.nextAttempt.getD 0, entry.endpoint.host,
      entry.endpoint.port)
  let x := key a
  let y := key b
  decide (x.1 < y.1) ||
    (decide (x.1 = y.1) && (decide (x.2.1 < y.2.1) ||
      (decide (x.2.1 = y.2.1) && (decide (x.2.2.1 < y.2.2.1) ||
        (decide (x.2.2.1 = y.2.2.1) && decide (x.2.2.2 ≤ y.2.2.2))))))

def isDue (now : Rat) (entry : Candidate) : Bool :=
  !entry.connected && !entry.dialing &&
    (match entry.nextAttempt with
      | none => false
      | some time => decide (time ≤ now)) &&
    (entry.seed || decide (entry.attempts < MAX_ATTEMPTS) ||
      (match entry.cycleStarted with
        | none => true
        | some start => decide (start + COOLDOWN ≤ now)))

def dueCandidates (now : Rat) (manager : PeerManager) : List Endpoint :=
  ((manager.entries.values.filter (isDue now)).insertionSort
    (fun a b => dueLe a b = true)).map Candidate.endpoint

def backoff (config : NodeConfig) (jitter : Rat) (entry : Candidate) : Rat :=
  let exponent := min (entry.attempts - 1) 32
  let nominal := min config.reconnectMax (config.reconnectInitial * 2 ^ exponent)
  min config.reconnectMax (nominal * jitter)

/-- The part of `mark_attempt` on an entry that is there. -/
def attemptEntry (config : NodeConfig) (now jitter : Rat) (entry : Candidate) :
    Option Candidate :=
  let early : Bool :=
    match entry.nextAttempt with
    | none => true
    | some time => decide (now < time)
  if entry.connected || entry.dialing || early then none
  else
    let restarts : Bool :=
      match entry.cycleStarted with
      | none => true
      | some start => decide (start + COOLDOWN ≤ now)
    let entry :=
      if restarts then
        { entry with
          attempts := if entry.seed then entry.attempts else 0
          cycleStarted := some now }
      else entry
    if entry.seed = false ∧ MAX_ATTEMPTS ≤ entry.attempts then none
    else
      let entry :=
        { entry with attempts := min (entry.attempts + 1) (2 ^ 31 - 1), dialing := true }
      let next := now + backoff config jitter entry
      let next :=
        if entry.seed = false ∧ MAX_ATTEMPTS ≤ entry.attempts then
          max next (entry.cycleStarted.getD now + COOLDOWN)
        else next
      some { entry with nextAttempt := some next }

def markAttempt (config : NodeConfig) (now jitter : Rat) (endpoint : Endpoint)
    (manager : PeerManager) : Except PyError (Bool × PeerManager) := do
  let endpoint <- config.validateEndpoint endpoint.host endpoint.port
  let manager := manager.expire config now
  let manager <-
    match manager.entries.get? endpoint with
    | some _ => pure manager
    | none => do
        let added <- manager.addCandidate config now endpoint false
        pure added.2
  match manager.entries.get? endpoint with
  | none => return (false, manager)
  | some entry =>
      match attemptEntry config now jitter entry with
      | none => return (false, manager)
      | some entry => return (true, { manager with entries := manager.entries.set endpoint entry })

def markConnected (config : NodeConfig) (now : Rat) (endpoint : Endpoint)
    (manager : PeerManager) : Except PyError (Bool × PeerManager) := do
  let endpoint <- config.validateEndpoint endpoint.host endpoint.port
  if manager.selfEndpoint = some endpoint then return (false, manager)
  else
    let manager <-
      match manager.entries.get? endpoint with
      | some _ => pure manager
      | none => do
          let added <- manager.addCandidate config now endpoint false
          pure added.2
    match manager.entries.get? endpoint with
    | none => return (false, manager)
    | some entry =>
        let entry : Candidate :=
          { entry with
            connected := true
            dialing := false
            verified := true
            seenAt := now
            attempts := 0
            cycleStarted := none
            nextAttempt := none }
        return (true, { manager with entries := manager.entries.set endpoint entry })

def markDisconnected (config : NodeConfig) (now jitter : Rat) (endpoint : Endpoint)
    (manager : PeerManager) : Except PyError PeerManager := do
  let endpoint <- config.validateEndpoint endpoint.host endpoint.port
  match manager.entries.get? endpoint with
  | none => return manager
  | some entry =>
      let retry := now + backoff config jitter entry
      let next :=
        if entry.connected then some retry
        else entry.nextAttempt.map (fun time => max time retry)
      let entry : Candidate :=
        { entry with
          connected := false
          dialing := false
          seenAt := if entry.connected then now else entry.seenAt
          nextAttempt := next }
      return { manager with entries := manager.entries.set endpoint entry }

def setSelfEndpoint (config : NodeConfig) (endpoint : Endpoint) (manager : PeerManager) :
    Except PyError PeerManager := do
  let endpoint <- config.validateEndpoint endpoint.host endpoint.port
  return { selfEndpoint := some endpoint, entries := manager.entries.erase endpoint }

/-- All candidates, in the order of their discovery. -/
def candidates (manager : PeerManager) : List Endpoint :=
  manager.entries.keys

/-- A manager knows the seeds of its configuration from the start. -/
def construct (config : NodeConfig) (now : Rat) : Except PyError PeerManager :=
  config.seeds.foldlM (fun manager endpoint =>
      Prod.snd <$> manager.addCandidate config now endpoint true)
    { entries := Dict.empty, selfEndpoint := none }

/-!
## The machine
-/

inductive Call where
  | setSelfEndpoint (endpoint : Endpoint)
  | expire
  | candidates
  | knownEndpoints
  | addCandidate (endpoint : Endpoint) (seed : Bool)
  | dueCandidates (limit : Option Int)
  | markAttempt (endpoint : Endpoint) (jitter : Rat)
  | markConnected (endpoint : Endpoint)
  | markDisconnected (endpoint : Endpoint) (jitter : Rat)
deriving DecidableEq

/-- A call with the reading of the clock. -/
structure TimedCall where
  now : Rat
  call : Call
deriving DecidableEq

inductive Answer where
  | done
  | flag (value : Bool)
  | endpoints (found : List Endpoint)
  | raised (e : PyError)
deriving DecidableEq

/-- The answer of a call that can fail; a failed call changes nothing. -/
def answered {result : Type} (manager : PeerManager) (outcome : Except PyError result)
    (answer : result -> Answer × PeerManager) : Answer × PeerManager :=
  match outcome with
  | .ok value => answer value
  | .error e => (.raised e, manager)

def perform (config : NodeConfig) (timed : TimedCall) (manager : PeerManager) :
    Answer × PeerManager :=
  match timed.call with
  | .setSelfEndpoint endpoint =>
      manager.answered (manager.setSelfEndpoint config endpoint) (fun next => (.done, next))
  | .expire => (.done, manager.expire config timed.now)
  | .candidates =>
      let manager := manager.expire config timed.now
      (.endpoints manager.candidates, manager)
  | .knownEndpoints =>
      let manager := manager.expire config timed.now
      (.endpoints manager.knownEndpoints, manager)
  | .addCandidate endpoint seed =>
      manager.answered (manager.addCandidate config timed.now endpoint seed)
        (fun added => (.flag added.1, added.2))
  | .dueCandidates limit =>
      let manager := manager.expire config timed.now
      let due := manager.dueCandidates timed.now
      (.endpoints
        (match limit with
          | none => due
          | some limit => due.take limit.toNat), manager)
  | .markAttempt endpoint jitter =>
      manager.answered (manager.markAttempt config timed.now jitter endpoint)
        (fun marked => (.flag marked.1, marked.2))
  | .markConnected endpoint =>
      manager.answered (manager.markConnected config timed.now endpoint)
        (fun marked => (.flag marked.1, marked.2))
  | .markDisconnected endpoint jitter =>
      manager.answered (manager.markDisconnected config timed.now jitter endpoint)
        (fun next => (.done, next))

def machine (config : NodeConfig) : Machine PeerManager TimedCall Answer :=
  { step := perform config }

end PeerManager

end Network

end PyChain
