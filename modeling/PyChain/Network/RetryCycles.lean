import Mathlib.Algebra.Order.Ring.Rat
import PyChain.Foundation.Clock
import PyChain.Foundation.Cycles
import PyChain.Network.Candidates

/-!
# Retry cycles

The attempts to dial an endpoint come in cycles of five minutes, at most three in each.
The state of a cycle is in the entry of the endpoint, so the bound holds as long as the
entry is not forgotten before its cycle is over.
-/

namespace PyChain

open Foundation

namespace Network

/-- The retry cycle of the entry is not over. -/
def Candidate.cycleRuns (now : Rat) (entry : Candidate) : Bool :=
  match entry.cycleStarted with
  | none => false
  | some start => decide (now < start + PeerManager.COOLDOWN)

namespace PeerManager

/-!
## Forgetting
-/

def accepted (config : NodeConfig) (endpoint : Endpoint) : Bool :=
  match config.validateEndpoint endpoint.host endpoint.port with
  | .ok _ => true
  | .error _ => false

/-- The endpoint is not among the candidates when the stale ones are removed. -/
def stale (config : NodeConfig) (now : Rat) (endpoint : Endpoint) (manager : PeerManager) :
    Bool :=
  !(manager.expire config now).entries.contains endpoint

/-- Adding a seed to a full manager removes the endpoint. -/
def displaced (config : NodeConfig) (now : Rat) (endpoint seed : Endpoint)
    (manager : PeerManager) : Bool :=
  let manager := manager.expire config now
  !manager.entries.contains seed && decide (config.maxCandidates ≤ manager.entries.size) &&
    decide ((List.argmin Candidate.seenAt manager.removable).map Candidate.endpoint =
      some endpoint)

/-- A call that removes the entry of an endpoint: because it is stale, for the sake of a
seed, or because it is the endpoint of the node itself. -/
def forgets (config : NodeConfig) (endpoint : Endpoint) (timed : TimedCall)
    (manager : PeerManager) : Bool :=
  match timed.call with
  | .setSelfEndpoint other => decide (other = endpoint)
  | .addCandidate other seed =>
      accepted config other && !decide (manager.selfEndpoint = some other) &&
        (manager.stale config timed.now endpoint ||
          (seed && manager.displaced config timed.now endpoint other))
  | .markAttempt other _ => accepted config other && manager.stale config timed.now endpoint
  | .markConnected other =>
      accepted config other && !decide (manager.selfEndpoint = some other) &&
        (!manager.entries.contains other && manager.stale config timed.now endpoint)
  | .markDisconnected _ _ => false
  | _ => manager.stale config timed.now endpoint

/-- The call does not remove the entry of an endpoint whose cycle is not over. -/
def keepsCycle (config : NodeConfig) (endpoint : Endpoint) (timed : TimedCall)
    (manager : PeerManager) : Bool :=
  match manager.entries.get? endpoint with
  | none => true
  | some entry => !(entry.cycleRuns timed.now && forgets config endpoint timed manager)

/-- No call of a run removes the entry of an endpoint whose cycle is not over. -/
def keepsCycles (config : NodeConfig) (endpoint : Endpoint) :
    List TimedCall -> PeerManager -> Bool
  | [], _ => true
  | timed :: rest, manager =>
      keepsCycle config endpoint timed manager &&
        keepsCycles config endpoint rest (perform config timed manager).2

/-- The time of a call that lets an endpoint be dialled. -/
def dialledAt (config : NodeConfig) (endpoint : Endpoint) (timed : TimedCall)
    (manager : PeerManager) : List Rat :=
  match timed.call with
  | .markAttempt other _ =>
      if other = endpoint ∧ (perform config timed manager).1 = .flag true then [timed.now]
      else []
  | _ => []

/-- The times at which calls let an endpoint be dialled. -/
def dials (config : NodeConfig) (endpoint : Endpoint) (calls : List TimedCall)
    (manager : PeerManager) : List Rat :=
  (machine config).trace (dialledAt config endpoint) calls manager

/-!
## The entry of an endpoint
-/

/-- What a call without an attempt can do to the entry of an endpoint. -/
inductive EntryStep (forgets : Bool) : Option Candidate -> Option Candidate -> Prop
  | kept {old new : Candidate} : new.seed = old.seed -> new.cycleStarted = old.cycleStarted ->
      new.attempts = old.attempts -> EntryStep forgets (some old) (some new)
  | absent : EntryStep forgets none none
  | found {new : Candidate} : new.seed = false -> new.cycleStarted = none ->
      EntryStep forgets none (some new)
  | forgotten {old : Candidate} : forgets = true -> EntryStep forgets (some old) none
  | renewed {old new : Candidate} : forgets = true -> new.seed = false ->
      new.cycleStarted = none -> EntryStep forgets (some old) (some new)

namespace EntryStep

variable {forgets : Bool} {before middle after : Option Candidate}

theorem refl (forgets : Bool) (entry : Option Candidate) : EntryStep forgets entry entry := by
  cases entry with
  | none => exact absent
  | some entry => exact kept rfl rfl rfl

theorem of_eq (h : after = before) : EntryStep forgets before after := by
  rw [h]
  exact refl forgets before

theorem trans (h : EntryStep forgets before middle) (hnext : EntryStep forgets middle after) :
    EntryStep forgets before after := by
  cases h with
  | kept hseed hcycle hattempts =>
      cases hnext with
      | kept hseed' hcycle' hattempts' =>
          exact kept (hseed'.trans hseed) (hcycle'.trans hcycle) (hattempts'.trans hattempts)
      | forgotten hforgets => exact forgotten hforgets
      | renewed hforgets hseed' hcycle' => exact renewed hforgets hseed' hcycle'
  | absent => exact hnext
  | found hseed hcycle =>
      cases hnext with
      | kept hseed' hcycle' _ => exact found (hseed'.trans hseed) (hcycle'.trans hcycle)
      | forgotten _ => exact absent
      | renewed _ hseed' hcycle' => exact found hseed' hcycle'
  | forgotten hforgets =>
      cases hnext with
      | absent => exact forgotten hforgets
      | found hseed hcycle => exact renewed hforgets hseed hcycle
  | renewed hforgets hseed hcycle =>
      cases hnext with
      | kept hseed' hcycle' _ =>
          exact renewed hforgets (hseed'.trans hseed) (hcycle'.trans hcycle)
      | forgotten _ => exact forgotten hforgets
      | renewed _ hseed' hcycle' => exact renewed hforgets hseed' hcycle'

theorem mono {more : Bool} (h : EntryStep forgets before after)
    (hle : forgets = true -> more = true) : EntryStep more before after := by
  cases h with
  | kept hseed hcycle hattempts => exact kept hseed hcycle hattempts
  | absent => exact absent
  | found hseed hcycle => exact found hseed hcycle
  | forgotten hforgets => exact forgotten (hle hforgets)
  | renewed hforgets hseed hcycle => exact renewed (hle hforgets) hseed hcycle

end EntryStep

section Entries

variable {config : NodeConfig} {manager next : PeerManager} {now jitter : Rat}
  {endpoint other : Endpoint}

theorem get?_expire (config : NodeConfig) (now : Rat) (manager : PeerManager)
    (endpoint : Endpoint) :
    (manager.expire config now).entries.get? endpoint = manager.entries.get? endpoint ∨
      (manager.expire config now).entries.get? endpoint = none := by
  cases hget : (manager.expire config now).entries.get? endpoint with
  | none => exact Or.inr rfl
  | some entry => exact Or.inl ((Dict.get?_filter _ _ _ _).mp hget).left.symm

theorem stale_eq_true_iff : manager.stale config now endpoint = true <->
    (manager.expire config now).entries.get? endpoint = none := by
  unfold stale Dict.contains
  cases (manager.expire config now).entries.get? endpoint with
  | none => simp
  | some entry => simp

theorem expire_step (config : NodeConfig) (now : Rat) (manager : PeerManager)
    (endpoint : Endpoint) :
    EntryStep (manager.stale config now endpoint) (manager.entries.get? endpoint)
      ((manager.expire config now).entries.get? endpoint) := by
  rcases get?_expire config now manager endpoint with hsame | hnone
  · exact EntryStep.of_eq hsame
  · rw [hnone]
    cases manager.entries.get? endpoint with
    | none => exact EntryStep.absent
    | some entry => exact EntryStep.forgotten (stale_eq_true_iff.mpr hnone)

theorem expire_expire : (manager.expire config now).expire config now =
    manager.expire config now := by
  unfold expire Dict.filter
  simp only [PeerManager.mk.injEq, Dict.mk.injEq, and_true]
  rw [List.filter_filter]
  simp only [Bool.and_self]

theorem accepted_of_accepts (h : config.Accepts other) : accepted config other = true := by
  unfold accepted
  rw [h]

theorem addCandidate_cases {seed : Bool} {added : Bool × PeerManager}
    (hadded : manager.addCandidate config now other seed = .ok added) :
    config.Accepts other ∧
      ((manager.selfEndpoint = some other ∧ added.2 = manager) ∨
        manager.selfEndpoint ≠ some other ∧
        ((exists entry, (manager.expire config now).entries.get? other = some entry ∧
            added.2.entries = (manager.expire config now).entries.set other
              { entry with seenAt := now, seed := entry.seed || seed }) ∨
          (manager.expire config now).entries.get? other = none ∧
            ((exists victim,
                List.argmin Candidate.seenAt (manager.expire config now).removable =
                  some victim ∧
                seed = true ∧
                config.maxCandidates ≤ (manager.expire config now).entries.size ∧
                added.2.entries = ((manager.expire config now).entries.erase
                  victim.endpoint).set other (newCandidate other seed now)) ∨
              added.2 = manager.expire config now ∨
              added.2.entries = (manager.expire config now).entries.set other
                (newCandidate other seed now)))) := by
  unfold addCandidate at hadded
  rcases bind_eq_ok_iff.mp hadded with ⟨found, hfound, hadded⟩
  rcases validateEndpoint_accepted hfound with ⟨hsame, haccepts⟩
  rw [hsame] at hadded
  refine ⟨haccepts, ?_⟩
  simp only at hadded
  split at hadded
  next hself =>
    cases hadded
    exact Or.inl ⟨hself, rfl⟩
  next hself =>
    refine Or.inr ⟨hself, ?_⟩
    split at hadded
    next entry hentry =>
      cases hadded
      exact Or.inl ⟨entry, hentry, rfl⟩
    next hnone =>
      refine Or.inr ⟨hnone, ?_⟩
      split at hadded
      next hfull =>
        split at hadded
        next victim hvictim _ =>
          cases hadded
          exact Or.inl ⟨victim, hvictim, rfl, hfull, rfl⟩
        next =>
          cases hadded
          exact Or.inr (Or.inl rfl)
      next =>
        cases hadded
        exact Or.inr (Or.inr rfl)

theorem addCandidate_step {seed : Bool} {added : Bool × PeerManager}
    (hadded : manager.addCandidate config now other seed = .ok added)
    (hseed : other = endpoint -> seed = false) :
    EntryStep (forgets config endpoint { now := now, call := .addCandidate other seed } manager)
      (manager.entries.get? endpoint) (added.2.entries.get? endpoint) := by
  rcases addCandidate_cases hadded with ⟨haccepts, ⟨_, hsame⟩ | ⟨hself, hcases⟩⟩
  · rw [hsame]
    exact EntryStep.refl _ _
  have hforgets : forall reason, reason = true ->
      (reason = manager.stale config now endpoint ∨
        reason = (seed && manager.displaced config now endpoint other)) ->
      forgets config endpoint { now := now, call := .addCandidate other seed } manager = true := by
    intro reason hreason hwhich
    unfold forgets
    dsimp only
    rw [accepted_of_accepts haccepts, decide_eq_false hself, Bool.not_false, Bool.true_and,
      Bool.true_and, Bool.or_eq_true]
    rcases hwhich with hwhich | hwhich
    · exact Or.inl (hwhich.symm.trans hreason)
    · exact Or.inr (hwhich.symm.trans hreason)
  have hexpire := (expire_step config now manager endpoint).mono
    (fun hstale => hforgets _ hstale (Or.inl rfl))
  refine hexpire.trans ?_
  rcases hcases with ⟨entry, hentry, hset⟩ | ⟨hnone, hcases⟩
  · rw [hset, Dict.get?_set]
    by_cases hother : endpoint = other
    · rw [if_pos hother, hother, hentry]
      have hplain : seed = false := hseed hother.symm
      refine EntryStep.kept ?_ rfl rfl
      show (entry.seed || seed) = entry.seed
      rw [hplain, Bool.or_false]
    · rw [if_neg hother]
      exact EntryStep.refl _ _
  · rcases hcases with ⟨victim, hvictim, hplain, hfull, hset⟩ | hsame | hset
    · have hother : endpoint ≠ other := by
        intro heq
        rw [hseed heq.symm] at hplain
        cases hplain
      rw [hset, Dict.get?_set, if_neg hother, Dict.get?_erase]
      by_cases hend : endpoint = victim.endpoint
      · rw [if_pos hend]
        have hdisplaced : (seed && manager.displaced config now endpoint other) = true := by
          unfold displaced Dict.contains
          dsimp only
          rw [hplain, hnone, hvictim, hend]
          simp [hfull]
        cases (manager.expire config now).entries.get? endpoint with
        | none => exact EntryStep.absent
        | some entry => exact EntryStep.forgotten (hforgets _ hdisplaced (Or.inr rfl))
      · rw [if_neg hend]
        exact EntryStep.refl _ _
    · rw [hsame]
      exact EntryStep.refl _ _
    · rw [hset, Dict.get?_set]
      by_cases hother : endpoint = other
      · rw [if_pos hother, hother, hnone]
        exact EntryStep.found (hseed hother.symm) rfl
      · rw [if_neg hother]
        exact EntryStep.refl _ _

theorem discover_step {added : Bool × PeerManager}
    (hadded : manager.addCandidate config now other false = .ok added) :
    EntryStep (manager.stale config now endpoint) (manager.entries.get? endpoint)
      (added.2.entries.get? endpoint) := by
  refine (addCandidate_step hadded (fun _ => rfl)).mono ?_
  intro hforgets
  unfold forgets at hforgets
  dsimp only at hforgets
  rw [Bool.false_and, Bool.or_false, Bool.and_eq_true] at hforgets
  exact hforgets.right

theorem withEntry_step (hnext : manager.withEntry config now other = .ok next) :
    EntryStep (!manager.entries.contains other && manager.stale config now endpoint)
      (manager.entries.get? endpoint) (next.entries.get? endpoint) := by
  unfold withEntry at hnext
  split at hnext
  next =>
    cases hnext
    exact EntryStep.refl _ _
  next hnone =>
    rcases map_eq_ok_iff.mp hnext with ⟨added, hadded, heq⟩
    rw [← heq]
    refine (discover_step hadded).mono ?_
    intro hstale
    unfold Dict.contains
    rw [hnone, hstale]
    rfl

theorem attempt_step (hnext : (manager.expire config now).withEntry config now other = .ok next) :
    EntryStep (manager.stale config now endpoint) (manager.entries.get? endpoint)
      (next.entries.get? endpoint) := by
  refine (expire_step config now manager endpoint).trans ((withEntry_step hnext).mono ?_)
  intro hboth
  rw [Bool.and_eq_true] at hboth
  have hnone := stale_eq_true_iff.mp hboth.right
  rw [expire_expire] at hnone
  exact stale_eq_true_iff.mpr hnone

theorem markAttempt_cases {marked : Bool × PeerManager}
    (hmarked : manager.markAttempt config now jitter other = .ok marked) :
    config.Accepts other ∧
      exists next, (manager.expire config now).withEntry config now other = .ok next ∧
        (marked = (false, next) ∨
          exists old new, next.entries.get? other = some old ∧
            attemptEntry config now jitter old = some new ∧
            marked = (true, { next with entries := next.entries.set other new })) := by
  have haccepts := markAttempt_accepts hmarked
  refine ⟨haccepts, ?_⟩
  rw [markAttempt_eq haccepts] at hmarked
  rcases bind_eq_ok_iff.mp hmarked with ⟨next, hnext, hmarked⟩
  refine ⟨next, hnext, ?_⟩
  split at hmarked
  next =>
    cases hmarked
    exact Or.inl rfl
  next old hold =>
    split at hmarked
    next =>
      cases hmarked
      exact Or.inl rfl
    next new hnew =>
      cases hmarked
      exact Or.inr ⟨old, new, hold, hnew, rfl⟩

theorem markConnected_cases {marked : Bool × PeerManager}
    (hmarked : manager.markConnected config now other = .ok marked) :
    config.Accepts other ∧
      (marked.2 = manager ∧ manager.selfEndpoint = some other ∨
        manager.selfEndpoint ≠ some other ∧ exists next,
          manager.withEntry config now other = .ok next ∧
          (next.entries.get? other = none ∧ marked.2 = next ∨
            exists old new, next.entries.get? other = some old ∧ new.seed = old.seed ∧
              new.cycleStarted = none ∧
              marked.2 = { next with entries := next.entries.set other new })) := by
  have haccepts : config.Accepts other := by
    unfold markConnected at hmarked
    rcases bind_eq_ok_iff.mp hmarked with ⟨found, hfound, _⟩
    exact (validateEndpoint_accepted hfound).right
  refine ⟨haccepts, ?_⟩
  by_cases hself : manager.selfEndpoint = some other
  · unfold markConnected at hmarked
    rw [haccepts] at hmarked
    simp only [bind, Except.bind] at hmarked
    rw [if_pos hself] at hmarked
    cases hmarked
    exact Or.inl ⟨rfl, hself⟩
  · rw [markConnected_eq haccepts hself] at hmarked
    rcases bind_eq_ok_iff.mp hmarked with ⟨next, hnext, hmarked⟩
    refine Or.inr ⟨hself, next, hnext, ?_⟩
    split at hmarked
    next hnone =>
      cases hmarked
      exact Or.inl ⟨hnone, rfl⟩
    next entry hentry =>
      cases hmarked
      let new : Candidate :=
        { entry with
          connected := true
          dialing := false
          verified := true
          seenAt := now
          attempts := 0
          cycleStarted := none
          nextAttempt := none }
      exact Or.inr ⟨entry, new, hentry, rfl, rfl, rfl⟩

theorem markDisconnected_step (hmarked : manager.markDisconnected config now jitter other =
    .ok next) :
    EntryStep false (manager.entries.get? endpoint) (next.entries.get? endpoint) := by
  unfold markDisconnected at hmarked
  rcases bind_eq_ok_iff.mp hmarked with ⟨found, _, hmarked⟩
  split at hmarked
  next =>
    cases hmarked
    exact EntryStep.refl _ _
  next entry hentry =>
    cases hmarked
    rw [Dict.get?_set]
    by_cases hfound : endpoint = found
    · rw [if_pos hfound, hfound, hentry]
      exact EntryStep.kept rfl rfl rfl
    · rw [if_neg hfound]
      exact EntryStep.refl _ _

theorem answered_ok {result : Type} {outcome : Except PyError result} {value : result}
    (h : outcome = .ok value) (answer : result -> Answer × PeerManager) :
    manager.answered outcome answer = answer value := by
  rw [h]
  rfl

theorem answered_error {result : Type} {outcome : Except PyError result} {e : PyError}
    (h : outcome = .error e) (answer : result -> Answer × PeerManager) :
    manager.answered outcome answer = (.raised e, manager) := by
  rw [h]
  rfl

theorem answered_step {result : Type} {outcome : Except PyError result}
    {answer : result -> Answer × PeerManager} {forgets : Bool}
    (hstep : forall value, outcome = .ok value ->
      EntryStep forgets (manager.entries.get? endpoint)
        ((answer value).2.entries.get? endpoint)) :
    EntryStep forgets (manager.entries.get? endpoint)
      ((manager.answered outcome answer).2.entries.get? endpoint) := by
  cases outcome with
  | error e => exact EntryStep.refl _ _
  | ok value => exact hstep value rfl

theorem setSelfEndpoint_step (hset : manager.setSelfEndpoint config other = .ok next) :
    EntryStep (decide (other = endpoint)) (manager.entries.get? endpoint)
      (next.entries.get? endpoint) := by
  unfold setSelfEndpoint at hset
  rcases bind_eq_ok_iff.mp hset with ⟨found, hfound, hset⟩
  rw [(validateEndpoint_accepted hfound).left] at hset
  rw [← Except.ok.inj hset]
  dsimp only
  rw [Dict.get?_erase]
  by_cases hother : endpoint = other
  · rw [if_pos hother]
    cases manager.entries.get? endpoint with
    | none => exact EntryStep.absent
    | some entry => exact EntryStep.forgotten (decide_eq_true hother.symm)
  · rw [if_neg hother]
    exact EntryStep.refl _ _

theorem markConnected_step {marked : Bool × PeerManager} (hother : endpoint ≠ other)
    (hmarked : manager.markConnected config now other = .ok marked) :
    EntryStep (forgets config endpoint { now := now, call := .markConnected other } manager)
      (manager.entries.get? endpoint) (marked.2.entries.get? endpoint) := by
  rcases markConnected_cases hmarked with
    ⟨haccepts, ⟨hsame, _⟩ | ⟨hself, next, hnext, hcases⟩⟩
  · rw [hsame]
    exact EntryStep.refl _ _
  · have hstep : EntryStep
        (forgets config endpoint { now := now, call := .markConnected other } manager)
        (manager.entries.get? endpoint) (next.entries.get? endpoint) := by
      refine (withEntry_step hnext).mono ?_
      intro hboth
      unfold forgets
      dsimp only
      rw [accepted_of_accepts haccepts, decide_eq_false hself, Bool.not_false, Bool.true_and,
        Bool.true_and]
      exact hboth
    rcases hcases with ⟨_, hsame⟩ | ⟨old, new, _, _, _, hset⟩
    · rw [hsame]
      exact hstep
    · rw [hset, Dict.get?_set, if_neg hother]
      exact hstep

theorem markAttempt_step (config : NodeConfig) (manager : PeerManager) (now jitter : Rat)
    (endpoint other : Endpoint) :
    let timed : TimedCall := { now := now, call := .markAttempt other jitter }
    (dialledAt config endpoint timed manager = [] ∧
      EntryStep (forgets config endpoint timed manager) (manager.entries.get? endpoint)
        ((perform config timed manager).2.entries.get? endpoint)) ∨
    (dialledAt config endpoint timed manager = [now] ∧
      exists old new jitter,
        EntryStep (forgets config endpoint timed manager) (manager.entries.get? endpoint)
          (some old) ∧
        attemptEntry config now jitter old = some new ∧
        (perform config timed manager).2.entries.get? endpoint = some new) := by
  intro timed
  unfold dialledAt
  dsimp only [timed]
  cases hmarked : manager.markAttempt config now jitter other with
  | error e =>
      have hperform : perform config { now := now, call := .markAttempt other jitter } manager =
          (.raised e, manager) := answered_error hmarked _
      rw [hperform]
      refine Or.inl ⟨if_neg ?_, EntryStep.refl _ _⟩
      rintro ⟨_, hflag⟩
      cases hflag
  | ok marked =>
      have hperform : perform config { now := now, call := .markAttempt other jitter } manager =
          (.flag marked.1, marked.2) := answered_ok hmarked _
      rw [hperform]
      rcases markAttempt_cases hmarked with ⟨haccepts, next, hnext, hcases⟩
      have hstep : EntryStep
          (forgets config endpoint { now := now, call := .markAttempt other jitter } manager)
          (manager.entries.get? endpoint) (next.entries.get? endpoint) := by
        unfold forgets
        dsimp only
        rw [accepted_of_accepts haccepts, Bool.true_and]
        exact attempt_step hnext
      rcases hcases with hrefused | ⟨old, new, hold, hnew, hmade⟩
      · rw [hrefused]
        refine Or.inl ⟨if_neg ?_, hstep⟩
        rintro ⟨_, hflag⟩
        cases hflag
      · rw [hmade]
        dsimp only
        rw [Dict.get?_set]
        by_cases hother : other = endpoint
        · rw [hother] at hold
          rw [hold] at hstep
          rw [if_pos hother.symm, if_pos ⟨hother, rfl⟩]
          exact Or.inr ⟨rfl, old, new, jitter, hstep, hnew, rfl⟩
        · rw [if_neg (fun hboth => hother hboth.left), if_neg (fun heq => hother heq.symm)]
          exact Or.inl ⟨rfl, hstep⟩

/-- What a call does to the entry of an endpoint, when it neither adds it as a seed nor
marks it connected. -/
theorem perform_step (timed : TimedCall) (manager : PeerManager)
    (hseed : timed.call ≠ .addCandidate endpoint true)
    (hconnected : timed.call ≠ .markConnected endpoint) :
    (dialledAt config endpoint timed manager = [] ∧
      EntryStep (forgets config endpoint timed manager) (manager.entries.get? endpoint)
        ((perform config timed manager).2.entries.get? endpoint)) ∨
    (dialledAt config endpoint timed manager = [timed.now] ∧
      exists old new jitter,
        EntryStep (forgets config endpoint timed manager) (manager.entries.get? endpoint)
          (some old) ∧
        attemptEntry config timed.now jitter old = some new ∧
        (perform config timed manager).2.entries.get? endpoint = some new) := by
  rcases timed with ⟨now, call⟩
  cases call with
  | setSelfEndpoint other =>
      exact Or.inl ⟨rfl, answered_step (fun next hset => setSelfEndpoint_step hset)⟩
  | expire => exact Or.inl ⟨rfl, expire_step config now manager endpoint⟩
  | candidates => exact Or.inl ⟨rfl, expire_step config now manager endpoint⟩
  | knownEndpoints => exact Or.inl ⟨rfl, expire_step config now manager endpoint⟩
  | addCandidate other seed =>
      refine Or.inl ⟨rfl, answered_step (fun added hadded => addCandidate_step hadded ?_)⟩
      intro hother
      cases seed with
      | false => rfl
      | true =>
          rw [hother] at hseed
          exact absurd rfl hseed
  | dueCandidates limit => exact Or.inl ⟨rfl, expire_step config now manager endpoint⟩
  | markAttempt other jitter =>
      exact markAttempt_step config manager now jitter endpoint other
  | markConnected other =>
      have hother : endpoint ≠ other := fun heq => hconnected (by rw [heq])
      exact Or.inl ⟨rfl, answered_step (fun marked hmarked =>
        markConnected_step hother hmarked)⟩
  | markDisconnected other jitter =>
      exact Or.inl ⟨rfl, answered_step (fun next hmarked => markDisconnected_step hmarked)⟩

/-!
## One attempt
-/

theorem attemptEntry_cases {old new : Candidate} (hseed : old.seed = false)
    (h : attemptEntry config now jitter old = some new) :
    new.seed = false ∧
      (((old.cycleStarted = none ∨
          exists start, old.cycleStarted = some start ∧ start + COOLDOWN ≤ now) ∧
          new.cycleStarted = some now ∧ new.attempts = 1) ∨
        exists start, old.cycleStarted = some start ∧ now < start + COOLDOWN ∧
          old.attempts < MAX_ATTEMPTS ∧ new.cycleStarted = some start ∧
          new.attempts = old.attempts + 1) := by
  unfold attemptEntry at h
  dsimp only at h
  have h := (Option.ite_none_left_eq_some.mp h).right
  have hcount : forall attempts, attempts < MAX_ATTEMPTS ->
      min (attempts + 1) (2 ^ 31 - 1) = attempts + 1 := by
    intro attempts hattempts
    unfold MAX_ATTEMPTS at hattempts
    omega
  cases hcycle : old.cycleStarted with
  | none =>
      rw [hcycle] at h
      have h := (Option.ite_none_left_eq_some.mp h).right
      rw [← Option.some.inj h]
      refine ⟨hseed, Or.inl ⟨Or.inl rfl, rfl, ?_⟩⟩
      simp only [if_true, hseed, Bool.false_eq_true, if_false]
      exact hcount 0 (by decide)
  | some start =>
      rw [hcycle] at h
      dsimp only at h
      by_cases hover : start + COOLDOWN ≤ now
      · simp only [decide_eq_true hover, if_true] at h
        have h := (Option.ite_none_left_eq_some.mp h).right
        rw [← Option.some.inj h]
        refine ⟨hseed, Or.inl ⟨Or.inr ⟨start, rfl, hover⟩, rfl, ?_⟩⟩
        simp only [hseed, Bool.false_eq_true, if_false]
        exact hcount 0 (by decide)
      · simp only [decide_eq_false hover, Bool.false_eq_true, if_false] at h
        rcases Option.ite_none_left_eq_some.mp h with ⟨hroom, h⟩
        have hless : old.attempts < MAX_ATTEMPTS := by
          apply Nat.lt_of_not_le
          intro hmany
          exact hroom ⟨hseed, hmany⟩
        rw [← Option.some.inj h]
        exact ⟨hseed, Or.inr ⟨start, rfl, not_le.mp hover, hless, hcycle, hcount _ hless⟩⟩

/-!
## Runs
-/

/-- The entry of an endpoint knows the cycle that its dials are in. -/
structure Fits (dials : List Rat) (now : Rat) (entry : Option Candidate) : Prop where
  unseeded : forall found, entry = some found -> found.seed = false
  cycle : (dials = [] ∧ forall found, entry = some found -> found.cycleStarted = none) ∨
    exists start count, Cycled MAX_ATTEMPTS COOLDOWN dials start count ∧ start ≤ now ∧
      ((exists found, entry = some found ∧ found.cycleStarted = some start ∧
          found.attempts = count) ∨
        start + COOLDOWN ≤ now ∧ forall found, entry = some found -> found.cycleStarted = none)

namespace Fits

variable {dials : List Rat} {entry after : Option Candidate} {old new : Candidate}

theorem later {late : Rat} (h : Fits dials now entry) (hlate : now ≤ late) :
    Fits dials late entry := by
  refine { unseeded := h.unseeded, cycle := ?_ }
  rcases h.cycle with hnone | ⟨start, count, hcycled, hstart, hentry⟩
  · exact Or.inl hnone
  · refine Or.inr ⟨start, count, hcycled, le_trans hstart hlate, ?_⟩
    rcases hentry with hfound | ⟨hover, hfound⟩
    · exact Or.inl hfound
    · exact Or.inr ⟨le_trans hover hlate, hfound⟩

theorem replaced (h : Fits dials now (some old)) (hruns : old.cycleRuns now = false)
    (hafter : forall found, after = some found ->
      found.seed = false ∧ found.cycleStarted = none) : Fits dials now after := by
  refine { unseeded := fun found hfound => (hafter found hfound).left, cycle := ?_ }
  have hplain := fun found hfound => (hafter found hfound).right
  rcases h.cycle with ⟨hnone, _⟩ | ⟨start, count, hcycled, hstart, hentry⟩
  · exact Or.inl ⟨hnone, hplain⟩
  · refine Or.inr ⟨start, count, hcycled, hstart, Or.inr ⟨?_, hplain⟩⟩
    rcases hentry with ⟨found, hfound, hcycle, _⟩ | ⟨hover, _⟩
    · unfold Candidate.cycleRuns at hruns
      rw [Option.some.inj hfound, hcycle] at hruns
      exact not_lt.mp (of_decide_eq_false hruns)
    · exact hover

theorem step {forgets : Bool} (h : Fits dials now entry) (hstep : EntryStep forgets entry after)
    (hkeeps : forall found, entry = some found -> forgets = true ->
      found.cycleRuns now = false) : Fits dials now after := by
  cases hstep with
  | @kept old new hseed hcycle hattempts =>
      constructor
      case unseeded =>
        intro found hfound
        rw [← Option.some.inj hfound, hseed]
        exact h.unseeded old rfl
      case cycle =>
        have hplain : (forall found, some old = some found -> found.cycleStarted = none) ->
            forall found, some new = some found -> found.cycleStarted = none := by
          intro hold found hfound
          rw [← Option.some.inj hfound, hcycle]
          exact hold old rfl
        rcases h.cycle with ⟨hnone, hold⟩ | ⟨start, count, hcycled, hstart, hentry⟩
        · exact Or.inl ⟨hnone, hplain hold⟩
        · refine Or.inr ⟨start, count, hcycled, hstart, ?_⟩
          rcases hentry with ⟨found, hfound, hfoundCycle, hcount⟩ | ⟨hover, hold⟩
          · rw [← Option.some.inj hfound] at hfoundCycle hcount
            exact Or.inl ⟨new, rfl, hcycle.trans hfoundCycle, hattempts.trans hcount⟩
          · exact Or.inr ⟨hover, hplain hold⟩
  | absent => exact h
  | @found new hseed hcycle =>
      constructor
      case unseeded =>
        intro found hfound
        rw [← Option.some.inj hfound]
        exact hseed
      case cycle =>
        have hplain : forall found, some new = some found -> found.cycleStarted = none := by
          intro found hfound
          rw [← Option.some.inj hfound]
          exact hcycle
        rcases h.cycle with ⟨hnone, _⟩ | ⟨start, count, hcycled, hstart, hentry⟩
        · exact Or.inl ⟨hnone, hplain⟩
        · rcases hentry with ⟨found, hfound, _⟩ | ⟨hover, _⟩
          · cases hfound
          · exact Or.inr ⟨start, count, hcycled, hstart, Or.inr ⟨hover, hplain⟩⟩
  | @forgotten old hforgets =>
      apply h.replaced (hkeeps old rfl hforgets)
      intro found hfound
      cases hfound
  | @renewed old new hforgets hseed hcycle =>
      apply h.replaced (hkeeps old rfl hforgets)
      intro found hfound
      rw [← Option.some.inj hfound]
      exact ⟨hseed, hcycle⟩

theorem attempt (h : Fits dials now (some old))
    (hattempt : attemptEntry config now jitter old = some new) :
    Fits (dials ++ [now]) now (some new) := by
  have hpos : 0 < MAX_ATTEMPTS := by decide
  rcases attemptEntry_cases (h.unseeded old rfl) hattempt with ⟨hseed, hcases⟩
  constructor
  case unseeded =>
    intro found hfound
    rw [← Option.some.inj hfound]
    exact hseed
  case cycle =>
    apply Or.inr
    rcases hcases with ⟨hstarts, hcycle, hcount⟩ | ⟨start, hold, hinside, hroom, hcycle, hcount⟩
    · refine ⟨now, 1, ?_, le_refl now, Or.inl ⟨new, rfl, hcycle, hcount⟩⟩
      rcases h.cycle with ⟨hnone, _⟩ | ⟨start, count, hcycled, _, hentry⟩
      · rw [hnone]
        exact Cycled.first now hpos
      · apply hcycled.next now hpos
        rcases hentry with ⟨found, hfound, hfoundCycle, _⟩ | ⟨hover, _⟩
        · rw [← Option.some.inj hfound] at hfoundCycle
          rcases hstarts with hstarts | ⟨other, hother, hover⟩
          · rw [hstarts] at hfoundCycle
            cases hfoundCycle
          · rw [hother] at hfoundCycle
            rw [← Option.some.inj hfoundCycle]
            exact hover
        · exact hover
    · rcases h.cycle with ⟨_, hnone⟩ | ⟨current, count, hcycled, hstart, hentry⟩
      · rw [hnone old rfl] at hold
        cases hold
      · rcases hentry with ⟨found, hfound, hfoundCycle, hfoundCount⟩ | ⟨_, hnone⟩
        · rw [← Option.some.inj hfound] at hfoundCycle hfoundCount
          rw [hold] at hfoundCycle
          have hsame : start = current := Option.some.inj hfoundCycle
          rw [hsame] at hcycle hinside
          rw [hfoundCount] at hroom hcount
          exact ⟨current, count + 1, hcycled.again now hstart hinside hroom, hstart,
            Or.inl ⟨new, rfl, hcycle, hcount⟩⟩
        · rw [hnone old rfl] at hold
          cases hold

end Fits

theorem keepsCycle_entry {timed : TimedCall}
    (h : keepsCycle config endpoint timed manager = true) :
    forall found, manager.entries.get? endpoint = some found ->
      forgets config endpoint timed manager = true -> found.cycleRuns timed.now = false := by
  intro found hfound hforgets
  unfold keepsCycle at h
  rw [hfound] at h
  dsimp only at h
  rw [hforgets, Bool.and_true, Bool.not_eq_true'] at h
  exact h

theorem fits_run (calls : List TimedCall) :
    forall {manager : PeerManager} {past : List Rat} {now : Rat},
      Fits past now (manager.entries.get? endpoint) ->
      Chronological TimedCall.now now calls ->
      (forall timed, timed ∈ calls -> timed.call ≠ .addCandidate endpoint true) ->
      (forall timed, timed ∈ calls -> timed.call ≠ .markConnected endpoint) ->
      keepsCycles config endpoint calls manager = true ->
        exists late, Fits (past ++ dials config endpoint calls manager) late
          (((machine config).run calls manager).entries.get? endpoint) := by
  induction calls with
  | nil =>
      intro manager past now h _ _ _ _
      refine ⟨now, ?_⟩
      unfold dials
      rw [Machine.trace, List.append_nil]
      exact h
  | cons timed rest ih =>
      intro manager past now h hchrono hseeds hconnects hkeeps
      rcases chronological_cons.mp hchrono with ⟨hnow, hrest⟩
      unfold keepsCycles at hkeeps
      rw [Bool.and_eq_true] at hkeeps
      have hentry := keepsCycle_entry hkeeps.left
      have hlater := h.later hnow
      have hnext : Fits (past ++ dialledAt config endpoint timed manager) timed.now
          ((perform config timed manager).2.entries.get? endpoint) := by
        rcases perform_step timed manager (hseeds timed List.mem_cons_self)
            (hconnects timed List.mem_cons_self) with
          ⟨hdials, hstep⟩ | ⟨hdials, old, new, jitter, hstep, hattempt, hnew⟩
        · rw [hdials, List.append_nil]
          exact hlater.step hstep hentry
        · rw [hdials, hnew]
          exact (hlater.step hstep hentry).attempt hattempt
      unfold dials
      rw [Machine.trace, ← List.append_assoc]
      exact ih hnext hrest (fun later hlater => hseeds later (List.mem_cons_of_mem timed hlater))
        (fun later hlater => hconnects later (List.mem_cons_of_mem timed hlater)) hkeeps.right

/-!
## Endpoints that are never a seed
-/

/-- The endpoint is no candidate when it is the endpoint of the node itself. -/
def Apart (endpoint : Endpoint) (manager : PeerManager) : Prop :=
  manager.selfEndpoint = some endpoint -> manager.entries.get? endpoint = none

/-- What the manager knows of an endpoint that was never a seed. -/
structure Plain (config : NodeConfig) (endpoint : Endpoint) (manager : PeerManager) : Prop where
  healthy : manager.Healthy config
  apart : manager.Apart endpoint
  unseeded : forall entry, manager.entries.get? endpoint = some entry -> entry.seed = false

theorem EntryStep.unseeded {forgets : Bool} {before after : Option Candidate}
    (h : EntryStep forgets before after)
    (hbefore : forall entry, before = some entry -> entry.seed = false) :
    forall entry, after = some entry -> entry.seed = false := by
  cases h with
  | @kept old new hseed _ _ =>
      intro entry hentry
      rw [← Option.some.inj hentry, hseed]
      exact hbefore old rfl
  | absent => exact hbefore
  | found hseed _ =>
      intro entry hentry
      rw [← Option.some.inj hentry]
      exact hseed
  | forgotten _ =>
      intro entry hentry
      cases hentry
  | renewed _ hseed _ =>
      intro entry hentry
      rw [← Option.some.inj hentry]
      exact hseed

theorem expire_absent (config : NodeConfig) (now : Rat)
    (h : manager.entries.get? endpoint = none) :
    (manager.expire config now).entries.get? endpoint = none := by
  rcases get?_expire config now manager endpoint with hsame | hnone
  · rw [hsame, h]
  · exact hnone

theorem addCandidate_selfEndpoint {seed : Bool} {added : Bool × PeerManager}
    (hadded : manager.addCandidate config now other seed = .ok added) :
    added.2.selfEndpoint = manager.selfEndpoint := by
  unfold addCandidate at hadded
  rcases bind_eq_ok_iff.mp hadded with ⟨found, _, hadded⟩
  simp only at hadded
  split at hadded
  · cases hadded
    rfl
  · split at hadded
    · cases hadded
      rfl
    · split at hadded
      · split at hadded
        · cases hadded
          rfl
        · cases hadded
          rfl
      · cases hadded
        rfl

theorem addCandidate_absent {seed : Bool} {added : Bool × PeerManager}
    (hadded : manager.addCandidate config now other seed = .ok added) (hother : endpoint ≠ other)
    (hnone : manager.entries.get? endpoint = none) :
    added.2.entries.get? endpoint = none := by
  have hexpired := expire_absent config now hnone
  rcases addCandidate_cases hadded with ⟨_, ⟨_, hsame⟩ | ⟨_, hcases⟩⟩
  · rw [hsame, hnone]
  rcases hcases with ⟨entry, _, hset⟩ | ⟨_, ⟨victim, _, _, _, hset⟩ | hsame | hset⟩
  · rw [hset, Dict.get?_set, if_neg hother, hexpired]
  · rw [hset, Dict.get?_set, if_neg hother, Dict.get?_erase, hexpired, ite_self]
  · rw [hsame, hexpired]
  · rw [hset, Dict.get?_set, if_neg hother, hexpired]

theorem addCandidate_itself {seed : Bool} {added : Bool × PeerManager}
    (hadded : manager.addCandidate config now other seed = .ok added)
    (hself : manager.selfEndpoint = some endpoint)
    (hnone : manager.entries.get? endpoint = none) :
    added.2.entries.get? endpoint = none := by
  by_cases hother : endpoint = other
  · rcases addCandidate_cases hadded with ⟨_, ⟨_, hsame⟩ | ⟨hdiffers, _⟩⟩
    · rw [hsame, hnone]
    · rw [hother] at hself
      exact absurd hself hdiffers
  · exact addCandidate_absent hadded hother hnone

theorem withEntry_selfEndpoint (hnext : manager.withEntry config now other = .ok next) :
    next.selfEndpoint = manager.selfEndpoint := by
  unfold withEntry at hnext
  split at hnext
  next =>
    cases hnext
    rfl
  next =>
    rcases map_eq_ok_iff.mp hnext with ⟨added, hadded, heq⟩
    rw [← heq]
    exact addCandidate_selfEndpoint hadded

theorem withEntry_itself (hnext : manager.withEntry config now other = .ok next)
    (hself : manager.selfEndpoint = some endpoint)
    (hnone : manager.entries.get? endpoint = none) : next.entries.get? endpoint = none := by
  unfold withEntry at hnext
  split at hnext
  next =>
    cases hnext
    exact hnone
  next =>
    rcases map_eq_ok_iff.mp hnext with ⟨added, hadded, heq⟩
    rw [← heq]
    exact addCandidate_itself hadded hself hnone

theorem set_absent {old : Candidate} (new : Candidate) (hold : next.entries.get? other = some old)
    (hnone : next.entries.get? endpoint = none) :
    (next.entries.set other new).get? endpoint = none := by
  rw [Dict.get?_set]
  by_cases hother : endpoint = other
  · rw [hother, hold] at hnone
    cases hnone
  · rw [if_neg hother]
    exact hnone

theorem markAttempt_itself (endpoint : Endpoint) {marked : Bool × PeerManager}
    (hmarked : manager.markAttempt config now jitter other = .ok marked) :
    marked.2.selfEndpoint = manager.selfEndpoint ∧
      (manager.selfEndpoint = some endpoint -> manager.entries.get? endpoint = none ->
        marked.2.entries.get? endpoint = none) := by
  rcases markAttempt_cases hmarked with ⟨_, next, hnext, hcases⟩
  have hexpired : (manager.expire config now).selfEndpoint = manager.selfEndpoint := rfl
  have hkept := (withEntry_selfEndpoint hnext).trans hexpired
  have hitself : manager.selfEndpoint = some endpoint ->
      manager.entries.get? endpoint = none -> next.entries.get? endpoint = none :=
    fun hself hnone => withEntry_itself hnext hself (expire_absent config now hnone)
  rcases hcases with hrefused | ⟨old, new, hold, _, hmade⟩
  · rw [hrefused]
    exact ⟨hkept, hitself⟩
  · rw [hmade]
    exact ⟨hkept, fun hself hnone => set_absent new hold (hitself hself hnone)⟩

theorem markConnected_itself (endpoint : Endpoint) {marked : Bool × PeerManager}
    (hmarked : manager.markConnected config now other = .ok marked) :
    marked.2.selfEndpoint = manager.selfEndpoint ∧
      (manager.selfEndpoint = some endpoint -> manager.entries.get? endpoint = none ->
        marked.2.entries.get? endpoint = none) := by
  rcases markConnected_cases hmarked with ⟨_, ⟨hsame, _⟩ | ⟨_, next, hnext, hcases⟩⟩
  · rw [hsame]
    exact ⟨rfl, fun _ hnone => hnone⟩
  have hkept := withEntry_selfEndpoint hnext
  rcases hcases with ⟨_, hsame⟩ | ⟨old, new, hold, _, _, hset⟩
  · rw [hsame]
    exact ⟨hkept, withEntry_itself hnext⟩
  · rw [hset]
    exact ⟨hkept,
      fun hself hnone => set_absent new hold (withEntry_itself hnext hself hnone)⟩

theorem markDisconnected_itself (endpoint : Endpoint)
    (hmarked : manager.markDisconnected config now jitter other = .ok next) :
    next.selfEndpoint = manager.selfEndpoint ∧
      (manager.entries.get? endpoint = none -> next.entries.get? endpoint = none) := by
  unfold markDisconnected at hmarked
  rcases bind_eq_ok_iff.mp hmarked with ⟨found, _, hmarked⟩
  split at hmarked
  next =>
    cases hmarked
    exact ⟨rfl, id⟩
  next old hold =>
    cases hmarked
    exact ⟨rfl, set_absent _ hold⟩

theorem setSelfEndpoint_itself (hset : manager.setSelfEndpoint config other = .ok next) :
    next.selfEndpoint = some other ∧ next.entries = manager.entries.erase other := by
  unfold setSelfEndpoint at hset
  rcases bind_eq_ok_iff.mp hset with ⟨found, hfound, hset⟩
  rw [(validateEndpoint_accepted hfound).left] at hset
  rw [← Except.ok.inj hset]
  exact ⟨rfl, rfl⟩

theorem answered_invariant {Inv : PeerManager -> Prop} {result : Type}
    {outcome : Except PyError result} {answer : result -> Answer × PeerManager}
    (h : Inv manager) (hok : forall value, outcome = .ok value -> Inv (answer value).2) :
    Inv (manager.answered outcome answer).2 := by
  cases hout : outcome with
  | error e => exact h
  | ok value => exact hok value hout

theorem perform_healthy (timed : TimedCall) (h : manager.Healthy config) :
    (perform config timed manager).2.Healthy config := by
  rcases timed with ⟨now, call⟩
  cases call with
  | setSelfEndpoint other =>
      refine answered_invariant h ?_
      intro next hnext
      have hentries := (setSelfEndpoint_itself hnext).right
      intro endpoint entry hentry
      rw [hentries] at hentry
      exact h.erase other endpoint entry hentry
  | expire => exact h.expire
  | candidates => exact h.expire
  | knownEndpoints => exact h.expire
  | addCandidate other seed => exact answered_invariant h (fun _ hok => addCandidate_healthy hok h)
  | dueCandidates limit => exact h.expire
  | markAttempt other jitter => exact answered_invariant h (fun _ hok => markAttempt_healthy hok h)
  | markConnected other => exact answered_invariant h (fun _ hok => markConnected_healthy hok h)
  | markDisconnected other jitter =>
      exact answered_invariant h (fun _ hok => markDisconnected_healthy hok h)

theorem perform_apart (timed : TimedCall) (h : manager.Apart endpoint) :
    (perform config timed manager).2.Apart endpoint := by
  rcases timed with ⟨now, call⟩
  cases call with
  | setSelfEndpoint other =>
      refine answered_invariant h ?_
      intro next hnext hself
      rcases setSelfEndpoint_itself hnext with ⟨hother, hentries⟩
      have hsame : other = endpoint := Option.some.inj (hother.symm.trans hself)
      show next.entries.get? endpoint = none
      rw [hentries, Dict.get?_erase, if_pos hsame.symm]
  | expire => exact fun hself => expire_absent config now (h hself)
  | candidates => exact fun hself => expire_absent config now (h hself)
  | knownEndpoints => exact fun hself => expire_absent config now (h hself)
  | addCandidate other seed =>
      refine answered_invariant h ?_
      intro added hadded hself
      have hkept := (addCandidate_selfEndpoint hadded).symm.trans hself
      exact addCandidate_itself hadded hkept (h hkept)
  | dueCandidates limit => exact fun hself => expire_absent config now (h hself)
  | markAttempt other jitter =>
      refine answered_invariant h ?_
      intro marked hmarked hself
      have hboth := markAttempt_itself endpoint hmarked
      have hkept := hboth.left.symm.trans hself
      exact hboth.right hkept (h hkept)
  | markConnected other =>
      refine answered_invariant h ?_
      intro marked hmarked hself
      have hboth := markConnected_itself endpoint hmarked
      have hkept := hboth.left.symm.trans hself
      exact hboth.right hkept (h hkept)
  | markDisconnected other jitter =>
      refine answered_invariant h ?_
      intro next hnext hself
      have hboth := markDisconnected_itself endpoint hnext
      exact hboth.right (h (hboth.left.symm.trans hself))

theorem unseeded_replaced {old new : Candidate} (hold : next.entries.get? other = some old)
    (hnew : new.seed = old.seed)
    (h : forall entry, next.entries.get? endpoint = some entry -> entry.seed = false) :
    forall entry, (next.entries.set other new).get? endpoint = some entry ->
      entry.seed = false := by
  intro entry hentry
  rw [Dict.get?_set] at hentry
  by_cases hother : endpoint = other
  · rw [if_pos hother] at hentry
    rw [← Option.some.inj hentry, hnew]
    apply h old
    rw [hother]
    exact hold
  · rw [if_neg hother] at hentry
    exact h entry hentry

theorem perform_unseeded (timed : TimedCall) (hseed : timed.call ≠ .addCandidate endpoint true)
    (h : forall entry, manager.entries.get? endpoint = some entry -> entry.seed = false) :
    forall entry, (perform config timed manager).2.entries.get? endpoint = some entry ->
      entry.seed = false := by
  by_cases hconnected : timed.call = .markConnected endpoint
  · rcases timed with ⟨now, call⟩
    have hcall : call = .markConnected endpoint := hconnected
    rw [hcall]
    cases hmarked : manager.markConnected config now endpoint with
    | error e =>
        have hperform : perform config { now := now, call := .markConnected endpoint } manager =
            (.raised e, manager) := answered_error hmarked _
        rw [hperform]
        exact h
    | ok marked =>
        have hperform : perform config { now := now, call := .markConnected endpoint } manager =
            (.flag marked.1, marked.2) := answered_ok hmarked _
        rw [hperform]
        rcases markConnected_cases hmarked with ⟨_, ⟨hsame, _⟩ | ⟨_, next, hnext, hcases⟩⟩
        · rw [hsame]
          exact h
        have hstep : EntryStep _ (manager.entries.get? endpoint) (next.entries.get? endpoint) :=
          withEntry_step hnext
        have hunseeded := hstep.unseeded h
        rcases hcases with ⟨_, hsame⟩ | ⟨old, new, hold, hnew, _, hset⟩
        · rw [hsame]
          exact hunseeded
        · rw [hset]
          exact unseeded_replaced hold hnew hunseeded
  · rcases perform_step timed manager hseed hconnected with
      ⟨_, hstep⟩ | ⟨_, old, new, jitter, hstep, hattempt, hnew⟩
    · exact hstep.unseeded h
    · intro entry hentry
      rw [hnew] at hentry
      rw [← Option.some.inj hentry]
      exact (attemptEntry_cases (hstep.unseeded h old rfl) hattempt).left

theorem Plain.run (calls : List TimedCall) :
    forall {manager : PeerManager}, Plain config endpoint manager ->
      (forall timed, timed ∈ calls -> timed.call ≠ .addCandidate endpoint true) ->
      Plain config endpoint ((machine config).run calls manager) := by
  induction calls with
  | nil =>
      intro manager h _
      exact h
  | cons timed rest ih =>
      intro manager h hseeds
      refine ih ?_ (fun later hlater => hseeds later (List.mem_cons_of_mem timed hlater))
      exact
        { healthy := perform_healthy timed h.healthy
          apart := perform_apart timed h.apart
          unseeded := perform_unseeded timed (hseeds timed List.mem_cons_self) h.unseeded }

theorem construct_plain (hconstruct : construct config now = .ok manager)
    (hseeds : endpoint ∉ config.seeds) :
    Plain config endpoint manager ∧ manager.entries.get? endpoint = none := by
  unfold construct at hconstruct
  have hkept : manager.Healthy config ∧ manager.selfEndpoint = none ∧
      manager.entries.get? endpoint = none := by
    refine foldlM_invariant (P := fun known : PeerManager => known.Healthy config ∧
      known.selfEndpoint = none ∧ known.entries.get? endpoint = none) ?_ ?_ hconstruct
    · intro known seed next hmem hknown hnext
      rcases hknown with ⟨hhealthy, hself, hnone⟩
      rcases map_eq_ok_iff.mp hnext with ⟨added, hadded, heq⟩
      rw [← heq]
      refine ⟨addCandidate_healthy hadded hhealthy, (addCandidate_selfEndpoint hadded).trans hself,
        ?_⟩
      have hother : endpoint ≠ seed := fun hsame => hseeds (hsame ▸ hmem)
      exact addCandidate_absent hadded hother hnone
    · refine ⟨?_, rfl, rfl⟩
      intro other entry hentry
      cases hentry
  rcases hkept with ⟨hhealthy, hself, hnone⟩
  refine ⟨{ healthy := hhealthy, apart := fun _ => hnone, unseeded := ?_ }, hnone⟩
  intro entry hentry
  rw [hnone] at hentry
  cases hentry

theorem markConnected_opens (now : Rat) (h : Plain config endpoint manager) :
    forall entry, (perform config { now := now, call := .markConnected endpoint }
        manager).2.entries.get? endpoint = some entry -> entry.cycleStarted = none := by
  have habsent : forall m : PeerManager, m.entries.get? endpoint = none ->
      forall entry, m.entries.get? endpoint = some entry -> entry.cycleStarted = none := by
    intro m hnone entry hentry
    rw [hnone] at hentry
    cases hentry
  cases hmarked : manager.markConnected config now endpoint with
  | error e =>
      have hperform : perform config { now := now, call := .markConnected endpoint } manager =
          (.raised e, manager) := answered_error hmarked _
      rw [hperform]
      apply habsent
      cases hget : manager.entries.get? endpoint with
      | none => rfl
      | some entry =>
          have htotal : exists marked, manager.markConnected config now endpoint = .ok marked :=
            markConnected_total (h.healthy endpoint entry hget).right
          rcases htotal with ⟨marked, hok⟩
          rw [hmarked] at hok
          cases hok
  | ok marked =>
      have hperform : perform config { now := now, call := .markConnected endpoint } manager =
          (.flag marked.1, marked.2) := answered_ok hmarked _
      rw [hperform]
      rcases markConnected_cases hmarked with ⟨_, ⟨hsame, hself⟩ | ⟨_, next, _, hcases⟩⟩
      · rw [hsame]
        exact habsent manager (h.apart hself)
      · rcases hcases with ⟨hnone, hsame⟩ | ⟨old, new, _, _, hcycle, hset⟩
        · rw [hsame]
          exact habsent next hnone
        · rw [hset]
          intro entry hentry
          have hfound : (next.entries.set endpoint new).get? endpoint = some entry := hentry
          rw [Dict.get?_set, if_pos rfl] at hfound
          rw [← Option.some.inj hfound]
          exact hcycle

/-!
## Dials
-/

/-- No cycle has more dials than there are attempts in a cycle. -/
def DialsBounded (dials : List Rat) : Prop :=
  forall opening, opening ∈ cycleStarts COOLDOWN dials ->
    (cycleEvents COOLDOWN opening dials).length ≤ MAX_ATTEMPTS

instance (dials : List Rat) : Decidable (DialsBounded dials) :=
  inferInstanceAs (Decidable (forall opening, opening ∈ cycleStarts COOLDOWN dials -> _))

/-- A stretch without a connection starts with the manager, or after a call that marks
the endpoint connected. -/
def OpensStretch (endpoint : Endpoint) (before : List TimedCall) : Prop :=
  before = [] ∨ exists early last, before = early ++ [last] ∧ last.call = .markConnected endpoint

theorem fits_opening {start : Rat} {before : List TimedCall}
    (hconstruct : construct config start = .ok manager) (hseeds : endpoint ∉ config.seeds)
    (hplain : forall timed, timed ∈ before -> timed.call ≠ .addCandidate endpoint true)
    (hopens : OpensStretch endpoint before) :
    Fits [] now (((machine config).run before manager).entries.get? endpoint) := by
  rcases construct_plain hconstruct hseeds with ⟨hknown, hnone⟩
  have hunseeded := (Plain.run before hknown hplain).unseeded
  refine { unseeded := hunseeded, cycle := Or.inl ⟨rfl, ?_⟩ }
  rcases hopens with hempty | ⟨early, last, hlast, hcall⟩
  · intro entry hentry
    rw [hempty] at hentry
    rw [show (machine config).run [] manager = manager from rfl, hnone] at hentry
    cases hentry
  · rcases last with ⟨late, call⟩
    have hconnected : call = .markConnected endpoint := hcall
    have hearly := Plain.run early hknown (fun timed htimed =>
      hplain timed (by rw [hlast]; exact List.mem_append_left _ htimed))
    intro entry hentry
    rw [hlast, Machine.run_append, hconnected] at hentry
    exact markConnected_opens late hearly entry hentry

/-- Between two connections the dials of an endpoint that is never a seed stay in their
cycles, as long as no call removes its entry before the cycle is over. -/
theorem dials_within_cycles {start : Rat} {before stretch : List TimedCall}
    (hconstruct : construct config start = .ok manager) (hseeds : endpoint ∉ config.seeds)
    (hplain : forall timed, timed ∈ before ++ stretch -> timed.call ≠ .addCandidate endpoint true)
    (hclock : Chronological TimedCall.now start (before ++ stretch))
    (hopens : OpensStretch endpoint before)
    (hstretch : forall timed, timed ∈ stretch -> timed.call ≠ .markConnected endpoint)
    (hkeeps : keepsCycles config endpoint stretch ((machine config).run before manager) = true) :
    DialsBounded (dials config endpoint stretch ((machine config).run before manager)) := by
  have hlater : Chronological TimedCall.now start stretch :=
    hclock.sublist (List.sublist_append_right before stretch)
  have hopening : Fits [] start
      (((machine config).run before manager).entries.get? endpoint) :=
    fits_opening hconstruct hseeds
      (fun timed htimed => hplain timed (List.mem_append_left _ htimed)) hopens
  rcases fits_run stretch hopening hlater
    (fun timed htimed => hplain timed (List.mem_append_right _ htimed)) hstretch hkeeps with
    ⟨late, hfits⟩
  rw [List.nil_append] at hfits
  rcases hfits.cycle with ⟨hnone, _⟩ | ⟨opening, count, hcycled, _⟩
  · rw [hnone]
    intro opening hopening
    cases hopening
  · exact hcycled.cycleEvents_length_le (by decide)

end Entries

/-!
## An entry that is forgotten
-/

def listed : Endpoint := { host := str "127.0.0.1", port := 5100 }

/-- Three dials fail, then the hint is too old, and the endpoint is discovered again. -/
def rediscovered : List TimedCall :=
  [{ now := 0, call := .markDisconnected listed 1 },
    { now := 590, call := .markAttempt listed 1 },
    { now := 590, call := .markDisconnected listed 1 },
    { now := 591, call := .markAttempt listed 1 },
    { now := 591, call := .markDisconnected listed 1 },
    { now := 593, call := .markAttempt listed 1 },
    { now := 593, call := .markDisconnected listed 1 },
    { now := 601, call := .addCandidate listed false },
    { now := 601, call := .markAttempt listed 1 }]

/-- The endpoint is announced again and again, and its entry stays. -/
def announced : List TimedCall :=
  [{ now := 0, call := .markDisconnected listed 1 },
    { now := 1, call := .addCandidate listed false },
    { now := 2, call := .markAttempt listed 1 },
    { now := 2, call := .markDisconnected listed 1 },
    { now := 3, call := .addCandidate listed false },
    { now := 302, call := .markAttempt listed 1 }]

def connectedFirst : List TimedCall :=
  [{ now := 0, call := .markConnected listed }]

/-- Between two connections, four dials in one cycle. -/
theorem rediscovery_dials_again :
    exists manager, construct NodeConfig.default_ 0 = .ok manager ∧
      listed ∉ NodeConfig.default_.seeds ∧
      (forall timed, timed ∈ connectedFirst ++ rediscovered ++
        [{ now := 602, call := .markConnected listed }] ->
          timed.call ≠ .addCandidate listed true) ∧
      Chronological TimedCall.now 0 (connectedFirst ++ rediscovered ++
        [{ now := 602, call := .markConnected listed }]) ∧
      (forall timed, timed ∈ rediscovered -> timed.call ≠ .markConnected listed) ∧
      dials NodeConfig.default_ listed rediscovered
        ((machine NodeConfig.default_).run connectedFirst manager) = [590, 591, 593, 601] ∧
      ¬ DialsBounded (dials NodeConfig.default_ listed rediscovered
        ((machine NodeConfig.default_).run connectedFirst manager)) := by
  refine ⟨{ entries := Dict.empty, selfEndpoint := none }, ?_⟩
  decide +kernel

theorem dials_within_cycles_announced :
    DialsBounded (dials NodeConfig.default_ listed announced
      ((machine NodeConfig.default_).run connectedFirst
        { entries := Dict.empty, selfEndpoint := none })) :=
  dials_within_cycles (show construct NodeConfig.default_ 0 = .ok _ from rfl) List.not_mem_nil
    (by decide +kernel) (by decide +kernel)
    (Or.inr ⟨[], { now := 0, call := .markConnected listed }, rfl, rfl⟩) (by decide +kernel)
    (by decide +kernel)

end PeerManager

end Network

end PyChain
