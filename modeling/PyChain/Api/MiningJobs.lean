import PyChain.Api.MiningService

/-!
# The life of a mining job

Where the worker of a job waits decides which status the job shows and whether
its block was passed to the node.  A job that a call is about to cancel is
doomed: its stop event is set before its worker looks, so it ends cancelled and
its block is dropped.
-/

namespace PyChain

open Foundation

namespace Api

theorem busy_of_final {status : JobStatus} (h : status.final = true) :
    status.busy = false := by
  cases status with
  | queued => cases h
  | mining => cases h
  | _ => rfl

/-- A job whose stop event was set before its worker looked at it. -/
structure JobEntry.Doomed (entry : JobEntry) (calls : Nat) : Prop where
  stopped : entry.job.stopEvent = true
  status : entry.job.status.busy = true ∨ entry.job.status = .cancelled
  calls : calls = 0

/-- Before the worker looks at the thread, the job is as it was or is doomed. -/
def JobEntry.Pending (entry : JobEntry) (calls : Nat) (status : JobStatus) : Prop :=
  calls = 0 ∧
    (entry.job.status = status ∨ entry.job.status = .cancelled ∧ entry.job.stopEvent = true)

/-- The status of a job and the calls of `node.accept_block` made for it, by where its
worker waits. -/
def JobEntry.Sound (entry : JobEntry) (calls : Nat) : Prop :=
  match entry.worker with
  | .scheduled => entry.Pending calls .queued
  | .announcingStart => entry.Pending calls .mining
  | .awaitingThread => entry.Pending calls .mining
  | .joiningThread => entry.Pending calls .mining
  | .raised => entry.Pending calls .mining
  | .announcingFound _ => entry.job.status = .found ∧ calls = 0
  | .awaitingAccept => entry.job.status = .found ∧ calls = 1
  | .awaitingStatus => entry.job.status = .found ∧ calls = 1
  | .announcingCancelled => entry.job.status.final = true ∧ calls ≤ 1
  | .announcingEnd => entry.job.status.final = true ∧ calls ≤ 1
  | .releasing => entry.job.status.final = true ∧ calls ≤ 1
  | .done => entry.job.status.final = true ∧ calls ≤ 1

/-- The calls that will cancel a job, or have done so. -/
def CancelTask.cancelling : CancelTask -> Option Str
  | .joining jobId => some jobId
  | .releasing jobId => some jobId
  | .announcing jobId => some jobId
  | .returned jobId true => some jobId
  | _ => none

/-- The calls that have marked their job. -/
def CancelTask.marked : CancelTask -> Bool
  | .joining _ => false
  | _ => true

/-- The calls that hold the lock. -/
def CreateTask.holding : CreateTask -> Bool
  | .awaitingTemplate _ _ _ => true
  | .awaitingParent _ _ => true
  | _ => false

namespace MiningService

/-- How often a block was passed to the node for a job. -/
def calls (service : MiningService) (id : Str) : Nat :=
  (service.submitted.filter (fun item => item.1 = id)).length

structure Sound (service : MiningService) : Prop where
  entries : forall id entry, service.jobs.get? id = some entry ->
    entry.Sound (service.calls id)
  unknown : forall id, service.jobs.get? id = none -> service.calls id = 0
  active : forall id entry, service.jobs.get? id = some entry ->
    entry.job.status.busy = true -> service.activeJobId = some id
  holder : forall call task, service.creates.get? call = some task ->
    task.holding = true -> service.lockHolder = some call
  locked : service.lockHolder ≠ none -> forall id entry,
    service.jobs.get? id = some entry -> entry.job.status.busy = false
  cancels : forall call task id, service.cancels.get? call = some task ->
    task.cancelling = some id -> exists entry, service.jobs.get? id = some entry ∧
      entry.Doomed (service.calls id) ∧
      (task.marked = true -> entry.job.status = .cancelled)

theorem create_sound (config : MiningConfig) : Sound (create config) := by
  constructor
  · intro id entry h
    cases h
  · intro id _
    rfl
  · intro id entry h
    cases h
  · intro call task h
    cases h
  · intro hlocked
    exact absurd rfl hlocked
  · intro call task id h
    cases h

/-- What one turn does: jobs that have ended keep their status, and calls that have
returned keep their answer. -/
structure Follows (service later : MiningService) : Prop where
  sound : Sound later
  final : forall id entry, service.jobs.get? id = some entry ->
    entry.job.status.final = true -> exists found, later.jobs.get? id = some found ∧
      found.job.status = entry.job.status
  returned : forall call id, service.cancels.get? call = some (.returned id true) ->
    later.cancels.get? call = some (.returned id true)

theorem Follows.refl {service : MiningService} (h : Sound service) :
    Follows service service :=
  ⟨h, fun _ entry hget _ => ⟨entry, hget, rfl⟩, fun _ _ hreturned => hreturned⟩

theorem Follows.trans {service middle later : MiningService} (h : Follows service middle)
    (hlater : Follows middle later) : Follows service later := by
  refine ⟨hlater.sound, ?_, fun call id hreturned =>
    hlater.returned call id (h.returned call id hreturned)⟩
  intro id entry hget hfinal
  rcases h.final id entry hget hfinal with ⟨found, hfound, hstatus⟩
  rw [← hstatus] at hfinal
  rcases hlater.final id found hfound hfinal with ⟨last, hlast, hsame⟩
  exact ⟨last, hlast, hsame.trans hstatus⟩

/-!
## Changing one job
-/

/-- What a turn may do to a job. -/
structure Progress (entry next : JobEntry) (calls added : Nat) : Prop where
  sound : next.Sound (calls + added)
  busy : next.job.status.busy = true -> entry.job.status.busy = true
  doomed : entry.Doomed calls -> next.Doomed (calls + added)
  final : entry.job.status.final = true -> next.job.status = entry.job.status

section Jobs

variable {service : MiningService} {id : Str} {entry next : JobEntry}

theorem get?_setEntry (hget : service.jobs.get? id = some entry) (other : Str) :
    (service.setEntry id next).jobs.get? other =
      if other = id then some next else service.jobs.get? other := by
  change (service.jobs.modify id _).get? other = _
  rw [Dict.get?_modify]
  by_cases h : other = id
  · rw [if_pos h, if_pos h, h, hget]
    rfl
  · rw [if_neg h, if_neg h]

theorem final_of_cancelled {status : JobStatus} (h : status = .cancelled) :
    status.final = true := by
  rw [h]
  rfl

theorem Sound.setEntry (h : Sound service) (hget : service.jobs.get? id = some entry)
    {later : MiningService} {added : Nat}
    (hprogress : Progress entry next (service.calls id) added)
    (hjobs : later.jobs = (service.setEntry id next).jobs)
    (hcalls : forall other,
      later.calls other = service.calls other + if other = id then added else 0)
    (hactive : later.activeJobId = service.activeJobId)
    (hholder : later.lockHolder = service.lockHolder)
    (hcreates : later.creates = service.creates)
    (hcancels : later.cancels = service.cancels) : Sound later := by
  have hfound : forall other, later.jobs.get? other =
      if other = id then some next else service.jobs.get? other := by
    intro other
    rw [hjobs]
    exact get?_setEntry hget other
  constructor
  · intro other found hother
    rw [hfound] at hother
    rw [hcalls]
    by_cases heq : other = id
    · rw [if_pos heq] at hother
      rw [if_pos heq, ← Option.some.inj hother, heq]
      exact hprogress.sound
    · rw [if_neg heq] at hother
      rw [if_neg heq]
      exact h.entries other found hother
  · intro other hother
    rw [hfound] at hother
    rw [hcalls]
    by_cases heq : other = id
    · rw [if_pos heq] at hother
      cases hother
    · rw [if_neg heq] at hother
      rw [if_neg heq]
      exact h.unknown other hother
  · intro other found hother hbusy
    rw [hfound] at hother
    rw [hactive]
    by_cases heq : other = id
    · rw [if_pos heq] at hother
      rw [← Option.some.inj hother] at hbusy
      rw [heq]
      exact h.active id entry hget (hprogress.busy hbusy)
    · rw [if_neg heq] at hother
      exact h.active other found hother hbusy
  · rw [hcreates, hholder]
    exact h.holder
  · intro hlocked other found hother
    rw [hholder] at hlocked
    rw [hfound] at hother
    by_cases heq : other = id
    · rw [if_pos heq] at hother
      rw [← Option.some.inj hother]
      have hidle := h.locked hlocked id entry hget
      cases hbusy : next.job.status.busy with
      | false => rfl
      | true =>
          rw [hprogress.busy hbusy] at hidle
          cases hidle
    · rw [if_neg heq] at hother
      exact h.locked hlocked other found hother
  · intro call task other htask hcancelling
    rw [hcancels] at htask
    rcases h.cancels call task other htask hcancelling with ⟨found, hother, hdoomed, hmarked⟩
    rw [hcalls]
    by_cases heq : other = id
    · rw [heq, hget] at hother
      have hsame := Option.some.inj hother
      rw [← hsame] at hdoomed hmarked
      refine ⟨next, ?_, ?_, ?_⟩
      · rw [hfound, if_pos heq]
      · rw [if_pos heq, heq]
        rw [heq] at hdoomed
        exact hprogress.doomed hdoomed
      · intro hmark
        have hcancelled := hmarked hmark
        rw [hprogress.final (final_of_cancelled hcancelled)]
        exact hcancelled
    · refine ⟨found, ?_, ?_, hmarked⟩
      · rw [hfound, if_neg heq]
        exact hother
      · rw [if_neg heq]
        exact hdoomed

theorem final_setEntry (hget : service.jobs.get? id = some entry)
    (hfinal : entry.job.status.final = true -> next.job.status = entry.job.status) :
    forall other found, service.jobs.get? other = some found ->
      found.job.status.final = true -> exists after,
        (service.setEntry id next).jobs.get? other = some after ∧
          after.job.status = found.job.status := by
  intro other found hother hended
  rw [get?_setEntry hget]
  by_cases heq : other = id
  · rw [heq, hget] at hother
    rw [← Option.some.inj hother] at hended ⊢
    rw [if_pos heq]
    exact ⟨next, rfl, hfinal hended⟩
  · rw [if_neg heq]
    exact ⟨found, hother, rfl⟩

theorem Sound.update (h : Sound service) (hget : service.jobs.get? id = some entry)
    (hprogress : Progress entry next (service.calls id) 0) :
    Follows service (service.setEntry id next) := by
  constructor
  · apply h.setEntry hget hprogress rfl _ rfl rfl rfl rfl
    intro other
    by_cases heq : other = id
    · rw [if_pos heq]
      rfl
    · rw [if_neg heq]
      rfl
  · exact final_setEntry hget hprogress.final
  · intro call other hreturned
    exact hreturned

theorem Sound.withWorker (h : Sound service) {worker : Worker}
    {next : JobEntry -> MiningService}
    (hnext : forall entry, service.jobs.get? id = some entry -> entry.worker = worker ->
      Follows service (next entry)) :
    Follows service (service.withWorker id worker next) := by
  unfold MiningService.withWorker
  cases hget : service.jobs.get? id with
  | none => exact Follows.refl h
  | some entry =>
      change Follows service (if _ then _ else _)
      by_cases hworker : entry.worker = worker
      · rw [if_pos hworker]
        exact hnext entry hget hworker
      · rw [if_neg hworker]
        exact Follows.refl h

end Jobs

end MiningService

/-!
## Progress of workers
-/

section Workers

variable {entry : JobEntry} {calls : Nat}

theorem JobEntry.Pending.cancelled {status : JobStatus} (h : entry.Pending calls status)
    (hstatus : status.final = false) (hfinal : entry.job.status.final = true) :
    entry.job.status = .cancelled := by
  rcases h.right with hsame | hcancelled
  · rw [hsame, hstatus] at hfinal
    cases hfinal
  · exact hcancelled.left

theorem JobEntry.Pending.running {status : JobStatus} (h : entry.Pending calls status)
    (hstop : entry.job.stopEvent = false) : entry.job.status = status := by
  rcases h.right with hsame | hcancelled
  · exact hsame
  · rw [hcancelled.right] at hstop
    cases hstop

theorem JobEntry.Doomed.not_found (h : entry.Doomed calls)
    (hfound : entry.job.status = .found) : False := by
  rcases h.status with hbusy | hcancelled
  · rw [hfound] at hbusy
    cases hbusy
  · rw [hfound] at hcancelled
    cases hcancelled

theorem JobEntry.Sound.stop (h : entry.Sound calls) :
    JobEntry.Sound { entry with job := { entry.job with stopEvent := true } } calls := by
  have hpending : forall status, entry.Pending calls status ->
      JobEntry.Pending { entry with job := { entry.job with stopEvent := true } } calls
        status := by
    intro status hpending
    refine ⟨hpending.left, ?_⟩
    rcases hpending.right with hsame | hcancelled
    · exact Or.inl hsame
    · exact Or.inr ⟨hcancelled.left, rfl⟩
  unfold JobEntry.Sound at h ⊢
  cases hworker : entry.worker with
  | scheduled =>
      rw [hworker] at h
      exact hpending _ h
  | announcingStart =>
      rw [hworker] at h
      exact hpending _ h
  | awaitingThread =>
      rw [hworker] at h
      exact hpending _ h
  | joiningThread =>
      rw [hworker] at h
      exact hpending _ h
  | raised =>
      rw [hworker] at h
      exact hpending _ h
  | _ =>
      rw [hworker] at h
      exact h

theorem JobEntry.Sound.calls_of_busy (h : entry.Sound calls)
    (hbusy : entry.job.status.busy = true) : calls = 0 := by
  have hended : entry.job.status.final = true ∧ calls ≤ 1 -> calls = 0 := by
    intro hend
    rw [busy_of_final hend.left] at hbusy
    cases hbusy
  have hfound : forall count, entry.job.status = .found ∧ calls = count -> calls = 0 := by
    intro count hfound
    rw [hfound.left] at hbusy
    cases hbusy
  unfold JobEntry.Sound at h
  cases hworker : entry.worker with
  | scheduled =>
      rw [hworker] at h
      exact h.left
  | announcingStart =>
      rw [hworker] at h
      exact h.left
  | awaitingThread =>
      rw [hworker] at h
      exact h.left
  | joiningThread =>
      rw [hworker] at h
      exact h.left
  | raised =>
      rw [hworker] at h
      exact h.left
  | announcingFound mined =>
      rw [hworker] at h
      exact h.right
  | awaitingAccept =>
      rw [hworker] at h
      exact hfound 1 h
  | awaitingStatus =>
      rw [hworker] at h
      exact hfound 1 h
  | _ =>
      rw [hworker] at h
      exact hended h

theorem JobEntry.Sound.calls_le (h : entry.Sound calls) : calls ≤ 1 := by
  have hpending : forall status, entry.Pending calls status -> calls ≤ 1 := by
    intro status hpending
    rw [hpending.left]
    exact Nat.zero_le 1
  unfold JobEntry.Sound at h
  cases hworker : entry.worker with
  | scheduled =>
      rw [hworker] at h
      exact hpending _ h
  | announcingStart =>
      rw [hworker] at h
      exact hpending _ h
  | awaitingThread =>
      rw [hworker] at h
      exact hpending _ h
  | joiningThread =>
      rw [hworker] at h
      exact hpending _ h
  | raised =>
      rw [hworker] at h
      exact hpending _ h
  | announcingFound mined =>
      rw [hworker] at h
      rw [h.right]
      exact Nat.zero_le 1
  | awaitingAccept =>
      rw [hworker] at h
      exact Nat.le_of_eq h.right
  | awaitingStatus =>
      rw [hworker] at h
      exact Nat.le_of_eq h.right
  | _ =>
      rw [hworker] at h
      exact h.right

theorem JobEntry.Sound.mark (h : entry.Sound calls) (hdoomed : entry.Doomed calls) :
    JobEntry.Sound { entry with job := { entry.job with status := .cancelled } } calls := by
  have hpending : forall status, JobEntry.Pending
      { entry with job := { entry.job with status := .cancelled } } calls status :=
    fun _ => ⟨hdoomed.calls, Or.inr ⟨rfl, hdoomed.stopped⟩⟩
  have hended : JobStatus.final .cancelled = true ∧ calls ≤ 1 := by
    rw [hdoomed.calls]
    decide
  unfold JobEntry.Sound at h ⊢
  cases hworker : entry.worker with
  | scheduled => exact hpending _
  | announcingStart => exact hpending _
  | awaitingThread => exact hpending _
  | joiningThread => exact hpending _
  | raised => exact hpending _
  | announcingFound mined =>
      rw [hworker] at h
      exact (hdoomed.not_found h.left).elim
  | awaitingAccept =>
      rw [hworker] at h
      exact (hdoomed.not_found h.left).elim
  | awaitingStatus =>
      rw [hworker] at h
      exact (hdoomed.not_found h.left).elim
  | _ => exact hended

theorem progress_cancelled {next : JobEntry} {status : JobStatus}
    (h : entry.Pending calls status) (hstatus : status.final = false)
    (hnext : next.job.status = .cancelled)
    (hworker : next.worker = .announcingEnd ∨ next.worker = .announcingCancelled)
    (hstop : next.job.stopEvent = true) : MiningService.Progress entry next calls 0 := by
  constructor
  · have hends : next.job.status.final = true ∧ calls + 0 ≤ 1 := by
      rw [hnext, h.left]
      decide
    unfold JobEntry.Sound
    rcases hworker with hworker | hworker
    · rw [hworker]
      exact hends
    · rw [hworker]
      exact hends
  · intro hbusy
    rw [hnext] at hbusy
    cases hbusy
  · intro hdoomed
    exact ⟨hstop, Or.inr hnext, hdoomed.calls⟩
  · intro hfinal
    rw [hnext, h.cancelled hstatus hfinal]

theorem progress_running {next : JobEntry} {status : JobStatus}
    (h : entry.Pending calls status) (hstatus : status.final = false)
    (hstop : entry.job.stopEvent = false) (hsound : next.Sound calls)
    (hbusy : next.job.status.busy = true -> status.busy = true) :
    MiningService.Progress entry next calls 0 := by
  have hsame := h.running hstop
  constructor
  · exact hsound
  · rw [hsame]
    exact hbusy
  · intro hdoomed
    rw [hdoomed.stopped] at hstop
    cases hstop
  · intro hfinal
    rw [hsame, hstatus] at hfinal
    cases hfinal

theorem progress_same {next : JobEntry} (hsound : next.Sound calls)
    (hstatus : next.job.status = entry.job.status)
    (hstop : entry.job.stopEvent = true -> next.job.stopEvent = true) :
    MiningService.Progress entry next calls 0 := by
  constructor
  · exact hsound
  · rw [hstatus]
    exact fun hbusy => hbusy
  · intro hdoomed
    refine ⟨hstop hdoomed.stopped, ?_, hdoomed.calls⟩
    rw [hstatus]
    exact hdoomed.status
  · intro _
    exact hstatus

end Workers

namespace MiningService

section WorkerTurns

variable {service : MiningService} {id : Str}

theorem Sound.entry (h : Sound service) {entry : JobEntry} {worker : Worker}
    (hget : service.jobs.get? id = some entry) (hworker : entry.worker = worker) :
    JobEntry.Sound { entry with worker := worker } (service.calls id) := by
  rw [← hworker]
  exact h.entries id entry hget

theorem workerStarts_follows (h : Sound service) (id : Str) :
    Follows service (workerStarts id service) := by
  apply h.withWorker
  intro entry hget hworker
  have hpending : entry.Pending (service.calls id) .queued := h.entry hget hworker
  change Follows service (if _ then _ else _)
  by_cases hstop : entry.job.stopEvent = true
  · rw [if_pos hstop]
    exact h.update hget (progress_cancelled hpending rfl rfl (Or.inr rfl) hstop)
  · rw [if_neg hstop]
    have hsound : JobEntry.Pending
        { entry with
          job := { entry.job with status := .mining }
          worker := .announcingStart } (service.calls id) .mining :=
      ⟨hpending.left, Or.inl rfl⟩
    exact h.update hget (progress_running hpending rfl (eq_false_of_ne_true hstop) hsound
      (fun _ => rfl))

theorem workerSpawns_follows (h : Sound service) (id : Str) (started : Bool) :
    Follows service (workerSpawns id started service) := by
  apply h.withWorker
  intro entry hget hworker
  have hpending : entry.Pending (service.calls id) .mining := h.entry hget hworker
  cases started with
  | true => exact h.update hget (progress_same hpending rfl (fun hstop => hstop))
  | false => exact h.update hget (progress_same hpending rfl (fun hstop => hstop))

theorem concluded_progress [Crypto] {entry : JobEntry} {calls : Nat}
    (h : entry.Pending calls .mining) : Progress entry (concluded entry) calls 0 := by
  cases hstop : entry.job.stopEvent with
  | true =>
      have hconcluded : (concluded entry).job.status = .cancelled ∧
          (concluded entry).worker = .announcingEnd ∧
          (concluded entry).job.stopEvent = true := by
        unfold concluded
        cases hthread : entry.job.thread with
        | ended outcome =>
            cases outcome with
            | error text => simp only [hstop, if_true, and_self]
            | ok mined => simp only [hstop, if_true, and_self]
        | _ => simp only [hstop, if_true, and_self]
      exact progress_cancelled h rfl hconcluded.left (Or.inl hconcluded.right.left)
        hconcluded.right.right
  | false =>
      have hnotstop : ¬ entry.job.stopEvent = true := by
        rw [hstop]
        decide
      have hconcluded : (exists mined, (concluded entry).job.status = .found ∧
          (concluded entry).worker = .announcingFound mined) ∨
          ((concluded entry).job.status = .failed ∧
            (concluded entry).worker = .announcingEnd) := by
        unfold concluded
        cases hthread : entry.job.thread with
        | ended outcome =>
            cases outcome with
            | error text =>
                apply Or.inr
                simp only [hstop, hthread, Bool.false_eq_true, if_false, and_self]
            | ok mined =>
                cases mined with
                | none =>
                    apply Or.inr
                    simp only [hstop, hthread, Bool.false_eq_true, if_false, and_self]
                | some mined =>
                    apply Or.inl
                    exists mined
                    simp only [hstop, hthread, Bool.false_eq_true, if_false, and_self]
        | _ =>
            apply Or.inr
            simp only [hstop, hthread, Bool.false_eq_true, if_false, and_self]
      rcases hconcluded with ⟨mined, hstatus, hworker⟩ | ⟨hstatus, hworker⟩
      · apply progress_running h rfl hstop
        · unfold JobEntry.Sound
          rw [hworker]
          exact ⟨hstatus, h.left⟩
        · rw [hstatus]
          intro hbusy
          cases hbusy
      · apply progress_running h rfl hstop
        · unfold JobEntry.Sound
          rw [hworker]
          change (concluded entry).job.status.final = true ∧ calls ≤ 1
          rw [hstatus, h.left]
          decide
        · rw [hstatus]
          intro hbusy
          cases hbusy

theorem workerJoins_follows [Crypto] (h : Sound service) (id : Str) :
    Follows service (workerJoins id service) := by
  apply h.withWorker
  intro entry hget hworker
  have hpending : entry.Pending (service.calls id) .mining := h.entry hget hworker
  cases hthread : entry.job.thread with
  | ended outcome => exact h.update hget (concluded_progress hpending)
  | _ => exact Follows.refl h

theorem workerTimesOut_follows (h : Sound service) (id : Str) :
    Follows service (workerTimesOut id service) := by
  apply h.withWorker
  intro entry hget hworker
  have hpending : entry.Pending (service.calls id) .mining := h.entry hget hworker
  apply h.update hget
  apply progress_same
  · refine ⟨hpending.left, ?_⟩
    rcases hpending.right with hmining | hcancelled
    · exact Or.inl hmining
    · exact Or.inr ⟨hcancelled.left, rfl⟩
  · rfl
  · exact fun _ => rfl

theorem workerWaitFails_follows [Crypto] (h : Sound service) (id : Str) (text : Str) :
    Follows service (workerWaitFails id text service) := by
  apply h.withWorker
  intro entry hget hworker
  have hpending : entry.Pending (service.calls id) .mining := h.entry hget hworker
  have hfailed : JobEntry.Pending { entry with job := { entry.job with error := some text } }
      (service.calls id) .mining := hpending
  have hprogress := concluded_progress hfailed
  exact h.update hget ⟨hprogress.sound, hprogress.busy,
    fun hdoomed => hprogress.doomed ⟨hdoomed.stopped, hdoomed.status, hdoomed.calls⟩,
    hprogress.final⟩

theorem workerStopsWaiting_follows [Crypto] (h : Sound service) (id : Str) (failed : Bool) :
    Follows service (workerStopsWaiting id failed service) := by
  apply h.withWorker
  intro entry hget hworker
  have hpending : entry.Pending (service.calls id) .mining := h.entry hget hworker
  cases failed with
  | true => exact h.update hget (progress_same hpending rfl (fun hstop => hstop))
  | false => exact h.update hget (concluded_progress hpending)

theorem progress_found {entry next : JobEntry} {calls added : Nat}
    (hfound : entry.job.status = .found) (hsound : next.Sound (calls + added))
    (hbusy : next.job.status.busy = false) : Progress entry next calls added := by
  constructor
  · exact hsound
  · rw [hbusy]
    intro hfalse
    cases hfalse
  · intro hdoomed
    exact (hdoomed.not_found hfound).elim
  · intro hfinal
    rw [hfound] at hfinal
    cases hfinal

theorem calls_append (service : MiningService) (id : Str) (mined : Block) (other : Str) :
    calls { service with submitted := service.submitted ++ [(id, mined)] } other =
      service.calls other + if other = id then 1 else 0 := by
  unfold calls
  rw [List.filter_append, List.length_append]
  by_cases heq : other = id
  · rw [if_pos heq, heq]
    simp only [List.filter_cons, decide_true, if_true, List.filter_nil, List.length_cons,
      List.length_nil]
  · have hne : ¬ id = other := fun h => heq h.symm
    rw [if_neg heq]
    simp only [List.filter_cons, hne, decide_false, Bool.false_eq_true, if_false,
      List.filter_nil, List.length_nil]

theorem workerSubmits_follows (h : Sound service) (id : Str) :
    Follows service (workerSubmits id service) := by
  unfold workerSubmits
  cases hget : service.jobs.get? id with
  | none => exact Follows.refl h
  | some entry =>
      cases hworker : entry.worker with
      | announcingFound mined =>
          have hfound : entry.job.status = .found ∧ service.calls id = 0 :=
            h.entry hget hworker
          have hprogress : Progress entry { entry with worker := .awaitingAccept }
              (service.calls id) 1 := by
            have hsound : JobEntry.Sound { entry with worker := .awaitingAccept }
                (service.calls id + 1) := by
              rw [hfound.right]
              exact ⟨hfound.left, rfl⟩
            apply progress_found hfound.left hsound
            change entry.job.status.busy = false
            rw [hfound.left]
            rfl
          simp only [hworker]
          constructor
          · refine h.setEntry hget hprogress ?_ ?_ ?_ ?_ ?_ ?_
            · rfl
            · exact calls_append service id mined
            · rfl
            · rfl
            · rfl
            · rfl
          · exact final_setEntry hget hprogress.final
          · intro call other hreturned
            exact hreturned
      | _ =>
          simp only [hworker]
          exact Follows.refl h

theorem workerAccepted_follows (h : Sound service) (id : Str) (answer : Except Str Bool) :
    Follows service (workerAccepted id answer service) := by
  apply h.withWorker
  intro entry hget hworker
  have hfound : entry.job.status = .found ∧ service.calls id = 1 := h.entry hget hworker
  have hidle : entry.job.status.busy = false := by
    rw [hfound.left]
    rfl
  have hends : JobStatus.final .accepted = true ∧ service.calls id ≤ 1 := by
    rw [hfound.right]
    decide
  cases answer with
  | error text => exact h.update hget (progress_found hfound.left hfound hidle)
  | ok accepted =>
      cases accepted with
      | false => exact h.update hget (progress_found hfound.left hfound hidle)
      | true => exact h.update hget (progress_found hfound.left hends rfl)

theorem workerStatus_follows (h : Sound service) (id : Str) (answer : Except Str Str) :
    Follows service (workerStatus id answer service) := by
  apply h.withWorker
  intro entry hget hworker
  have hfound : entry.job.status = .found ∧ service.calls id = 1 := h.entry hget hworker
  have hrejected : forall status : JobStatus, status.final = true -> status.busy = false ->
      forall text, Follows service (service.setEntry id
        { entry with
          job :=
            { entry.job with
              status := status
              error := orError entry.job.error text }
          worker := .announcingEnd }) := by
    intro status hfinal hidle text
    have hends : status.final = true ∧ service.calls id ≤ 1 := by
      rw [hfound.right]
      exact ⟨hfinal, le_refl 1⟩
    exact h.update hget (progress_found hfound.left hends hidle)
  cases answer with
  | error text => exact hrejected .failed rfl rfl _
  | ok tipHash =>
      change Follows service (if _ then _ else _)
      by_cases hmoved : tipHash ≠ entry.job.previousHash
      · rw [if_pos hmoved]
        exact hrejected .stale rfl rfl _
      · rw [if_neg hmoved]
        exact hrejected .failed rfl rfl _

theorem workerAnnounced_follows (h : Sound service) (id : Str) :
    Follows service (workerAnnounced id service) := by
  unfold workerAnnounced
  cases hget : service.jobs.get? id with
  | none => exact Follows.refl h
  | some entry =>
      cases hworker : entry.worker with
      | announcingCancelled =>
          have hends : entry.job.status.final = true ∧ service.calls id ≤ 1 :=
            h.entry hget hworker
          have hdone : JobEntry.Sound { entry with worker := .done } (service.calls id) :=
            hends
          simp only [hworker]
          exact h.update hget (progress_same hdone rfl (fun hstop => hstop))
      | announcingEnd =>
          have hends : entry.job.status.final = true ∧ service.calls id ≤ 1 :=
            h.entry hget hworker
          have hdone : JobEntry.Sound { entry with worker := .releasing }
              (service.calls id) := hends
          simp only [hworker]
          exact h.update hget (progress_same hdone rfl (fun hstop => hstop))
      | _ =>
          simp only [hworker]
          exact Follows.refl h

theorem Sound.freeSlot (h : Sound service)
    (hidle : forall entry, service.jobs.get? id = some entry ->
      entry.job.status.busy = false) : Follows service (service.freeSlot id) := by
  unfold MiningService.freeSlot
  by_cases hactive : service.activeJobId = some id
  · rw [if_pos hactive]
    constructor
    · refine ⟨h.entries, h.unknown, ?_, h.holder, h.locked, h.cancels⟩
      intro other entry hget hbusy
      have hsame := h.active other entry hget hbusy
      rw [hactive] at hsame
      rw [← Option.some.inj hsame] at hget
      rw [hidle entry hget] at hbusy
      cases hbusy
    · intro other entry hget _
      exact ⟨entry, hget, rfl⟩
    · intro call other hreturned
      exact hreturned
  · rw [if_neg hactive]
    exact Follows.refl h

theorem workerReleases_follows (h : Sound service) (id : Str) :
    Follows service (workerReleases id service) := by
  apply h.withWorker
  intro entry hget hworker
  have hends : entry.job.status.final = true ∧ service.calls id ≤ 1 := h.entry hget hworker
  change Follows service (if _ then _ else _)
  by_cases hlock : service.lockHolder = none
  · rw [if_pos hlock]
    have hdone : Follows service (service.setEntry id { entry with worker := .done }) :=
      h.update hget (progress_same hends rfl (fun hstop => hstop))
    apply hdone.trans
    apply hdone.sound.freeSlot
    intro found hfound
    rw [get?_setEntry hget, if_pos rfl] at hfound
    rw [← Option.some.inj hfound]
    exact busy_of_final hends.left
  · rw [if_neg hlock]
    exact Follows.refl h

theorem threadEnds_follows [Crypto] (h : Sound service) (id : Str)
    (stopped : Int -> Bool) (raised : Option Str) :
    Follows service (threadEnds id stopped raised service) := by
  unfold threadEnds
  cases hget : service.jobs.get? id with
  | none => exact Follows.refl h
  | some entry =>
      cases hthread : entry.job.thread with
      | running =>
          simp only [hthread]
          refine h.update hget (progress_same ?_ rfl (fun hstop => hstop))
          exact h.entries id entry hget
      | _ =>
          simp only [hthread]
          exact Follows.refl h

end WorkerTurns

/-!
## Turns of callers
-/

section CallerTurns

variable {service : MiningService}

theorem Sound.setCreate (h : Sound service) (call : Nat) {task : CreateTask}
    (htask : task.holding = true -> service.lockHolder = some call) :
    Follows service (service.setCreate call task) := by
  constructor
  · refine ⟨h.entries, h.unknown, h.active, ?_, h.locked, h.cancels⟩
    intro other found hfound hholding
    change (service.creates.set call task).get? other = some found at hfound
    rw [Dict.get?_set] at hfound
    by_cases heq : other = call
    · rw [if_pos heq] at hfound
      rw [← Option.some.inj hfound] at hholding
      rw [heq]
      exact htask hholding
    · rw [if_neg heq] at hfound
      exact h.holder other found hfound hholding
  · intro id entry hget _
    exact ⟨entry, hget, rfl⟩
  · intro other id hreturned
    exact hreturned

theorem Sound.unlock (h : Sound service) {call : Nat} {held task : CreateTask}
    (hget : service.creates.get? call = some held) (hheld : held.holding = true)
    (htask : task.holding = false) :
    Follows service (service.unlock.setCreate call task) := by
  have hholder := h.holder call held hget hheld
  constructor
  · refine ⟨h.entries, h.unknown, h.active, ?_, ?_, h.cancels⟩
    · intro other found hfound hholding
      change (service.creates.set call task).get? other = some found at hfound
      rw [Dict.get?_set] at hfound
      by_cases heq : other = call
      · rw [if_pos heq] at hfound
        rw [← Option.some.inj hfound, htask] at hholding
        cases hholding
      · rw [if_neg heq] at hfound
        have hsame := h.holder other found hfound hholding
        rw [hholder] at hsame
        exact absurd (Option.some.inj hsame).symm heq
    · intro hlocked
      exact absurd rfl hlocked
  · intro id entry hentry _
    exact ⟨entry, hentry, rfl⟩
  · intro other id hreturned
    exact hreturned

theorem createCalled_follows (h : Sound service) (call : Nat) (request : CreateRequest) :
    Follows service (createCalled call request service) := by
  unfold createCalled
  cases service.creates.get? call with
  | some task => exact Follows.refl h
  | none =>
      apply h.setCreate
      intro hholding
      cases hholding

theorem Sound.idle_of_slot (h : Sound service) (hslot : service.slotBusy = false) :
    forall id entry, service.jobs.get? id = some entry ->
      entry.job.status.busy = false := by
  intro id entry hget
  cases hbusy : entry.job.status.busy with
  | false => rfl
  | true =>
      unfold slotBusy at hslot
      rw [h.active id entry hget hbusy] at hslot
      simp only [hget] at hslot
      rw [hbusy] at hslot
      cases hslot

theorem createLocked_follows (h : Sound service) (call : Nat) :
    Follows service (createLocked call service) := by
  unfold createLocked
  cases hcall : service.creates.get? call with
  | none => exact Follows.refl h
  | some task =>
      cases task with
      | waitingLock request =>
          cases hlock : service.lockHolder with
          | some other => exact Follows.refl h
          | none =>
              cases hslot : service.slotBusy with
              | true =>
                  apply h.setCreate
                  intro hholding
                  cases hholding
              | false =>
                  have hlocked : Sound { service with lockHolder := some call } := by
                    refine ⟨h.entries, h.unknown, h.active, ?_, ?_, h.cancels⟩
                    · intro other found hfound hholding
                      have hheld := h.holder other found hfound hholding
                      rw [hlock] at hheld
                      cases hheld
                    · intro _
                      exact h.idle_of_slot hslot
                  have hnext : Follows { service with lockHolder := some call }
                      ({ service with lockHolder := some call }.setCreate call
                        (.awaitingTemplate request
                          (min (max 0 request.maxTransactions)
                            service.config.miningMaxTransactions)
                          (min (max 1000 request.maxBytes)
                            service.config.miningMaxBytes))) :=
                    hlocked.setCreate call (fun _ => rfl)
                  exact ⟨hnext.sound, hnext.final, hnext.returned⟩
      | _ => exact Follows.refl h

theorem createTemplate_follows (h : Sound service) (call : Nat)
    (answer : Except Str Block) : Follows service (createTemplate call answer service) := by
  unfold createTemplate
  cases hcall : service.creates.get? call with
  | none => exact Follows.refl h
  | some task =>
      cases task with
      | awaitingTemplate request maxTransactions maxBytes =>
          cases answer with
          | error text => exact h.unlock hcall rfl rfl
          | ok template =>
              apply h.setCreate
              intro _
              exact h.holder call _ hcall rfl
      | _ => exact Follows.refl h

theorem createInterrupted_follows (h : Sound service) (call : Nat) :
    Follows service (createInterrupted call service) := by
  unfold createInterrupted
  cases hcall : service.creates.get? call with
  | none => exact Follows.refl h
  | some task =>
      cases task with
      | waitingLock request =>
          apply h.setCreate
          intro hholding
          cases hholding
      | awaitingTemplate request maxTransactions maxBytes => exact h.unlock hcall rfl rfl
      | awaitingParent request template => exact h.unlock hcall rfl rfl
      | _ => exact Follows.refl h

theorem Sound.queue (h : Sound service) {jobId : Str} {entry : JobEntry}
    (hidle : forall id entry, service.jobs.get? id = some entry ->
      entry.job.status.busy = false)
    (hlock : service.lockHolder = none) (hfresh : jobId ∉ service.jobs.keys)
    (hentry : entry.Sound 0) :
    Follows service
      { service with jobs := service.jobs.set jobId entry, activeJobId := some jobId } := by
  have hunknown : service.jobs.get? jobId = none :=
    (Dict.get?_eq_none_iff _ _).mpr hfresh
  have hkept : forall id found, service.jobs.get? id = some found ->
      (service.jobs.set jobId entry).get? id = some found := by
    intro id found hget
    rw [Dict.get?_set]
    have hne : id ≠ jobId := by
      intro heq
      rw [heq, hunknown] at hget
      cases hget
    rw [if_neg hne]
    exact hget
  constructor
  · constructor
    · intro id found hget
      change (service.jobs.set jobId entry).get? id = some found at hget
      rw [Dict.get?_set] at hget
      by_cases heq : id = jobId
      · rw [if_pos heq] at hget
        rw [← Option.some.inj hget, heq]
        change entry.Sound (service.calls jobId)
        rw [h.unknown jobId hunknown]
        exact hentry
      · rw [if_neg heq] at hget
        exact h.entries id found hget
    · intro id hget
      change (service.jobs.set jobId entry).get? id = none at hget
      rw [Dict.get?_set] at hget
      by_cases heq : id = jobId
      · rw [if_pos heq] at hget
        cases hget
      · rw [if_neg heq] at hget
        exact h.unknown id hget
    · intro id found hget hbusy
      change (service.jobs.set jobId entry).get? id = some found at hget
      rw [Dict.get?_set] at hget
      by_cases heq : id = jobId
      · rw [heq]
      · rw [if_neg heq] at hget
        rw [hidle id found hget] at hbusy
        cases hbusy
    · exact h.holder
    · intro hlocked
      exact absurd hlock hlocked
    · intro call task id htask hcancelling
      rcases h.cancels call task id htask hcancelling with ⟨found, hget, hdoomed⟩
      exact ⟨found, hkept id found hget, hdoomed⟩
  · intro id found hget _
    exact ⟨found, hkept id found hget, rfl⟩
  · intro call id hreturned
    exact hreturned

theorem createParent_follows (h : Sound service) (call : Nat)
    (answer : Except Str (Option Nat)) (jobId : Str) :
    Follows service (createParent call answer jobId service) := by
  unfold createParent
  cases hcall : service.creates.get? call with
  | none => exact Follows.refl h
  | some task =>
      cases task with
      | awaitingParent request template =>
          cases answer with
          | error text => exact h.unlock hcall rfl rfl
          | ok parentHeight =>
              change Follows service (if _ then _ else _)
              by_cases hfresh : jobId ∈ service.jobs.keys
              · rw [if_pos hfresh]
                exact Follows.refl h
              · rw [if_neg hfresh]
                have hlocked : service.lockHolder ≠ none := by
                  rw [h.holder call _ hcall rfl]
                  exact Option.some_ne_none call
                have hunlocked :
                    Follows service (service.unlock.setCreate call (.returned jobId)) :=
                  h.unlock hcall rfl rfl
                have hqueued : JobEntry.Sound
                    { job := newJob request template parentHeight
                      template := template
                      maxNonce := boundedNonce service.config request.maxNonce
                      worker := .scheduled } 0 := ⟨rfl, Or.inl rfl⟩
                exact hunlocked.trans
                  (hunlocked.sound.queue (h.locked hlocked) rfl hfresh hqueued)
      | _ => exact Follows.refl h

theorem Sound.setCancel (h : Sound service) {call : Nat} {task : CancelTask}
    (hopen : forall id, service.cancels.get? call ≠ some (.returned id true))
    (htask : forall id, task.cancelling = some id -> exists entry,
      service.jobs.get? id = some entry ∧ entry.Doomed (service.calls id) ∧
        (task.marked = true -> entry.job.status = .cancelled)) :
    Follows service (service.setCancel call task) := by
  constructor
  · refine ⟨h.entries, h.unknown, h.active, h.holder, h.locked, ?_⟩
    intro other found id hfound hcancelling
    change (service.cancels.set call task).get? other = some found at hfound
    rw [Dict.get?_set] at hfound
    by_cases heq : other = call
    · rw [if_pos heq] at hfound
      rw [← Option.some.inj hfound] at hcancelling ⊢
      exact htask id hcancelling
    · rw [if_neg heq] at hfound
      exact h.cancels other found id hfound hcancelling
  · intro id entry hget _
    exact ⟨entry, hget, rfl⟩
  · intro other id hreturned
    change (service.cancels.set call task).get? other = _
    rw [Dict.get?_set]
    by_cases heq : other = call
    · rw [heq] at hreturned
      exact absurd hreturned (hopen id)
    · rw [if_neg heq]
      exact hreturned

theorem Sound.mark (h : Sound service) {id : Str} {entry : JobEntry}
    (hget : service.jobs.get? id = some entry) (hdoomed : entry.Doomed (service.calls id)) :
    Follows service (markCancelled id service) ∧
      (markCancelled id service).cancels = service.cancels ∧
      exists marked, (markCancelled id service).jobs.get? id = some marked ∧
        marked.Doomed ((markCancelled id service).calls id) ∧
        marked.job.status = .cancelled := by
  have hmark : markCancelled id service = service.setEntry id
      { entry with job := { entry.job with status := .cancelled } } := by
    unfold markCancelled
    rw [hget]
  have hprogress : Progress entry
      { entry with job := { entry.job with status := .cancelled } }
      (service.calls id) 0 := by
    constructor
    · exact (h.entries id entry hget).mark hdoomed
    · intro hbusy
      cases hbusy
    · intro _
      exact ⟨hdoomed.stopped, Or.inr rfl, hdoomed.calls⟩
    · intro hfinal
      rcases hdoomed.status with hbusy | hcancelled
      · rw [busy_of_final hfinal] at hbusy
        cases hbusy
      · exact hcancelled.symm
  rw [hmark]
  refine ⟨h.update hget hprogress, rfl, _, ?_, hprogress.doomed hdoomed, rfl⟩
  rw [get?_setEntry hget, if_pos rfl]

theorem cancelCalled_follows (h : Sound service) (call : Nat) (jobId : Str)
    (userId : Option Int) (isAdmin : Bool) :
    Follows service (cancelCalled call jobId userId isAdmin service) := by
  unfold cancelCalled
  cases hcall : service.cancels.get? call with
  | some task => exact Follows.refl h
  | none =>
      have hopen : forall id, service.cancels.get? call ≠ some (.returned id true) := by
        intro id hreturned
        rw [hcall] at hreturned
        cases hreturned
      have hended : forall task : CancelTask, task.cancelling = none ->
          Follows service (service.setCancel call task) := by
        intro task hnone
        apply h.setCancel hopen
        intro id hcancelling
        rw [hnone] at hcancelling
        cases hcancelling
      cases hget : service.jobs.get? jobId with
      | none => exact hended _ rfl
      | some entry =>
          change Follows service (if _ then _ else if _ then _ else _)
          by_cases hforbidden : userId.isSome = true ∧ userId ≠ some entry.job.userId ∧
              isAdmin = false
          · rw [if_pos hforbidden]
            exact hended _ rfl
          · rw [if_neg hforbidden]
            by_cases hidle : entry.job.status.busy = false
            · rw [if_pos hidle]
              exact hended _ rfl
            · rw [if_neg hidle]
              have hbusy : entry.job.status.busy = true := eq_true_of_ne_false hidle
              have hsound := h.entries jobId entry hget
              have hstopped : Follows service (service.setEntry jobId
                  { entry with job := { entry.job with stopEvent := true } }) :=
                h.update hget (progress_same hsound.stop rfl (fun _ => rfl))
              have hget' : (service.setEntry jobId
                  { entry with
                    job := { entry.job with stopEvent := true } }).jobs.get? jobId =
                  some { entry with job := { entry.job with stopEvent := true } } := by
                rw [get?_setEntry hget, if_pos rfl]
              have hdoomed : JobEntry.Doomed
                  { entry with job := { entry.job with stopEvent := true } }
                  (service.calls jobId) := ⟨rfl, Or.inl hbusy, hsound.calls_of_busy hbusy⟩
              apply hstopped.trans
              cases hthread : entry.job.thread with
              | running =>
                  apply hstopped.sound.setCancel hopen
                  intro id hcancelling
                  rw [← Option.some.inj hcancelling]
                  refine ⟨_, hget', hdoomed, ?_⟩
                  intro hmarked
                  cases hmarked
              | _ =>
                  rcases hstopped.sound.mark hget' hdoomed with
                    ⟨hmarked, hcancels, marked, hfound, hdoomed', hcancelled⟩
                  apply hmarked.trans
                  apply hmarked.sound.setCancel
                  · rw [hcancels]
                    exact hopen
                  · intro id hcancelling
                    rw [← Option.some.inj hcancelling]
                    exact ⟨marked, hfound, hdoomed', fun _ => hcancelled⟩

theorem cancelJoined_follows (h : Sound service) (call : Nat) :
    Follows service (cancelJoined call service) := by
  unfold cancelJoined
  cases hcall : service.cancels.get? call with
  | none => exact Follows.refl h
  | some task =>
      cases task with
      | joining jobId =>
          rcases h.cancels call _ jobId hcall rfl with ⟨entry, hget, hdoomed, _⟩
          rcases h.mark hget hdoomed with
            ⟨hmarked, hcancels, marked, hfound, hdoomed', hcancelled⟩
          apply hmarked.trans
          apply hmarked.sound.setCancel
          · intro id hreturned
            rw [hcancels, hcall] at hreturned
            cases hreturned
          · intro id hcancelling
            rw [← Option.some.inj hcancelling]
            exact ⟨marked, hfound, hdoomed', fun _ => hcancelled⟩
      | _ => exact Follows.refl h

theorem cancelReleases_follows (h : Sound service) (call : Nat) :
    Follows service (cancelReleases call service) := by
  unfold cancelReleases
  cases hcall : service.cancels.get? call with
  | none => exact Follows.refl h
  | some task =>
      cases task with
      | releasing jobId =>
          cases hlock : service.lockHolder with
          | some holder => exact Follows.refl h
          | none =>
              rcases h.cancels call _ jobId hcall rfl with ⟨entry, hget, hdoomed, hmarked⟩
              have hcancelled := hmarked rfl
              have hfreed : Follows service (service.freeSlot jobId) := by
                apply h.freeSlot
                intro found hfound
                rw [hget] at hfound
                rw [← Option.some.inj hfound, hcancelled]
                rfl
              have hsame : (service.freeSlot jobId).cancels = service.cancels ∧
                  (service.freeSlot jobId).jobs = service.jobs ∧
                  (service.freeSlot jobId).submitted = service.submitted := by
                unfold MiningService.freeSlot
                by_cases hactive : service.activeJobId = some jobId
                · rw [if_pos hactive]
                  exact ⟨rfl, rfl, rfl⟩
                · rw [if_neg hactive]
                  exact ⟨rfl, rfl, rfl⟩
              apply hfreed.trans
              apply hfreed.sound.setCancel
              · intro id hreturned
                rw [hsame.left, hcall] at hreturned
                cases hreturned
              · intro id hcancelling
                rw [← Option.some.inj hcancelling]
                unfold calls
                rw [hsame.right.left, hsame.right.right]
                exact ⟨entry, hget, hdoomed, fun _ => hcancelled⟩
      | _ => exact Follows.refl h

theorem cancelReturns_follows (h : Sound service) (call : Nat) :
    Follows service (cancelReturns call service) := by
  unfold cancelReturns
  cases hcall : service.cancels.get? call with
  | none => exact Follows.refl h
  | some task =>
      cases task with
      | announcing jobId =>
          apply h.setCancel
          · intro id hreturned
            rw [hcall] at hreturned
            cases hreturned
          · intro id hcancelling
            rw [← Option.some.inj hcancelling]
            rcases h.cancels call (.announcing jobId) jobId hcall rfl with
              ⟨entry, hget, hdoomed, hmarked⟩
            exact ⟨entry, hget, hdoomed, fun _ => hmarked rfl⟩
      | _ => exact Follows.refl h

theorem cancelInterrupted_follows (h : Sound service) (call : Nat) :
    Follows service (cancelInterrupted call service) := by
  unfold cancelInterrupted
  have hinterrupted : forall task id, service.cancels.get? call = some task ->
      task = .joining id ∨ task = .releasing id ∨ task = .announcing id ->
      Follows service (service.setCancel call .interrupted) := by
    intro task id hcall hwaiting
    apply h.setCancel
    · intro other hreturned
      rw [hcall] at hreturned
      rcases hwaiting with hwaiting | hwaiting | hwaiting
      · rw [hwaiting] at hreturned
        cases hreturned
      · rw [hwaiting] at hreturned
        cases hreturned
      · rw [hwaiting] at hreturned
        cases hreturned
    · intro other hcancelling
      cases hcancelling
  cases hcall : service.cancels.get? call with
  | none => exact Follows.refl h
  | some task =>
      cases task with
      | joining jobId => exact hinterrupted _ jobId hcall (Or.inl rfl)
      | releasing jobId => exact hinterrupted _ jobId hcall (Or.inr (Or.inl rfl))
      | announcing jobId => exact hinterrupted _ jobId hcall (Or.inr (Or.inr rfl))
      | _ => exact Follows.refl h

end CallerTurns

/-!
## Runs
-/

section Runs

variable [Crypto]

theorem next_follows {service : MiningService} (h : Sound service) (turn : Turn) :
    Follows service (next turn service) := by
  cases turn with
  | createCalled call request => exact createCalled_follows h call request
  | createLocked call => exact createLocked_follows h call
  | createTemplate call answer => exact createTemplate_follows h call answer
  | createParent call answer jobId => exact createParent_follows h call answer jobId
  | createInterrupted call => exact createInterrupted_follows h call
  | workerStarts id => exact workerStarts_follows h id
  | workerSpawns id started => exact workerSpawns_follows h id started
  | workerJoins id => exact workerJoins_follows h id
  | workerTimesOut id => exact workerTimesOut_follows h id
  | workerWaitFails id text => exact workerWaitFails_follows h id text
  | workerStopsWaiting id failed => exact workerStopsWaiting_follows h id failed
  | workerSubmits id => exact workerSubmits_follows h id
  | workerAccepted id answer => exact workerAccepted_follows h id answer
  | workerStatus id answer => exact workerStatus_follows h id answer
  | workerAnnounced id => exact workerAnnounced_follows h id
  | workerReleases id => exact workerReleases_follows h id
  | threadEnds id stopped raised => exact threadEnds_follows h id stopped raised
  | cancelCalled call jobId userId isAdmin =>
      exact cancelCalled_follows h call jobId userId isAdmin
  | cancelJoined call => exact cancelJoined_follows h call
  | cancelReleases call => exact cancelReleases_follows h call
  | cancelReturns call => exact cancelReturns_follows h call
  | cancelInterrupted call => exact cancelInterrupted_follows h call

theorem run_follows (turns : List Turn) :
    forall service, Sound service -> Follows service (machine.run turns service) := by
  induction turns with
  | nil =>
      intro service h
      exact Follows.refl h
  | cons turn rest ih =>
      intro service h
      have hnext := next_follows h turn
      exact hnext.trans (ih _ hnext.sound)

/-- Under any interleaving, at most one job is queued or mining; a job that has ended keeps
its status; a job that a call has answered to be cancelled is and stays cancelled, and its
block is never passed to the node; and no job's block is passed to the node twice. -/
theorem mining_jobs_safe (config : MiningConfig) (turns later : List Turn) :
    let service := machine.run turns (create config)
    let final := machine.run later service
    (forall id other entry rival, service.jobs.get? id = some entry ->
      service.jobs.get? other = some rival -> entry.job.status.busy = true ->
      rival.job.status.busy = true -> id = other) ∧
    (forall id entry, service.jobs.get? id = some entry -> entry.job.status.final = true ->
      exists after, final.jobs.get? id = some after ∧
        after.job.status = entry.job.status) ∧
    (forall call id, service.cancels.get? call = some (.returned id true) ->
      (forall block, (id, block) ∉ final.submitted) ∧
        exists after, final.jobs.get? id = some after ∧ after.job.status = .cancelled) ∧
    (forall id, (service.submitted.filter (fun item => item.1 = id)).length ≤ 1) := by
  intro service final
  have hsound : Sound service := (run_follows turns _ (create_sound config)).sound
  have hfollows : Follows service final := run_follows later service hsound
  refine ⟨?_, hfollows.final, ?_, ?_⟩
  · intro id other entry rival hget hother hbusy hrival
    have hactive := hsound.active id entry hget hbusy
    rw [hsound.active other rival hother hrival] at hactive
    exact (Option.some.inj hactive).symm
  · intro call id hreturned
    rcases hfollows.sound.cancels call _ id (hfollows.returned call id hreturned) rfl with
      ⟨after, hget, hdoomed, hcancelled⟩
    constructor
    · intro block hmem
      have hcalls : final.calls id = 0 := hdoomed.calls
      have hfiltered : (id, block) ∈
          final.submitted.filter (fun item => item.1 = id) :=
        List.mem_filter.mpr ⟨hmem, decide_eq_true rfl⟩
      rw [List.eq_nil_of_length_eq_zero hcalls] at hfiltered
      cases hfiltered
    · exact ⟨after, hget, hcancelled rfl⟩
  · intro id
    change service.calls id ≤ 1
    cases hget : service.jobs.get? id with
    | none =>
        rw [hsound.unknown id hget]
        exact Nat.zero_le 1
    | some entry => exact (hsound.entries id entry hget).calls_le

end Runs

end MiningService

end Api

end PyChain
