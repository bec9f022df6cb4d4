import Mathlib.Algebra.Order.Group.MinMax
import Mathlib.Algebra.Order.Ring.Unbundled.Rat
import Mathlib.Tactic.Linarith
import Mathlib.Tactic.Ring
import PyChain.Crypto.Primitives
import PyChain.Foundation.Raising
import PyChain.Foundation.Metering

/-!
# Token buckets

A bucket refills with the time its clock has gained on the largest reading so
far, up to its capacity.  Its clock is part of each call, and nothing is assumed
of the readings.
-/

namespace PyChain

open Foundation

namespace Network

structure TokenBucket where
  rate : Rat
  capacity : Rat
  tokens : Rat
  updated : Rat
deriving DecidableEq, Repr

namespace TokenBucket

def create (rate capacity now : Rat) : TokenBucket :=
  { rate := rate, capacity := capacity, tokens := capacity, updated := now }

def make (rate capacity now : Rat) : Except PyError TokenBucket := do
  require (0 < rate ∧ 0 < capacity)
    (PyError.valueError "token rate and capacity must be positive")
  return create rate capacity now

def consume (now amount : Rat) (bucket : TokenBucket) : Bool × TokenBucket :=
  let elapsed := max 0 (now - bucket.updated)
  let tokens := min bucket.capacity (bucket.tokens + elapsed * bucket.rate)
  let refilled := { bucket with updated := max bucket.updated now, tokens := tokens }
  if tokens < amount then (false, refilled)
  else (true, { refilled with tokens := tokens - amount })

/-- The method with its check, which comes before the clock is read. -/
def tryConsume (now amount : Rat) (bucket : TokenBucket) :
    Except PyError (Bool × TokenBucket) := do
  require (0 ≤ amount) (PyError.valueError "token amount must be nonnegative")
  return bucket.consume now amount

/-!
## One call
-/

/-- A call that passes the check: what the clock reads and how much is asked. -/
structure Call where
  reading : Rat
  amount : Rat
  nonneg : 0 ≤ amount

/-- The time a call is credited with. -/
def elapsed (call : Call) (bucket : TokenBucket) : Rat :=
  max 0 (call.reading - bucket.updated)

/-- The tokens there are when a call is decided. -/
def refilled (call : Call) (bucket : TokenBucket) : Rat :=
  min bucket.capacity (bucket.tokens + elapsed call bucket * bucket.rate)

/-- The bucket under a sequence of calls. -/
def machine : Machine TokenBucket Call Bool where
  step call bucket := bucket.consume call.reading call.amount

def granted (call : Call) (bucket : TokenBucket) : Rat :=
  if (machine.step call bucket).1 then call.amount else 0

theorem tryConsume_eq (call : Call) (bucket : TokenBucket) :
    bucket.tryConsume call.reading call.amount = .ok (machine.step call bucket) := by
  unfold tryConsume require
  rw [if_pos call.nonneg]
  rfl

theorem make_eq_ok_iff {rate capacity now : Rat} {bucket : TokenBucket} :
    make rate capacity now = .ok bucket <->
      (0 < rate ∧ 0 < capacity) ∧ bucket = create rate capacity now := by
  unfold make
  rw [bind_eq_ok_iff]
  constructor
  · intro h
    rcases h with ⟨answer, hchecked, hbucket⟩
    exact ⟨require_eq_ok_iff.mp hchecked, (Except.ok.inj hbucket).symm⟩
  · intro h
    exact ⟨(), require_eq_ok_iff.mpr h.left, congrArg Except.ok h.right.symm⟩

theorem step_tokens (call : Call) (bucket : TokenBucket) :
    (machine.step call bucket).2.tokens = refilled call bucket - granted call bucket := by
  by_cases hshort : refilled call bucket < call.amount
  · have hstep : machine.step call bucket =
        (false, { bucket with
          updated := max bucket.updated call.reading, tokens := refilled call bucket }) :=
      if_pos hshort
    rw [granted, hstep]
    exact (sub_zero _).symm
  · have hstep : machine.step call bucket =
        (true, { bucket with
          updated := max bucket.updated call.reading
          tokens := refilled call bucket - call.amount }) :=
      if_neg hshort
    rw [granted, hstep]
    rfl

theorem step_fields (call : Call) (bucket : TokenBucket) :
    (machine.step call bucket).2.rate = bucket.rate ∧
      (machine.step call bucket).2.capacity = bucket.capacity ∧
      (machine.step call bucket).2.updated = max bucket.updated call.reading := by
  unfold machine consume
  dsimp only
  split
  · exact ⟨rfl, rfl, rfl⟩
  · exact ⟨rfl, rfl, rfl⟩

theorem granted_le (call : Call) (bucket : TokenBucket) (h : 0 ≤ refilled call bucket) :
    granted call bucket ≤ refilled call bucket := by
  by_cases hshort : refilled call bucket < call.amount
  · have hstep : (machine.step call bucket).1 = false :=
      congrArg Prod.fst (if_pos hshort)
    rw [granted, hstep]
    exact h
  · have hstep : (machine.step call bucket).1 = true :=
      congrArg Prod.fst (if_neg hshort)
    rw [granted, hstep]
    exact not_lt.mp hshort

theorem granted_nonneg (call : Call) (bucket : TokenBucket) : 0 ≤ granted call bucket := by
  unfold granted
  split
  · exact call.nonneg
  · exact le_refl 0

theorem elapsed_nonneg (call : Call) (bucket : TokenBucket) : 0 ≤ elapsed call bucket :=
  le_max_left _ _

theorem elapsed_eq (call : Call) (bucket : TokenBucket) :
    elapsed call bucket = (machine.step call bucket).2.updated - bucket.updated := by
  rw [(step_fields call bucket).right.right, elapsed, ← max_sub_sub_right, sub_self]

/-!
## Every call
-/

/-- What every call keeps: the parameters, and the level between zero and the capacity. -/
structure Level (rate capacity : Rat) (bucket : TokenBucket) : Prop where
  rate_eq : bucket.rate = rate
  capacity_eq : bucket.capacity = capacity
  rate_pos : 0 < rate
  nonneg : 0 ≤ bucket.tokens
  le_capacity : bucket.tokens ≤ capacity

namespace Level

variable {rate capacity : Rat} {bucket : TokenBucket}

theorem le_refilled (h : Level rate capacity bucket) (call : Call) :
    bucket.tokens ≤ refilled call bucket := by
  have hgain : 0 ≤ elapsed call bucket * bucket.rate := by
    rw [h.rate_eq]
    exact mul_nonneg (elapsed_nonneg call bucket) h.rate_pos.le
  unfold refilled
  apply le_min
  · rw [h.capacity_eq]
    exact h.le_capacity
  · linarith

theorem step (h : Level rate capacity bucket) (call : Call) :
    Level rate capacity (machine.step call bucket).2 := by
  rcases step_fields call bucket with ⟨hrate, hcapacity, _⟩
  have hrefilled := h.le_refilled call
  have hnonneg := h.nonneg
  have hgranted := granted_le call bucket (hnonneg.trans hrefilled)
  have htaken := granted_nonneg call bucket
  have hfull : refilled call bucket ≤ capacity := by
    rw [← h.capacity_eq]
    exact min_le_left _ _
  constructor
  · rw [hrate, h.rate_eq]
  · rw [hcapacity, h.capacity_eq]
  · exact h.rate_pos
  · rw [step_tokens]
    linarith
  · rw [step_tokens]
    linarith

theorem run (h : Level rate capacity bucket) (calls : List Call) :
    Level rate capacity (machine.run calls bucket) :=
  machine.run_invariant (fun call _ hlevel => hlevel.step call) calls bucket h

theorem step_covered (h : Level rate capacity bucket) (call : Call) :
    granted call bucket + (machine.step call bucket).2.tokens ≤
      bucket.tokens + rate * elapsed call bucket := by
  have hrefilled : refilled call bucket ≤ bucket.tokens + elapsed call bucket * bucket.rate :=
    min_le_right _ _
  rw [h.rate_eq] at hrefilled
  rw [step_tokens]
  linarith

end Level

/-!
## Readings of the clock
-/

/-- The largest reading, the constructor's included. -/
def largestReading (start : Rat) (calls : List Call) : Rat :=
  (calls.map Call.reading).foldl max start

/-- How often a call is credited with an instant: the instants after the last refill,
as far as the call's time goes. -/
def credits (instant : Rat) (call : Call) (bucket : TokenBucket) : Nat :=
  if bucket.updated < instant ∧ instant ≤ bucket.updated + elapsed call bucket then 1 else 0

theorem largestReading_append (start : Rat) (before window : List Call) :
    largestReading start (before ++ window) =
      largestReading (largestReading start before) window := by
  unfold largestReading
  rw [List.map_append, List.foldl_append]

theorem run_updated (calls : List Call) (bucket : TokenBucket) :
    (machine.run calls bucket).updated = largestReading bucket.updated calls := by
  induction calls generalizing bucket with
  | nil => rfl
  | cons call rest ih =>
      rw [Machine.run, ih, (step_fields call bucket).right.right]
      rfl

theorem credits_eq (instant : Rat) :
    credits instant = machine.passes TokenBucket.updated instant := by
  funext call bucket
  have hreached : bucket.updated + elapsed call bucket =
      (machine.step call bucket).2.updated := by
    rw [elapsed_eq]
    ring
  unfold credits Machine.passes
  rw [hreached]

theorem updated_le_step (call : Call) (bucket : TokenBucket) :
    bucket.updated ≤ (machine.step call bucket).2.updated := by
  rw [(step_fields call bucket).right.right]
  exact le_max_left _ _

theorem total_credits_le (instant : Rat) (calls : List Call) (bucket : TokenBucket) :
    machine.total (credits instant) calls bucket ≤ 1 := by
  rw [credits_eq, machine.total_passes updated_le_step]
  split
  · exact le_refl 1
  · exact Nat.zero_le 1

theorem Level.total_granted_le {rate capacity : Rat} {bucket : TokenBucket}
    (h : Level rate capacity bucket) (calls : List Call) :
    machine.total granted calls bucket ≤
      capacity + rate * (largestReading bucket.updated calls - bucket.updated) := by
  have hcovered := machine.total_potential_le (Level rate capacity) TokenBucket.tokens
    (fun call _ hlevel => hlevel.step call) (fun call _ hlevel => hlevel.step_covered call)
    calls bucket h
  -- the refill is the rise of the largest reading, counted in tokens
  have hrise := machine.total_rise (fun reached => rate * reached.updated)
    (fun call reached => rate * elapsed call reached)
    (fun call reached => by rw [elapsed_eq, mul_sub]) calls bucket
  have hleft := (h.run calls).nonneg
  have hfull := h.le_capacity
  rw [hrise, ← mul_sub, run_updated] at hcovered
  linarith

theorem Level.of_make {rate capacity start : Rat} {bucket : TokenBucket}
    (h : make rate capacity start = .ok bucket) : Level rate capacity bucket := by
  rcases make_eq_ok_iff.mp h with ⟨⟨hrate, hcapacity⟩, rfl⟩
  exact ⟨rfl, rfl, hrate, hcapacity.le, le_refl capacity⟩

/-- Whatever the clock reads, the level stays between zero and the capacity, a stretch of
calls is granted at most the capacity and the refill of the time that the largest reading
gains in it, a refusal takes nothing, and no instant is credited twice. -/
theorem consume_bounded {rate capacity start : Rat} {bucket : TokenBucket}
    (hmade : make rate capacity start = .ok bucket) :
    (forall calls, 0 ≤ (machine.run calls bucket).tokens ∧
        (machine.run calls bucket).tokens ≤ capacity) ∧
      (forall before window,
        machine.total granted window (machine.run before bucket) ≤
          capacity +
            rate * (largestReading start (before ++ window) - largestReading start before)) ∧
      (forall before call,
        (machine.step call (machine.run before bucket)).1 = false ->
          (machine.run before bucket).tokens ≤
            (machine.step call (machine.run before bucket)).2.tokens) ∧
      (forall before call,
        (machine.step call (machine.run before bucket)).2.tokens =
          min capacity
              ((machine.run before bucket).tokens +
                rate * elapsed call (machine.run before bucket)) -
            granted call (machine.run before bucket)) ∧
      (forall calls instant, machine.total (credits instant) calls bucket ≤ 1) := by
  have hlevel := Level.of_make hmade
  have hstart : bucket.updated = start := by
    rw [(make_eq_ok_iff.mp hmade).right]
    rfl
  refine ⟨?_, ?_, ?_, ?_, ?_⟩
  · intro calls
    exact ⟨(hlevel.run calls).nonneg, (hlevel.run calls).le_capacity⟩
  · intro before window
    have hgranted := (hlevel.run before).total_granted_le window
    rw [run_updated, hstart] at hgranted
    rw [largestReading_append]
    exact hgranted
  · intro before call hrefused
    rw [step_tokens, granted, hrefused]
    exact ((hlevel.run before).le_refilled call).trans_eq (sub_zero _).symm
  · intro before call
    rw [step_tokens, refilled, (hlevel.run before).rate_eq, (hlevel.run before).capacity_eq,
      mul_comm]
  · intro calls instant
    exact total_credits_le instant calls bucket

/-- Ten tokens a second and at most twenty: across a regression of the clock, the calls of
half a second are granted at most twenty-five. -/
theorem consume_bounded_regression :
    machine.total granted
        [⟨1 / 2, 5, by decide⟩, ⟨1 / 4, 1, by decide⟩, ⟨1 / 2, 1, by decide⟩]
        (machine.run [⟨0, 20, by decide⟩, ⟨0, 1, by decide⟩] (create 10 20 0)) ≤ 25 := by
  have hmade : make 10 20 0 = .ok (create 10 20 0) :=
    make_eq_ok_iff.mpr ⟨⟨by norm_num, by norm_num⟩, rfl⟩
  have hwindow := (consume_bounded hmade).right.left
    [⟨0, 20, by decide⟩, ⟨0, 1, by decide⟩]
    [⟨1 / 2, 5, by decide⟩, ⟨1 / 4, 1, by decide⟩, ⟨1 / 2, 1, by decide⟩]
  norm_num [largestReading] at hwindow
  exact hwindow

end TokenBucket

end Network

end PyChain
