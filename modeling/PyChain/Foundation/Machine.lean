import Mathlib.Logic.Basic

/-!
# Deterministic machines

A machine answers each call with a result and a next state.  All choices of the
environment (arguments, clocks, random tokens, faults, schedules) are part of
the call, so a run is a list of calls.  The rules below turn facts about one
step into facts about every run.
-/

namespace PyChain
namespace Foundation

structure Machine (state call result : Type) where
  step : call -> state -> result × state

namespace Machine

variable {state call result : Type}

/-- The state after a list of calls. -/
def run (m : Machine state call result) : List call -> state -> state
  | [], s => s
  | c :: rest, s => m.run rest (m.step c s).2

/-- The results of a list of calls, in order. -/
def results (m : Machine state call result) : List call -> state -> List result
  | [], _ => []
  | c :: rest, s => (m.step c s).1 :: m.results rest (m.step c s).2

theorem run_append (m : Machine state call result) (xs ys : List call) (s : state) :
    m.run (xs ++ ys) s = m.run ys (m.run xs s) := by
  induction xs generalizing s with
  | nil => rfl
  | cons c rest ih => exact ih (m.step c s).2

theorem results_append (m : Machine state call result) (xs ys : List call) (s : state) :
    m.results (xs ++ ys) s = m.results xs s ++ m.results ys (m.run xs s) := by
  induction xs generalizing s with
  | nil => rfl
  | cons c rest ih =>
      rw [List.cons_append, results, results, ih, List.cons_append]
      rfl

/-- What every step preserves, every run preserves. -/
theorem run_invariant (m : Machine state call result) {Inv : state -> Prop}
    (hstep : forall c s, Inv s -> Inv (m.step c s).2) :
    forall (calls : List call) (s : state), Inv s -> Inv (m.run calls s) := by
  intro calls
  induction calls with
  | nil =>
      intro s hs
      exact hs
  | cons c rest ih =>
      intro s hs
      exact ih (m.step c s).2 (hstep c s hs)

/-- As `run_invariant`, for a step that needs an allowed call and a state that has been
seen along the run. -/
theorem run_invariant_along (m : Machine state call result) (Allowed : call -> Prop)
    (Seen Inv : state -> Prop)
    (hstep : forall c s, Allowed c -> Seen (m.step c s).2 -> Inv s -> Inv (m.step c s).2) :
    forall (calls : List call) (s : state), (forall c, c ∈ calls -> Allowed c) ->
      (forall done later, calls = done ++ later -> Seen (m.run done s)) -> Inv s ->
        Inv (m.run calls s) := by
  intro calls
  induction calls with
  | nil =>
      intro s _ _ hs
      exact hs
  | cons c rest ih =>
      intro s hallowed hseen hs
      apply ih (m.step c s).2 (fun c' hc' => hallowed c' (List.mem_cons_of_mem c hc'))
      · intro done later heq
        exact hseen (c :: done) later (by rw [heq, List.cons_append])
      · exact hstep c s (hallowed c List.mem_cons_self) (hseen [c] rest rfl) hs

/-- A reflexive and transitive relation that every step respects relates the
first and the last state of every run. -/
theorem run_relation (m : Machine state call result) {Rel : state -> state -> Prop}
    (hrefl : forall s, Rel s s)
    (htrans : forall r s t, Rel r s -> Rel s t -> Rel r t)
    (hstep : forall c s, Rel s (m.step c s).2) :
    forall (calls : List call) (s : state), Rel s (m.run calls s) := by
  intro calls
  induction calls with
  | nil =>
      intro s
      exact hrefl s
  | cons c rest ih =>
      intro s
      exact htrans s (m.step c s).2 _ (hstep c s) (ih (m.step c s).2)

/-- Step-by-step simulation: as long as the environment does what is allowed,
related states answer alike and stay related, so whole runs answer alike and end
related.  Both relations may look at the answers given so far. -/
theorem run_simulation {other : Type} (m : Machine state call result)
    (n : Machine other call result) {Allowed : List result -> call -> other -> Prop}
    {Rel : List result -> state -> other -> Prop}
    (hstep : forall past c s t, Rel past s t -> Allowed past c t ->
      (m.step c s).1 = (n.step c t).1 ∧
        Rel (past ++ [(n.step c t).1]) (m.step c s).2 (n.step c t).2) :
    forall (calls : List call) (past : List result) (s : state) (t : other), Rel past s t ->
      (forall done c rest, calls = done ++ c :: rest ->
        Allowed (past ++ n.results done t) c (n.run done t)) ->
      m.results calls s = n.results calls t ∧
        Rel (past ++ n.results calls t) (m.run calls s) (n.run calls t) := by
  intro calls
  induction calls with
  | nil =>
      intro past s t hst _
      refine ⟨rfl, ?_⟩
      rw [results, List.append_nil]
      exact hst
  | cons c rest ih =>
      intro past s t hst hallowed
      have hfirst := hallowed [] c rest rfl
      rw [results, List.append_nil] at hfirst
      rcases hstep past c s t hst hfirst with ⟨hresult, hnext⟩
      rcases ih _ (m.step c s).2 (n.step c t).2 hnext (by
          intro done c' rest' heq
          have hlater := hallowed (c :: done) c' rest' (by rw [heq, List.cons_append])
          rw [results, List.append_cons] at hlater
          exact hlater) with ⟨hresults, hfinal⟩
      constructor
      · rw [results, results, hresult, hresults]
      · rw [results, List.append_cons]
        exact hfinal

/-- What the steps of a run emit, in order. -/
def trace {signal : Type} (m : Machine state call result)
    (emit : call -> state -> List signal) : List call -> state -> List signal
  | [], _ => []
  | c :: rest, s => emit c s ++ m.trace emit rest (m.step c s).2

theorem trace_append {signal : Type} (m : Machine state call result)
    (emit : call -> state -> List signal) (xs ys : List call) (s : state) :
    m.trace emit (xs ++ ys) s = m.trace emit xs s ++ m.trace emit ys (m.run xs s) := by
  induction xs generalizing s with
  | nil => rfl
  | cons c rest ih =>
      rw [List.cons_append, trace, trace, ih, List.append_assoc]
      rfl

/-- What holds of all that a step emits holds of all that a run emits. -/
theorem trace_forall {signal : Type} (m : Machine state call result)
    {emit : call -> state -> List signal} (Allowed : call -> Prop) (Inv : state -> Prop)
    {P : signal -> Prop} (hinv : forall c s, Allowed c -> Inv s -> Inv (m.step c s).2)
    (hP : forall c s, Allowed c -> Inv s -> forall x, x ∈ emit c s -> P x) :
    forall (calls : List call) (s : state), (forall c, c ∈ calls -> Allowed c) -> Inv s ->
      forall x, x ∈ m.trace emit calls s -> P x := by
  intro calls
  induction calls with
  | nil =>
      intro s _ _ x hx
      cases hx
  | cons c rest ih =>
      intro s hallowed hs x hx
      have hc := hallowed c List.mem_cons_self
      rcases List.mem_append.mp hx with hfirst | hlater
      · exact hP c s hc hs x hfirst
      · exact ih (m.step c s).2 (fun c' hc' => hallowed c' (List.mem_cons_of_mem c hc'))
          (hinv c s hc hs) x hlater

theorem trace_filterMap {signal other : Type} (m : Machine state call result)
    (emit : call -> state -> List signal) (f : signal -> Option other) (calls : List call) :
    forall s, (m.trace emit calls s).filterMap f =
      m.trace (fun c s => (emit c s).filterMap f) calls s := by
  induction calls with
  | nil =>
      intro s
      rfl
  | cons c rest ih =>
      intro s
      rw [trace, List.filterMap_append, ih]
      rfl

/-- A run never emits a signal twice when emitting settles it, what is settled
stays settled, and a settled signal is not emitted. -/
theorem trace_nodup {signal : Type} (m : Machine state call result)
    {emit : call -> state -> List signal} (Allowed : call -> Prop) (Inv : state -> Prop)
    (Settled : state -> signal -> Prop)
    (hinv : forall c s, Allowed c -> Inv s -> Inv (m.step c s).2)
    (hkeep : forall c s x, Allowed c -> Inv s -> Settled s x -> Settled (m.step c s).2 x)
    (honce : forall c s, Allowed c -> Inv s -> (emit c s).Nodup ∧
      forall x, x ∈ emit c s -> ¬ Settled s x ∧ Settled (m.step c s).2 x) :
    forall (calls : List call) (s : state), (forall c, c ∈ calls -> Allowed c) -> Inv s ->
      (m.trace emit calls s).Nodup ∧
        forall x, x ∈ m.trace emit calls s -> ¬ Settled s x := by
  intro calls
  induction calls with
  | nil =>
      intro s _ _
      refine ⟨List.nodup_nil, ?_⟩
      intro x hx
      cases hx
  | cons c rest ih =>
      intro s hallowed hs
      have hc := hallowed c List.mem_cons_self
      rcases honce c s hc hs with ⟨hnodup, hfirst⟩
      rcases ih (m.step c s).2 (fun c' hc' => hallowed c' (List.mem_cons_of_mem c hc'))
        (hinv c s hc hs) with ⟨hrest, hlater⟩
      refine ⟨List.nodup_append.mpr ⟨hnodup, hrest, ?_⟩, ?_⟩
      · intro x hx y hy heq
        apply hlater y hy
        rw [← heq]
        exact (hfirst x hx).right
      · intro x hx hsettled
        rcases List.mem_append.mp hx with hhead | htail
        · exact (hfirst x hhead).left hsettled
        · exact hlater x htail (hkeep c s x hc hs hsettled)

end Machine

end Foundation
end PyChain
