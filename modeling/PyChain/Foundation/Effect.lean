import Mathlib.Logic.Relation

/-!
# Stateful computations that may raise

Python methods that update their object and may raise are written in the
`EStateM` monad, which keeps the state reached when an exception is raised.
`Leads` says what one run of such a computation does: its effect is a sequence
of atomic moves, and a postcondition holds of its value or of its exception.
-/

namespace PyChain
namespace Foundation

variable {error state alpha beta : Type}

/-- The state after a run, however it ended. -/
def finalState (act : EStateM error state alpha) (s : state) : state :=
  match act s with
  | .ok _ s' => s'
  | .error _ s' => s'

section Runs

variable {act : EStateM error state alpha} {s s' : state}

theorem run_bind_ok {a : alpha} (h : act s = .ok a s')
    (next : alpha -> EStateM error state beta) : (act >>= next) s = next a s' := by
  change EStateM.bind act next s = _
  unfold EStateM.bind
  rw [h]

theorem run_bind_error {e : error} (h : act s = .error e s')
    (next : alpha -> EStateM error state beta) : (act >>= next) s = .error e s' := by
  change EStateM.bind act next s = _
  unfold EStateM.bind
  rw [h]

theorem run_tryCatch_ok {a : alpha} (h : act s = .ok a s')
    (handle : error -> EStateM error state alpha) : tryCatch act handle s = .ok a s' := by
  change EStateM.tryCatch act handle s = _
  unfold EStateM.tryCatch
  rw [h]

theorem run_tryCatch_error {e : error} (h : act s = .error e s')
    (handle : error -> EStateM error state alpha) :
    tryCatch act handle s = handle e s' := by
  change EStateM.tryCatch act handle s = _
  unfold EStateM.tryCatch
  rw [h]
  rfl

end Runs

theorem finalState_of_ok {act : EStateM error state alpha} {s s' : state} {a : alpha}
    (h : act s = .ok a s') : finalState act s = s' := by
  unfold finalState
  rw [h]

theorem finalState_of_error {act : EStateM error state alpha} {s s' : state} {e : error}
    (h : act s = .error e s') : finalState act s = s' := by
  unfold finalState
  rw [h]

theorem finalState_get_bind (next : state -> EStateM error state alpha) (s : state) :
    finalState (get >>= next) s = finalState (next s) s := rfl

theorem finalState_set_bind (t : state) (next : PUnit -> EStateM error state alpha)
    (s : state) : finalState (set t >>= next) s = finalState (next ⟨⟩) t := rfl

theorem finalState_bind_ok {act : EStateM error state alpha} {s s' : state} {a : alpha}
    (h : act s = .ok a s') (next : alpha -> EStateM error state beta) :
    finalState (act >>= next) s = finalState (next a) s' := by
  unfold finalState
  rw [run_bind_ok h]

theorem finalState_bind_pure (act : EStateM error state alpha) (b : beta) (s : state) :
    finalState (act >>= fun _ => pure b) s = finalState act s := by
  cases hrun : act s with
  | ok a s' =>
      rw [finalState_bind_ok hrun, finalState_of_ok hrun]
      rfl
  | error e s' => rw [finalState_of_error (run_bind_error hrun _), finalState_of_error hrun]

theorem finalState_tryCatch_ok {act : EStateM error state alpha} {s s' : state} {a : alpha}
    (h : act s = .ok a s') (handle : error -> EStateM error state alpha) :
    finalState (tryCatch act handle) s = s' :=
  finalState_of_ok (run_tryCatch_ok h handle)

theorem finalState_tryCatch_error {act : EStateM error state alpha} {s s' : state} {e : error}
    (h : act s = .error e s') (handle : error -> EStateM error state alpha) :
    finalState (tryCatch act handle) s = finalState (handle e) s' := by
  unfold finalState
  rw [run_tryCatch_error h]

/-- A run from `s` takes the state through moves of `move`; it returns with
`post`, or raises with `raised`. -/
def Leads (move : state -> state -> Prop) (act : EStateM error state alpha) (s : state)
    (post : alpha -> state -> Prop) (raised : error -> state -> Prop) : Prop :=
  match act s with
  | .ok a s' => Relation.ReflTransGen move s s' ∧ post a s'
  | .error e s' => Relation.ReflTransGen move s s' ∧ raised e s'

section Rules

variable {move : state -> state -> Prop} {s : state} {raised : error -> state -> Prop}

theorem Leads.final {act : EStateM error state alpha} {post : alpha -> state -> Prop}
    (h : Leads move act s post raised) : Relation.ReflTransGen move s (finalState act s) := by
  unfold Leads at h
  unfold finalState
  cases hrun : act s with
  | ok a s' =>
      rw [hrun] at h
      exact h.left
  | error e s' =>
      rw [hrun] at h
      exact h.left

/-- What holds of the last state however a run ends. -/
theorem Leads.ends {act : EStateM error state alpha} {P : state -> Prop}
    (h : Leads move act s (fun _ => P) (fun _ => P)) :
    Relation.ReflTransGen move s (finalState act s) ∧ P (finalState act s) := by
  unfold Leads at h
  unfold finalState
  cases hrun : act s with
  | ok a s' =>
      rw [hrun] at h
      exact h
  | error e s' =>
      rw [hrun] at h
      exact h

theorem Leads.of_ok {act : EStateM error state alpha} {post : alpha -> state -> Prop}
    (h : Leads move act s post raised) {a : alpha} {s' : state} (hrun : act s = .ok a s') :
    Relation.ReflTransGen move s s' ∧ post a s' := by
  unfold Leads at h
  rw [hrun] at h
  exact h

theorem Leads.of_error {act : EStateM error state alpha} {post : alpha -> state -> Prop}
    (h : Leads move act s post raised) {e : error} {s' : state} (hrun : act s = .error e s') :
    Relation.ReflTransGen move s s' ∧ raised e s' := by
  unfold Leads at h
  rw [hrun] at h
  exact h

theorem leads_of_ok {act : EStateM error state alpha} {post : alpha -> state -> Prop}
    {a : alpha} {s' : state} (hrun : act s = .ok a s')
    (hmove : Relation.ReflTransGen move s s') (hpost : post a s') :
    Leads move act s post raised := by
  unfold Leads
  rw [hrun]
  exact ⟨hmove, hpost⟩

theorem leads_of_error {act : EStateM error state alpha} {post : alpha -> state -> Prop}
    {e : error} {s' : state} (hrun : act s = .error e s')
    (hmove : Relation.ReflTransGen move s s') (hraised : raised e s') :
    Leads move act s post raised := by
  unfold Leads
  rw [hrun]
  exact ⟨hmove, hraised⟩

theorem Leads.weaken {act : EStateM error state alpha} {post post' : alpha -> state -> Prop}
    {raised' : error -> state -> Prop} (h : Leads move act s post raised)
    (hpost : forall a s', Relation.ReflTransGen move s s' -> post a s' -> post' a s')
    (hraised : forall e s', Relation.ReflTransGen move s s' -> raised e s' -> raised' e s') :
    Leads move act s post' raised' := by
  unfold Leads at *
  cases hrun : act s with
  | ok a s' =>
      rw [hrun] at h
      exact ⟨h.left, hpost a s' h.left h.right⟩
  | error e s' =>
      rw [hrun] at h
      exact ⟨h.left, hraised e s' h.left h.right⟩

theorem Leads.post {act : EStateM error state alpha} {post post' : alpha -> state -> Prop}
    (h : Leads move act s post raised)
    (hpost : forall a s', Relation.ReflTransGen move s s' -> post a s' -> post' a s') :
    Leads move act s post' raised :=
  h.weaken hpost (fun _ _ _ hraised => hraised)

theorem Leads.along {move' : state -> state -> Prop} {act : EStateM error state alpha}
    {post : alpha -> state -> Prop} (h : Leads move act s post raised)
    (hmove : forall s', Relation.ReflTransGen move s s' -> Relation.ReflTransGen move' s s') :
    Leads move' act s post raised := by
  unfold Leads at *
  cases hrun : act s with
  | ok a s' =>
      rw [hrun] at h
      exact ⟨hmove s' h.left, h.right⟩
  | error e s' =>
      rw [hrun] at h
      exact ⟨hmove s' h.left, h.right⟩

theorem Leads.mono {move' : state -> state -> Prop} {act : EStateM error state alpha}
    {post : alpha -> state -> Prop} (h : Leads move act s post raised)
    (hmove : forall s s', move s s' -> move' s s') : Leads move' act s post raised :=
  h.along (fun _ hmoves => hmoves.lift id hmove)

theorem Leads.true {act : EStateM error state alpha} {post : alpha -> state -> Prop}
    (h : Leads move act s post raised) : Leads move act s (fun _ _ => True) raised :=
  h.post (fun _ _ _ _ => trivial)

/-- A run that passes through a state goes on from there. -/
theorem leads_of_run {act act' : EStateM error state alpha} {post : alpha -> state -> Prop}
    {s' : state} (hrun : act s = act' s') (hmove : Relation.ReflTransGen move s s')
    (h : Leads move act' s' post raised) : Leads move act s post raised := by
  unfold Leads at *
  rw [hrun]
  cases hlater : act' s' with
  | ok a s'' =>
      rw [hlater] at h
      exact ⟨hmove.trans h.left, h.right⟩
  | error e s'' =>
      rw [hlater] at h
      exact ⟨hmove.trans h.left, h.right⟩

theorem leads_pure {post : alpha -> state -> Prop} {a : alpha} (h : post a s) :
    Leads move (pure a) s post raised :=
  leads_of_ok rfl Relation.ReflTransGen.refl h

theorem leads_throw {post : alpha -> state -> Prop} {e : error} (h : raised e s) :
    Leads move (throw e) s post raised :=
  leads_of_error rfl Relation.ReflTransGen.refl h

theorem leads_get {post : state -> state -> Prop} (h : post s s) :
    Leads move (get : EStateM error state state) s post raised :=
  leads_of_ok rfl Relation.ReflTransGen.refl h

theorem leads_modify {post : PUnit -> state -> Prop} {f : state -> state}
    (hmove : Relation.ReflTransGen move s (f s)) (h : post ⟨⟩ (f s)) :
    Leads move (modify f) s post raised :=
  leads_of_ok rfl hmove h

theorem leads_bind {act : EStateM error state alpha} {next : alpha -> EStateM error state beta}
    {middle : alpha -> state -> Prop} {post : beta -> state -> Prop}
    (hact : Leads move act s middle raised)
    (hnext : forall a s', Relation.ReflTransGen move s s' -> middle a s' ->
      Leads move (next a) s' post raised) :
    Leads move (act >>= next) s post raised := by
  unfold Leads
  cases hrun : act s with
  | error e s' =>
      rw [run_bind_error hrun]
      exact hact.of_error hrun
  | ok a s' =>
      rcases hact.of_ok hrun with ⟨hmove, hmiddle⟩
      have hlater := hnext a s' hmove hmiddle
      unfold Leads at hlater
      rw [run_bind_ok hrun]
      cases hrun' : next a s' with
      | ok b s'' =>
          rw [hrun'] at hlater
          exact ⟨hmove.trans hlater.left, hlater.right⟩
      | error e s'' =>
          rw [hrun'] at hlater
          exact ⟨hmove.trans hlater.left, hlater.right⟩

theorem leads_get_bind {next : state -> EStateM error state alpha}
    {post : alpha -> state -> Prop} (h : Leads move (next s) s post raised) :
    Leads move (get >>= next) s post raised := by
  have hget : Leads move (get : EStateM error state state) s (fun t s' => t = s ∧ s' = s)
      raised := leads_get ⟨rfl, rfl⟩
  refine leads_bind hget ?_
  rintro t s' _ ⟨ht, hs'⟩
  rw [ht, hs']
  exact h

theorem leads_modify_bind {f : state -> state} {next : PUnit -> EStateM error state alpha}
    {post : alpha -> state -> Prop} (hmove : Relation.ReflTransGen move s (f s))
    (h : Leads move (next ⟨⟩) (f s) post raised) :
    Leads move (modify f >>= next) s post raised := by
  have hmodify : Leads move (modify f : EStateM error state PUnit) s (fun _ s' => s' = f s)
      raised := leads_modify hmove rfl
  refine leads_bind hmodify ?_
  intro _ s' _ hs'
  rw [hs']
  exact h

theorem Leads.discard {act : EStateM error state alpha} {P : state -> Prop}
    (h : Leads move act s (fun _ => P) raised) :
    Leads move (discard act) s (fun _ => P) raised := by
  have heq : (Functor.discard act : EStateM error state PUnit) = act >>= fun _ => pure ⟨⟩ := rfl
  rw [heq]
  exact leads_bind h (fun _ _ _ ha => leads_pure ha)

/-- A handler takes over from the state in which the exception was raised. -/
theorem leads_tryCatch {act : EStateM error state alpha}
    {handle : error -> EStateM error state alpha} {post : alpha -> state -> Prop}
    {caught : error -> state -> Prop} (hact : Leads move act s post caught)
    (hhandle : forall e s', Relation.ReflTransGen move s s' -> caught e s' ->
      Leads move (handle e) s' post raised) :
    Leads move (tryCatch act handle) s post raised := by
  unfold Leads
  cases hrun : act s with
  | ok a s' =>
      rw [run_tryCatch_ok hrun]
      exact hact.of_ok hrun
  | error e s' =>
      rcases hact.of_error hrun with ⟨hmove, hcaught⟩
      have hlater := hhandle e s' hmove hcaught
      unfold Leads at hlater
      rw [run_tryCatch_error hrun]
      cases hrun' : handle e s' with
      | ok b s'' =>
          rw [hrun'] at hlater
          exact ⟨hmove.trans hlater.left, hlater.right⟩
      | error e' s'' =>
          rw [hrun'] at hlater
          exact ⟨hmove.trans hlater.left, hlater.right⟩

/-- A handler that works from any state says nothing about what it catches. -/
theorem leads_tryCatch_any {act : EStateM error state alpha}
    {handle : error -> EStateM error state alpha} {post : alpha -> state -> Prop}
    (hact : Leads move act s post (fun _ _ => True))
    (hhandle : forall e s', Relation.ReflTransGen move s s' ->
      Leads move (handle e) s' post raised) :
    Leads move (tryCatch act handle) s post raised :=
  leads_tryCatch hact (fun e s' hmoves _ => hhandle e s' hmoves)

/-- What every turn of a loop keeps, the loop keeps. -/
theorem leads_forM {items : List alpha} {body : alpha -> EStateM error state PUnit}
    {invariant : state -> Prop} (hs : invariant s)
    (hbody : forall item, item ∈ items -> forall s', Relation.ReflTransGen move s s' ->
      invariant s' -> Leads move (body item) s' (fun _ => invariant) raised) :
    Leads move (items.forM body) s (fun _ => invariant) raised := by
  induction items generalizing s with
  | nil => exact leads_pure hs
  | cons item rest ih =>
      rw [List.forM_eq_forM, List.forM_cons]
      refine leads_bind (hbody item List.mem_cons_self s Relation.ReflTransGen.refl hs) ?_
      intro _ s' hmove hinvariant
      apply ih hinvariant
      intro other hother s'' hlater hinvariant'
      exact hbody other (List.mem_cons_of_mem item hother) s'' (hmove.trans hlater) hinvariant'

theorem leads_ite {condition : Prop} [Decidable condition]
    {act other : EStateM error state alpha} {post : alpha -> state -> Prop}
    (hthen : condition -> Leads move act s post raised)
    (helse : ¬ condition -> Leads move other s post raised) :
    Leads move (if condition then act else other) s post raised := by
  by_cases h : condition
  · rw [if_pos h]
    exact hthen h
  · rw [if_neg h]
    exact helse h

end Rules

end Foundation
end PyChain
