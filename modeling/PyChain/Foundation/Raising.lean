import Mathlib.Data.List.Basic
import Mathlib.Data.List.Forall2

/-!
# Computations that may raise

Python code that may raise is written in the `Except` monad, and a loop whose
body may raise is a `List.foldlM`.  The lemmas here take such computations
apart: a sequence succeeds exactly when its parts do, and a loop keeps every
invariant its body keeps.
-/

namespace PyChain
namespace Foundation

variable {error alpha beta state : Type}

theorem bind_eq_ok_iff {x : Except error alpha} {f : alpha -> Except error beta}
    {b : beta} : (x >>= f) = .ok b <-> exists a, x = .ok a ∧ f a = .ok b := by
  cases x with
  | error e =>
      constructor
      · intro h
        cases h
      · intro h
        rcases h with ⟨a, ha, _⟩
        cases ha
  | ok a =>
      constructor
      · intro h
        exact ⟨a, rfl, h⟩
      · intro h
        rcases h with ⟨a', ha, hf⟩
        cases ha
        exact hf

theorem bind_eq_error_iff {x : Except error alpha} {f : alpha -> Except error beta}
    {e : error} :
    (x >>= f) = .error e <-> x = .error e ∨ exists a, x = .ok a ∧ f a = .error e := by
  cases x with
  | error e' =>
      constructor
      · intro h
        apply Or.inl
        cases h
        rfl
      · intro h
        rcases h with h | ⟨a, ha, _⟩
        · cases h
          rfl
        · cases ha
  | ok a =>
      constructor
      · intro h
        exact Or.inr ⟨a, rfl, h⟩
      · intro h
        rcases h with h | ⟨a', ha, hf⟩
        · cases h
        · cases ha
          exact hf

theorem map_eq_ok_iff {x : Except error alpha} {f : alpha -> beta} {b : beta} :
    f <$> x = .ok b <-> exists a, x = .ok a ∧ f a = b := by
  cases x with
  | error e =>
      constructor
      · intro h
        cases h
      · intro h
        rcases h with ⟨a, ha, _⟩
        cases ha
  | ok a =>
      constructor
      · intro h
        exact ⟨a, rfl, Except.ok.inj h⟩
      · intro h
        rcases h with ⟨a', ha, hf⟩
        cases ha
        exact congrArg Except.ok hf

/-- A check that raises unless its condition holds. -/
def require (condition : Prop) [Decidable condition] (e : error) : Except error Unit :=
  if condition then .ok () else .error e

theorem require_eq_ok_iff {condition : Prop} [Decidable condition] {e : error}
    {answer : Unit} : require condition e = .ok answer <-> condition := by
  unfold require
  by_cases h : condition
  · simp [h]
  · simp [h]

theorem require_eq_error_iff {condition : Prop} [Decidable condition] {e e' : error} :
    require condition e = .error e' <-> ¬ condition ∧ e' = e := by
  unfold require
  by_cases h : condition
  · simp [h]
  · simp [h, eq_comm]

/-- A decision that starts with a rejecting guard: it suffices that the guard
excludes the property and that the remaining checks decide it. -/
theorem rejecting_guard {guard property : Prop} [Decidable guard]
    {rest : Except error Bool} (hguard : guard -> ¬ property)
    (hrest : ¬ guard ->
      exists answer, rest = .ok answer ∧ (answer = true <-> property)) :
    exists answer, (if guard then .ok false else rest) = .ok answer ∧
      (answer = true <-> property) := by
  by_cases h : guard
  · rw [if_pos h]
    refine ⟨false, rfl, ?_⟩
    simp only [Bool.false_eq_true, false_iff]
    exact hguard h
  · rw [if_neg h]
    exact hrest h

/-!
## Loops
-/

theorem foldlM_cons_eq_ok_iff {body : state -> alpha -> Except error state}
    {item : alpha} {rest : List alpha} {s t : state} :
    (item :: rest).foldlM body s = .ok t <->
      exists r, body s item = .ok r ∧ rest.foldlM body r = .ok t := by
  rw [List.foldlM_cons]
  exact bind_eq_ok_iff

theorem foldlM_append_eq_ok_iff {body : state -> alpha -> Except error state}
    {xs ys : List alpha} {s t : state} :
    (xs ++ ys).foldlM body s = .ok t <->
      exists r, xs.foldlM body s = .ok r ∧ ys.foldlM body r = .ok t := by
  rw [List.foldlM_append]
  exact bind_eq_ok_iff

/-- What every successful iteration keeps, a successful loop keeps. -/
theorem foldlM_invariant {body : state -> alpha -> Except error state}
    {P : state -> Prop} {items : List alpha} {s t : state}
    (hstep : forall r item r', item ∈ items -> P r -> body r item = .ok r' -> P r')
    (hs : P s) (h : items.foldlM body s = .ok t) : P t := by
  induction items generalizing s with
  | nil =>
      cases h
      exact hs
  | cons item rest ih =>
      rcases foldlM_cons_eq_ok_iff.mp h with ⟨r, hbody, hrest⟩
      apply ih
      · intro r item' r' hmem
        exact hstep r item' r' (List.mem_cons_of_mem item hmem)
      · exact hstep s item r List.mem_cons_self hs hbody
      · exact hrest

/-- A loop whose body checks each item after using it. -/
theorem foldlM_checked_eq_ok_iff {body : state -> alpha -> Except error state}
    {check : alpha -> Prop} [DecidablePred check] {e : error} (items : List alpha) :
    forall s t,
      items.foldlM
          (fun s item => do
            let next <- body s item
            require (check item) e
            return next) s = .ok t <->
        items.foldlM body s = .ok t ∧ forall item, item ∈ items -> check item := by
  induction items with
  | nil =>
      intro s t
      simp
  | cons item rest ih =>
      intro s t
      rw [foldlM_cons_eq_ok_iff, foldlM_cons_eq_ok_iff, List.forall_mem_cons]
      constructor
      · intro h
        rcases h with ⟨r, hbody, hrest⟩
        rcases bind_eq_ok_iff.mp hbody with ⟨next, hnext, hcheck⟩
        rcases bind_eq_ok_iff.mp hcheck with ⟨_, hitem, heq⟩
        have hr : next = r := Except.ok.inj heq
        subst hr
        rcases (ih _ _).mp hrest with ⟨hfold, hall⟩
        exact ⟨⟨next, hnext, hfold⟩, require_eq_ok_iff.mp hitem, hall⟩
      · intro h
        rcases h with ⟨⟨r, hnext, hfold⟩, hitem, hall⟩
        exact ⟨r, bind_eq_ok_iff.mpr ⟨r, hnext, bind_eq_ok_iff.mpr
          ⟨(), require_eq_ok_iff.mpr hitem, rfl⟩⟩, (ih _ _).mpr ⟨hfold, hall⟩⟩

/-- A loop that collects its results. -/
theorem mapM_eq_ok_iff {f : alpha -> Except error beta} {items : List alpha}
    {results : List beta} :
    items.mapM f = .ok results <->
      List.Forall₂ (fun item result => f item = .ok result) items results := by
  induction items generalizing results with
  | nil =>
      rw [List.mapM_nil, List.forall₂_nil_left_iff]
      exact ⟨fun h => (Except.ok.inj h).symm, fun h => congrArg Except.ok h.symm⟩
  | cons item rest ih =>
      rw [List.mapM_cons, bind_eq_ok_iff, List.forall₂_cons_left_iff]
      constructor
      · intro h
        rcases h with ⟨result, hresult, h⟩
        rcases bind_eq_ok_iff.mp h with ⟨others, hothers, heq⟩
        exact ⟨result, others, hresult, ih.mp hothers, (Except.ok.inj heq).symm⟩
      · intro h
        rcases h with ⟨result, others, hresult, hothers, heq⟩
        subst heq
        exact ⟨result, hresult, bind_eq_ok_iff.mpr ⟨others, ih.mpr hothers, rfl⟩⟩

theorem mapM_map_eq_ok {f : alpha -> Except error beta} {g : beta -> alpha}
    {results : List beta} (h : forall result, result ∈ results -> f (g result) = .ok result) :
    (results.map g).mapM f = .ok results := by
  rw [mapM_eq_ok_iff, List.forall₂_map_left_iff, List.forall₂_same]
  exact h

theorem mapM_map_eq_ok_inv {f : alpha -> Except error beta} {g : beta -> alpha}
    {items results : List beta} (h : (items.map g).mapM f = .ok results)
    (hf : forall item result, f (g item) = .ok result -> result = item) :
    results = items := by
  rw [mapM_eq_ok_iff, List.forall₂_map_left_iff] at h
  exact (List.forall₂_eq_eq_eq ▸ h.imp (fun item result heq => (hf item result heq).symm) :
    items = results).symm

theorem mapM_forall {f : alpha -> Except error beta} {P : beta -> Prop}
    {items : List alpha} {results : List beta} (h : items.mapM f = .ok results)
    (hf : forall item result, f item = .ok result -> P result) :
    forall result, result ∈ results -> P result := by
  intro result hmem
  rcases List.forall₂_iff_get.mp (mapM_eq_ok_iff.mp h) with ⟨hlength, hget⟩
  rcases List.get_of_mem hmem with ⟨i, hi⟩
  have hitem := hget i.val (by rw [hlength]; exact i.isLt) i.isLt
  rw [← hi]
  exact hf _ _ hitem

/-- A loop that computes one result per item, or raises. -/
theorem mapM_build_eq_ok_iff {f : alpha -> Except error beta} {build : alpha -> beta}
    {P : alpha -> Prop} (hf : forall x y, f x = .ok y <-> y = build x ∧ P x)
    (items : List alpha) :
    forall results, items.mapM f = .ok results <->
      results = items.map build ∧ forall x, x ∈ items -> P x := by
  induction items with
  | nil =>
      intro results
      rw [List.mapM_nil]
      constructor
      · intro h
        refine ⟨(Except.ok.inj h).symm, ?_⟩
        intro x hx
        cases hx
      · intro h
        rw [h.left]
        rfl
  | cons x rest ih =>
      intro results
      rw [List.mapM_cons, List.map_cons, List.forall_mem_cons]
      simp only [bind_eq_ok_iff, hf, ih]
      constructor
      · intro h
        rcases h with ⟨y, ⟨hy, hx⟩, others, ⟨hothers, hrest⟩, heq⟩
        rw [← Except.ok.inj heq, hy, hothers]
        exact ⟨rfl, hx, hrest⟩
      · intro h
        rcases h with ⟨hresults, hx, hrest⟩
        exact ⟨_, ⟨rfl, hx⟩, _, ⟨rfl, hrest⟩, congrArg Except.ok hresults.symm⟩

/-!
## Which errors are raised
-/

/-- Every error of a computation is of a certain kind. -/
def Raises (kind : error -> Prop) (x : Except error alpha) : Prop :=
  forall e, x = .error e -> kind e

theorem Raises.weaken {kind other : error -> Prop} {x : Except error alpha}
    (h : Raises kind x) (hkind : forall e, kind e -> other e) : Raises other x :=
  fun e he => hkind e (h e he)

theorem raises_ok {kind : error -> Prop} (a : alpha) :
    Raises kind (.ok a : Except error alpha) := by
  intro e h
  cases h

theorem raises_error {kind : error -> Prop} {e : error} (h : kind e) :
    Raises kind (.error e : Except error alpha) := by
  intro e' he
  cases he
  exact h

theorem raises_bind {kind : error -> Prop} {x : Except error alpha}
    {f : alpha -> Except error beta} (hx : Raises kind x)
    (hf : forall a, x = .ok a -> Raises kind (f a)) : Raises kind (x >>= f) := by
  intro e h
  rcases bind_eq_error_iff.mp h with herror | ⟨a, ha, herror⟩
  · exact hx e herror
  · exact hf a ha e herror

theorem raises_require {kind : error -> Prop} {condition : Prop} [Decidable condition]
    {e : error} (h : kind e) : Raises kind (require condition e) := by
  intro e' he
  rw [(require_eq_error_iff.mp he).right]
  exact h

theorem raises_map {kind : error -> Prop} {x : Except error alpha} {f : alpha -> beta}
    (h : Raises kind x) : Raises kind (f <$> x) := by
  intro e he
  cases x with
  | ok a => cases he
  | error e' =>
      cases he
      exact h e rfl

theorem raises_foldlM {kind : error -> Prop} {body : state -> alpha -> Except error state}
    (h : forall s item, Raises kind (body s item)) (items : List alpha) :
    forall s, Raises kind (items.foldlM body s) := by
  induction items with
  | nil =>
      intro s
      exact raises_ok s
  | cons item rest ih =>
      intro s
      rw [List.foldlM_cons]
      exact raises_bind (h s item) (fun r _ => ih r)

theorem raises_mapM {kind : error -> Prop} {f : alpha -> Except error beta}
    (h : forall item, Raises kind (f item)) (items : List alpha) :
    Raises kind (items.mapM f) := by
  induction items with
  | nil => exact raises_ok []
  | cons item rest ih =>
      rw [List.mapM_cons]
      exact raises_bind (h item) (fun _ _ => raises_bind ih (fun _ _ => raises_ok _))

end Foundation
end PyChain
