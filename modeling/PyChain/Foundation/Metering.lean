import Mathlib.Algebra.Order.Group.Defs
import Mathlib.Tactic.Abel
import PyChain.Foundation.Machine

/-!
# Totals over runs

What the steps of a run contribute, added up.  A potential bounds such a total:
when every step pays for what it takes out of the potential and what it is
credited, so does the whole run.  A mark that only moves up passes each point
between its first and its last position exactly once.
-/

namespace PyChain
namespace Foundation
namespace Machine

variable {state call result amount time : Type}

/-- The contributions of the steps of a run, added up. -/
def total [Zero amount] [Add amount] (m : Machine state call result)
    (contribution : call -> state -> amount) : List call -> state -> amount
  | [], _ => 0
  | c :: rest, s => contribution c s + m.total contribution rest (m.step c s).2

/-!
## Potentials
-/

section Potentials

variable [AddCommGroup amount] [LinearOrder amount] [IsOrderedAddMonoid amount]
variable (m : Machine state call result) (Inv : state -> Prop) (potential : state -> amount)

/-- What a run takes and what is left of the potential are covered by the potential
at the start and the credits of the run. -/
theorem total_potential_le {taken credit : call -> state -> amount}
    (hinv : forall c s, Inv s -> Inv (m.step c s).2)
    (hstep : forall c s, Inv s ->
      taken c s + potential (m.step c s).2 ≤ potential s + credit c s) :
    forall (calls : List call) (s : state), Inv s ->
      m.total taken calls s + potential (m.run calls s) ≤
        potential s + m.total credit calls s := by
  intro calls
  induction calls with
  | nil =>
      intro s _
      change 0 + potential s ≤ potential s + 0
      rw [zero_add, add_zero]
  | cons c rest ih =>
      intro s hs
      have hrest := ih (m.step c s).2 (hinv c s hs)
      calc
        taken c s + m.total taken rest (m.step c s).2 + potential (m.run rest (m.step c s).2)
            = taken c s + (m.total taken rest (m.step c s).2 +
                potential (m.run rest (m.step c s).2)) := add_assoc _ _ _
        _ ≤ taken c s + (potential (m.step c s).2 + m.total credit rest (m.step c s).2) :=
              add_le_add_right hrest _
        _ = taken c s + potential (m.step c s).2 + m.total credit rest (m.step c s).2 :=
              (add_assoc _ _ _).symm
        _ ≤ potential s + credit c s + m.total credit rest (m.step c s).2 :=
              add_le_add_left (hstep c s hs) _
        _ = potential s + (credit c s + m.total credit rest (m.step c s).2) :=
              add_assoc _ _ _

omit [LinearOrder amount] [IsOrderedAddMonoid amount] in
/-- The rises of a potential add up to its rise over the run. -/
theorem total_rise (rise : call -> state -> amount)
    (hstep : forall c s, rise c s = potential (m.step c s).2 - potential s)
    (calls : List call) (s : state) :
    m.total rise calls s = potential (m.run calls s) - potential s := by
  induction calls generalizing s with
  | nil => exact (sub_self (potential s)).symm
  | cons c rest ih =>
      rw [total, hstep, ih, run]
      abel

end Potentials

/-!
## Marks that only move up
-/

section Marks

variable [LinearOrder time] (m : Machine state call result) {mark : state -> time}

/-- Whether a step moves the mark past a point. -/
def passes (mark : state -> time) (point : time) (c : call) (s : state) : Nat :=
  if mark s < point ∧ point ≤ mark (m.step c s).2 then 1 else 0

theorem mark_le_run (hstep : forall c s, mark s ≤ mark (m.step c s).2)
    (calls : List call) (s : state) : mark s ≤ mark (m.run calls s) :=
  @run_relation state call result m (fun s t => mark s ≤ mark t) (fun s => le_refl (mark s))
    (fun _ _ _ hleft hright => le_trans hleft hright) hstep calls s

/-- A run moves the mark past a point once or never. -/
theorem total_passes (hstep : forall c s, mark s ≤ mark (m.step c s).2) (point : time)
    (calls : List call) (s : state) :
    m.total (m.passes mark point) calls s =
      if mark s < point ∧ point ≤ mark (m.run calls s) then 1 else 0 := by
  induction calls generalizing s with
  | nil =>
      have hnone : ¬ (mark s < point ∧ point ≤ mark s) := by
        intro h
        exact absurd h.left (not_lt.mpr h.right)
      rw [run, if_neg hnone]
      rfl
  | cons c rest ih =>
      have hfirst := hstep c s
      have hlater := m.mark_le_run hstep rest (m.step c s).2
      rw [total, ih, run]
      -- the point lies behind the mark, under this step, or ahead of it
      by_cases hahead : mark (m.step c s).2 < point
      · have hstill : m.passes mark point c s = 0 :=
          if_neg (fun h => absurd h.right (not_le.mpr hahead))
        have hbefore : mark s < point := lt_of_le_of_lt hfirst hahead
        simp only [hstill, hahead, hbefore, true_and, Nat.zero_add]
      · have hreached : point ≤ mark (m.step c s).2 := not_lt.mp hahead
        have hstays : point ≤ mark (m.run rest (m.step c s).2) := le_trans hreached hlater
        simp only [passes, hahead, hreached, hstays, and_true, if_false,
          Nat.add_zero]

end Marks

end Machine
end Foundation
end PyChain
