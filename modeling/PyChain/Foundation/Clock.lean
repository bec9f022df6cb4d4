import Mathlib.Order.Lattice
import Mathlib.Data.List.Basic

/-!
# Clocks that do not go back

Events with clock readings, in the order of time from some start.
-/

namespace PyChain
namespace Foundation

variable {event time : Type} [LinearOrder time]

/-- The readings of the clock do not go back, from the start on. -/
def Chronological (clock : event -> time) (start : time) (events : List event) : Prop :=
  (start :: events.map clock).Pairwise (· ≤ ·)

instance (clock : event -> time) (start : time) (events : List event) :
    Decidable (Chronological clock start events) :=
  inferInstanceAs (Decidable (List.Pairwise _ _))

variable {clock : event -> time} {start : time} {first last next : event}
  {events rest : List event}

theorem chronological_cons : Chronological clock start (first :: rest) <->
    start ≤ clock first ∧ Chronological clock (clock first) rest := by
  unfold Chronological
  rw [List.map_cons, List.pairwise_cons]
  constructor
  · intro h
    exact ⟨h.left (clock first) List.mem_cons_self, h.right⟩
  · intro h
    refine ⟨?_, h.right⟩
    intro entry hentry
    rcases List.mem_cons.mp hentry with hhead | hrest
    · rw [hhead]
      exact h.left
    · exact le_trans h.left ((List.pairwise_cons.mp h.right).left entry hrest)

namespace Chronological

/-- The clock has not passed the last event before it. -/
theorem le_last (h : Chronological clock start (events ++ [last])) :
    start ≤ clock last ∧ forall earlier, earlier ∈ events -> clock earlier ≤ clock last := by
  unfold Chronological at h
  rw [List.map_append, ← List.cons_append, List.pairwise_append] at h
  have hlast := h.right.right
  constructor
  · exact hlast start List.mem_cons_self (clock last) List.mem_cons_self
  · intro earlier hearlier
    exact hlast (clock earlier) (List.mem_cons_of_mem _ (List.mem_map_of_mem hearlier))
      (clock last) List.mem_cons_self

theorem sublist (h : Chronological clock start events) (hsub : List.Sublist rest events) :
    Chronological clock start rest :=
  List.Pairwise.sublist ((hsub.map clock).cons_cons start) h

/-- The clock may go on from the last event. -/
theorem snoc (h : Chronological clock start (events ++ [last])) (hnext : clock last ≤ clock next) :
    Chronological clock start (events ++ [last] ++ [next]) := by
  have hlast := h.le_last
  unfold Chronological at h ⊢
  rw [List.map_append, ← List.cons_append, List.pairwise_append]
  refine ⟨h, List.pairwise_singleton _ _, ?_⟩
  intro entry hentry other hother
  have heq : other = clock next := by simpa using hother
  rw [heq]
  refine le_trans ?_ hnext
  rcases List.mem_cons.mp hentry with hstart | hmap
  · rw [hstart]
    exact hlast.left
  · rcases List.mem_map.mp hmap with ⟨earlier, hearlier, hnow⟩
    rw [← hnow]
    rcases List.mem_append.mp hearlier with hold | hnew
    · exact hlast.right earlier hold
    · rw [List.mem_singleton.mp hnew]

end Chronological

/-- There is a moment after the start and all events. -/
theorem exists_later (clock : event -> time) (start : time) (events : List event) :
    exists now, start ≤ now ∧ forall earlier, earlier ∈ events -> clock earlier ≤ now := by
  induction events with
  | nil =>
      refine ⟨start, le_refl start, ?_⟩
      intro earlier hearlier
      cases hearlier
  | cons first rest ih =>
      rcases ih with ⟨now, hstart, hrest⟩
      refine ⟨max (clock first) now, le_trans hstart (le_max_right _ _), ?_⟩
      intro earlier hearlier
      rcases List.mem_cons.mp hearlier with hhead | htail
      · rw [hhead]
        exact le_max_left _ _
      · exact le_trans (hrest earlier htail) (le_max_right _ _)

end Foundation
end PyChain
