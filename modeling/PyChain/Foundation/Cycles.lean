import Mathlib.Algebra.Order.Group.Defs
import Mathlib.Data.List.Basic

/-!
# Cycles of a fixed length

Events are grouped into cycles: the first event starts a cycle, and so does every
event that comes a full period after the start of the cycle before.  A counter that is
kept below a limit and reset at the start of a cycle bounds the events of every cycle.
-/

namespace PyChain
namespace Foundation

variable {time : Type} [LinearOrder time] [AddCommGroup time] [IsOrderedAddMonoid time]

/-- The starts of the cycles of the events still to come, after a current cycle. -/
def cycleStartsFrom (period : time) : time -> List time -> List time
  | _, [] => []
  | start, event :: rest =>
      if start + period ≤ event then event :: cycleStartsFrom period event rest
      else cycleStartsFrom period start rest

/-- The starts of the cycles of some events. -/
def cycleStarts (period : time) : List time -> List time
  | [] => []
  | event :: rest => event :: cycleStartsFrom period event rest

/-- The events of the cycle that starts at some time. -/
def cycleEvents (period start : time) (events : List time) : List time :=
  events.filter (fun event => decide (start ≤ event) && decide (event < start + period))

/-- Events in the order of time, with the start of the last cycle and the number of
events in it, which stays within the limit. -/
inductive Cycled (limit : Nat) (period : time) : List time -> time -> Nat -> Prop
  | first (event : time) : 0 < limit -> Cycled limit period [event] event 1
  | again {events : List time} {start : time} {count : Nat} (event : time) :
      Cycled limit period events start count -> start ≤ event -> event < start + period ->
        count < limit -> Cycled limit period (events ++ [event]) start (count + 1)
  | next {events : List time} {start : time} {count : Nat} (event : time) :
      Cycled limit period events start count -> 0 < limit -> start + period ≤ event ->
        Cycled limit period (events ++ [event]) event 1

omit [IsOrderedAddMonoid time] in
theorem cycleStartsFrom_snoc (period : time) (events : List time) (start event : time) :
    cycleStartsFrom period start (events ++ [event]) =
      cycleStartsFrom period start events ++
        (if (cycleStartsFrom period start events).getLastD start + period ≤ event then [event]
          else []) := by
  induction events generalizing start with
  | nil =>
      rw [List.nil_append, cycleStartsFrom, cycleStartsFrom, cycleStartsFrom]
      rfl
  | cons first rest ih =>
      rw [List.cons_append, cycleStartsFrom, cycleStartsFrom]
      by_cases hstarts : start + period ≤ first
      · rw [if_pos hstarts, if_pos hstarts, ih, List.cons_append, List.getLastD_cons]
      · rw [if_neg hstarts, if_neg hstarts, ih]

omit [IsOrderedAddMonoid time] in
theorem cycleStarts_snoc {period start : time} {events : List time}
    (hlast : (cycleStarts period events).getLast? = some start) (event : time) :
    cycleStarts period (events ++ [event]) =
      cycleStarts period events ++ (if start + period ≤ event then [event] else []) := by
  cases events with
  | nil => cases hlast
  | cons first rest =>
      rw [cycleStarts, List.getLast?_cons, Option.some.injEq] at hlast
      rw [List.cons_append, cycleStarts, cycleStarts, cycleStartsFrom_snoc, List.cons_append,
        ← hlast, List.getLastD_eq_getLast?]

omit [IsOrderedAddMonoid time] in
theorem cycleEvents_snoc (period start : time) (events : List time) (event : time) :
    cycleEvents period start (events ++ [event]) =
      cycleEvents period start events ++
        (if start ≤ event ∧ event < start + period then [event] else []) := by
  unfold cycleEvents
  rw [List.filter_append]
  congr 1
  by_cases h : start ≤ event ∧ event < start + period
  · rw [if_pos h, List.filter_cons_of_pos (by simp [h.left, h.right]), List.filter_nil]
  · rw [if_neg h, List.filter_cons_of_neg, List.filter_nil]
    rw [Bool.and_eq_true, decide_eq_true_iff, decide_eq_true_iff]
    exact h

omit [IsOrderedAddMonoid time] in
theorem cycleEvents_of_over {period start event : time} (h : start + period ≤ event)
    (events : List time) :
    cycleEvents period start (events ++ [event]) = cycleEvents period start events := by
  rw [cycleEvents_snoc, if_neg (fun hboth => absurd hboth.right (not_lt.mpr h)), List.append_nil]

namespace Cycled

variable {limit : Nat} {period start : time} {events : List time} {count : Nat}

theorem events_lt (hperiod : 0 < period) (h : Cycled limit period events start count) :
    forall event, event ∈ events -> event < start + period := by
  induction h with
  | first event _ =>
      intro other hother
      rw [List.mem_singleton.mp hother]
      exact lt_add_of_pos_right event hperiod
  | again event _ _ hinside _ ih =>
      intro other hother
      rcases List.mem_append.mp hother with hold | hnew
      · exact ih other hold
      · rw [List.mem_singleton.mp hnew]
        exact hinside
  | next event _ _ hover ih =>
      intro other hother
      have hevent : event < event + period := lt_add_of_pos_right event hperiod
      rcases List.mem_append.mp hother with hold | hnew
      · exact lt_of_lt_of_le (ih other hold) (le_trans hover hevent.le)
      · rw [List.mem_singleton.mp hnew]
        exact hevent

theorem starts (hperiod : 0 < period) (h : Cycled limit period events start count) :
    exists before, cycleStarts period events = before ++ [start] ∧
      forall earlier, earlier ∈ before -> earlier + period ≤ start := by
  induction h with
  | first event _ =>
      refine ⟨[], rfl, ?_⟩
      intro earlier hearlier
      cases hearlier
  | @again events start count event _ _ hinside _ ih =>
      rcases ih with ⟨before, hbefore, hover⟩
      refine ⟨before, ?_, hover⟩
      have hlast : (cycleStarts period events).getLast? = some start := by
        rw [hbefore, List.getLast?_concat]
      rw [cycleStarts_snoc hlast, if_neg (not_le.mpr hinside), List.append_nil, hbefore]
  | @next events start count event _ _ hover ih =>
      rcases ih with ⟨before, hbefore, hearly⟩
      have hlast : (cycleStarts period events).getLast? = some start := by
        rw [hbefore, List.getLast?_concat]
      refine ⟨before ++ [start], ?_, ?_⟩
      · rw [cycleStarts_snoc hlast, if_pos hover, hbefore]
      · intro earlier hearlier
        rcases List.mem_append.mp hearlier with hold | hnew
        · exact le_trans (hearly earlier hold)
            (le_trans (le_add_of_nonneg_right hperiod.le) hover)
        · rw [List.mem_singleton.mp hnew]
          exact hover

/-- The counter is the number of events in the last cycle. -/
theorem count_eq (hperiod : 0 < period) (h : Cycled limit period events start count) :
    (cycleEvents period start events).length = count := by
  induction h with
  | first event _ =>
      rw [← List.nil_append [event], cycleEvents_snoc,
        if_pos ⟨le_refl event, lt_add_of_pos_right event hperiod⟩]
      rfl
  | again event _ hafter hinside _ ih =>
      rw [cycleEvents_snoc, if_pos ⟨hafter, hinside⟩, List.length_append, ih]
      rfl
  | @next events start count event hcycled _ hover _ =>
      have hold : cycleEvents period event events = [] := by
        apply List.filter_eq_nil_iff.mpr
        intro other hother
        have hless := lt_of_lt_of_le (hcycled.events_lt hperiod other hother) hover
        rw [decide_eq_false (not_le.mpr hless), Bool.false_and]
        exact Bool.false_ne_true
      rw [cycleEvents_snoc, hold, if_pos ⟨le_refl event, lt_add_of_pos_right event hperiod⟩]
      rfl

/-- No cycle has more events than the limit. -/
theorem cycleEvents_length_le (hperiod : 0 < period)
    (h : Cycled limit period events start count) :
    forall opening, opening ∈ cycleStarts period events ->
      (cycleEvents period opening events).length ≤ limit := by
  induction h with
  | first event hpos =>
      intro opening _
      exact le_trans (List.length_filter_le _ _) hpos
  | @again events start count event hcycled hafter hinside hroom ih =>
      rcases hcycled.starts hperiod with ⟨past, hpast, hearly⟩
      have hlast : (cycleStarts period events).getLast? = some start := by
        rw [hpast, List.getLast?_concat]
      intro opening hopening
      rw [cycleStarts_snoc hlast, if_neg (not_le.mpr hinside), List.append_nil] at hopening
      have hmem := hopening
      rw [hpast] at hmem
      rcases List.mem_append.mp hmem with hbefore | hcurrent
      · rw [cycleEvents_of_over (le_trans (hearly opening hbefore) hafter)]
        exact ih opening hopening
      · rw [List.mem_singleton.mp hcurrent]
        exact le_of_eq_of_le ((hcycled.again event hafter hinside hroom).count_eq hperiod) hroom
  | @next events start count event hcycled hpos hover ih =>
      rcases hcycled.starts hperiod with ⟨past, hpast, hearly⟩
      have hlast : (cycleStarts period events).getLast? = some start := by
        rw [hpast, List.getLast?_concat]
      intro opening hopening
      rw [cycleStarts_snoc hlast, if_pos hover] at hopening
      rcases List.mem_append.mp hopening with hold | hnew
      · have hended : opening + period ≤ event := by
          have hmem := hold
          rw [hpast] at hmem
          rcases List.mem_append.mp hmem with hbefore | hstart
          · exact le_trans (hearly opening hbefore)
              (le_trans (le_add_of_nonneg_right hperiod.le) hover)
          · rw [List.mem_singleton.mp hstart]
            exact hover
        rw [cycleEvents_of_over hended]
        exact ih opening hold
      · rw [List.mem_singleton.mp hnew]
        exact le_of_eq_of_le ((hcycled.next event hpos hover).count_eq hperiod) hpos

end Cycled

end Foundation
end PyChain
