import Mathlib.Algebra.Order.Group.Defs
import Mathlib.Data.List.Basic

/-!
# Sliding windows

A log of admissions in the order of time.  A queue that forgets old entries from
its front agrees with the log on every window it has not forgotten, and a log
whose entries were each admitted below a limit has no window above the limit.
-/

namespace PyChain
namespace Foundation

variable {time : Type} [LinearOrder time]

/-- The entries that are not older than a cutoff. -/
def recent (cutoff : time) (log : List time) : List time :=
  log.filter (fun entry => decide (cutoff ≤ entry))

/-- Forget old entries from the front, up to the first that is not old. -/
def dropStale (cutoff : time) (queue : List time) : List time :=
  queue.dropWhile (fun entry => decide (entry < cutoff))

@[simp] theorem recent_nil (cutoff : time) : recent cutoff [] = [] := rfl

theorem recent_append (cutoff : time) (front back : List time) :
    recent cutoff (front ++ back) = recent cutoff front ++ recent cutoff back :=
  List.filter_append front back

theorem mem_recent {cutoff entry : time} {log : List time} :
    entry ∈ recent cutoff log <-> entry ∈ log ∧ cutoff ≤ entry := by
  rw [recent, List.mem_filter, decide_eq_true_iff]

theorem recent_recent {early late : time} (h : early ≤ late) (log : List time) :
    recent late (recent early log) = recent late log := by
  rw [recent, recent, List.filter_filter]
  apply List.filter_congr
  intro entry _hentry
  rw [← Bool.decide_and]
  apply decide_eq_decide.mpr
  constructor
  · intro hboth
    exact hboth.left
  · intro hlate
    exact ⟨hlate, le_trans h hlate⟩

theorem recent_sublist {early late : time} (h : early ≤ late) (log : List time) :
    List.Sublist (recent late log) (recent early log) := by
  rw [← recent_recent h log]
  exact List.filter_sublist

theorem recent_length_le {early late : time} (h : early ≤ late) (log : List time) :
    (recent late log).length ≤ (recent early log).length :=
  (recent_sublist h log).length_le

theorem recent_sorted {log : List time} (h : log.Pairwise (· ≤ ·)) (cutoff : time) :
    (recent cutoff log).Pairwise (· ≤ ·) :=
  h.sublist List.filter_sublist

theorem recent_of_forall {cutoff : time} {log : List time}
    (h : forall entry, entry ∈ log -> cutoff ≤ entry) : recent cutoff log = log := by
  apply List.filter_eq_self.mpr
  intro entry hentry
  exact decide_eq_true (h entry hentry)

theorem dropStale_eq_recent {queue : List time} (h : queue.Pairwise (· ≤ ·)) (cutoff : time) :
    dropStale cutoff queue = recent cutoff queue := by
  induction queue with
  | nil => rfl
  | cons entry rest ih =>
      rw [List.pairwise_cons] at h
      by_cases hold : entry < cutoff
      · rw [dropStale, List.dropWhile_cons_of_pos (by simpa using hold), recent,
          List.filter_cons_of_neg (by simpa using hold)]
        exact ih h.right
      · have hall : forall other, other ∈ entry :: rest -> cutoff ≤ other := by
          intro other hother
          rcases List.mem_cons.mp hother with hhead | hrest
          · rw [hhead]
            exact not_lt.mp hold
          · exact le_trans (not_lt.mp hold) (h.left other hrest)
        rw [recent_of_forall hall, dropStale,
          List.dropWhile_cons_of_neg (by simpa using not_lt.mp hold)]

/-- Something of a queue is forgotten exactly when its oldest entry is. -/
theorem recent_cons_length_lt_iff {first : time} {rest : List time}
    (h : (first :: rest).Pairwise (· ≤ ·)) (cutoff : time) :
    (recent cutoff (first :: rest)).length < (first :: rest).length <-> first < cutoff := by
  by_cases hold : first < cutoff
  · have hlen := List.length_filter_le (fun entry => decide (cutoff ≤ entry)) rest
    rw [recent, List.filter_cons_of_neg (by simpa using hold), List.length_cons]
    exact ⟨fun _ => hold, fun _ => Nat.lt_succ_of_le hlen⟩
  · have hall : forall other, other ∈ first :: rest -> cutoff ≤ other := by
      intro other hother
      rcases List.mem_cons.mp hother with hhead | hrest
      · rw [hhead]
        exact not_lt.mp hold
      · exact le_trans (not_lt.mp hold) ((List.pairwise_cons.mp h).left other hrest)
    rw [recent_of_forall hall]
    exact ⟨fun hlt => absurd hlt (lt_irrefl _), fun hlt => absurd hlt hold⟩

/-!
## Queues that lag behind the log
-/

/-- A queue holds the entries of a log from some point on, not after the horizon. -/
def Keeps (horizon : time) (log queue : List time) : Prop :=
  exists cutoff, cutoff ≤ horizon ∧ queue = recent cutoff log

namespace Keeps

variable {early late horizon cutoff entry : time} {log queue : List time}

theorem nil (horizon : time) : Keeps horizon ([] : List time) [] :=
  ⟨horizon, le_refl horizon, rfl⟩

theorem mono (h : Keeps early log queue) (hle : early ≤ late) : Keeps late log queue := by
  rcases h with ⟨cutoff, hcutoff, hqueue⟩
  exact ⟨cutoff, le_trans hcutoff hle, hqueue⟩

theorem recent_eq (h : Keeps horizon log queue) (hle : horizon ≤ cutoff) :
    recent cutoff queue = recent cutoff log := by
  rcases h with ⟨early, hearly, hqueue⟩
  rw [hqueue, recent_recent (le_trans hearly hle)]

/-- Forgetting up to a cutoff leaves exactly what is not older than it. -/
theorem dropStale_eq (h : Keeps horizon log queue) (hsorted : log.Pairwise (· ≤ ·))
    (hle : horizon ≤ cutoff) : dropStale cutoff queue = recent cutoff log := by
  rw [← h.recent_eq hle]
  rcases h with ⟨early, _, hqueue⟩
  rw [hqueue]
  exact dropStale_eq_recent (recent_sorted hsorted early) cutoff

theorem dropStale (h : Keeps horizon log queue) (hsorted : log.Pairwise (· ≤ ·))
    (hle : horizon ≤ cutoff) : Keeps cutoff log (dropStale cutoff queue) :=
  ⟨cutoff, le_refl cutoff, h.dropStale_eq hsorted hle⟩

theorem append (h : Keeps horizon log queue) (hentry : horizon ≤ entry) :
    Keeps horizon (log ++ [entry]) (queue ++ [entry]) := by
  rcases h with ⟨cutoff, hcutoff, hqueue⟩
  have hkept : recent cutoff [entry] = [entry] := by
    apply recent_of_forall
    intro other hother
    rw [List.mem_singleton.mp hother]
    exact le_trans hcutoff hentry
  refine ⟨cutoff, hcutoff, ?_⟩
  rw [recent_append, hqueue, hkept]

end Keeps

/-!
## Admission below a limit
-/

variable [AddCommGroup time] [IsOrderedAddMonoid time]

/-- A log in the order of time, each entry of which found fewer entries than the
limit in the window that ends at it. -/
inductive Paced (limit : Nat) (window : time) : List time -> Prop
  | nil : Paced limit window []
  | snoc {log : List time} {entry : time} :
      Paced limit window log -> (forall earlier, earlier ∈ log -> earlier ≤ entry) ->
        (recent (entry - window) log).length < limit ->
          Paced limit window (log ++ [entry])

namespace Paced

variable {limit : Nat} {window : time} {log : List time}

omit [IsOrderedAddMonoid time] in
theorem sorted (h : Paced limit window log) : log.Pairwise (· ≤ ·) := by
  induction h with
  | nil => exact List.Pairwise.nil
  | snoc _ hlast _ ih =>
      rw [List.pairwise_append]
      refine ⟨ih, List.pairwise_singleton _ _, ?_⟩
      intro earlier hearlier other hother
      rw [List.mem_singleton.mp hother]
      exact hlast earlier hearlier

/-- The entries of a closed window are at most the limit, wherever it starts. -/
theorem window_length_le (h : Paced limit window log) (start : time) :
    (log.filter (fun entry =>
      decide (start ≤ entry) && decide (entry ≤ start + window))).length ≤ limit := by
  induction h with
  | nil => exact Nat.zero_le limit
  | @snoc log entry _ _ hroom ih =>
      rw [List.filter_append, List.length_append]
      by_cases hinside : start ≤ entry ∧ entry ≤ start + window
      · have hsub : (log.filter (fun entry =>
            decide (start ≤ entry) && decide (entry ≤ start + window))).length ≤
            (recent (entry - window) log).length := by
          apply List.Sublist.length_le
          apply List.monotone_filter_right
          intro other hother
          rw [Bool.and_eq_true, decide_eq_true_iff] at hother
          apply decide_eq_true
          exact le_trans (sub_le_iff_le_add.mpr hinside.right) hother.left
        have hone := List.length_filter_le (fun entry =>
          decide (start ≤ entry) && decide (entry ≤ start + window)) [entry]
        rw [List.length_singleton] at hone
        omega
      · have hout : [entry].filter (fun entry =>
            decide (start ≤ entry) && decide (entry ≤ start + window)) = [] := by
          rw [List.filter_eq_nil_iff]
          intro other hother
          rw [List.mem_singleton.mp hother, ← Bool.decide_and, decide_eq_true_iff]
          exact hinside
        rw [hout, List.length_nil, Nat.add_zero]
        exact ih

/-- The window that ends at a moment after the whole log. -/
theorem recent_length_le (h : Paced limit window log) {now : time}
    (hnow : forall entry, entry ∈ log -> entry ≤ now) :
    (recent (now - window) log).length ≤ limit := by
  have hwindow := h.window_length_le (now - window)
  have heq : recent (now - window) log = log.filter (fun entry =>
      decide (now - window ≤ entry) && decide (entry ≤ now - window + window)) := by
    apply List.filter_congr
    intro entry hentry
    rw [sub_add_cancel, decide_eq_true (hnow entry hentry), Bool.and_true]
  rw [heq]
  exact hwindow

end Paced

end Foundation
end PyChain
