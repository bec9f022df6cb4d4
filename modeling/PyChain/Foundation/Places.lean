import Mathlib.Algebra.Ring.Nat
import Mathlib.Data.List.Basic
import Mathlib.Data.List.Forall2

/-!
# Places and reservations

Guests may come under a key that was reserved for them.  A place is taken by a guest who
is present and by a reservation that nobody present has come under.  If at most one guest
present has come under each key, the places taken are the reservations and the guests
without one.
-/

namespace PyChain
namespace Foundation

section Places

variable {guest key : Type} [DecidableEq key] (keyOf : guest -> Option key)
  (present : guest -> Bool)

/-- The guests present who have come under a key. -/
def holders (guests : List guest) (k : key) : Nat :=
  guests.countP (fun x => present x && decide (keyOf x = some k))

def isReserved (keys : List key) (x : guest) : Bool :=
  keys.any (fun k => decide (keyOf x = some k))

/-- The guests present without a reservation. -/
def walkIns (keys : List key) (guests : List guest) : Nat :=
  guests.countP (fun x => present x && !isReserved keyOf keys x)

/-- The reservations that nobody present has come under. -/
def vacant (guests : List guest) (keys : List key) : Nat :=
  keys.countP (fun k => guests.all (fun x => !(present x && decide (keyOf x = some k))))

variable {keyOf present}

theorem isReserved_iff {keys : List key} {x : guest} :
    isReserved keyOf keys x = true <-> exists k, k ∈ keys ∧ keyOf x = some k := by
  simp [isReserved]

theorem countP_le_add {alpha : Type} {p q r : alpha -> Bool} {xs : List alpha}
    (h : forall x, x ∈ xs -> p x = true -> q x = true ∨ r x = true) :
    xs.countP p ≤ xs.countP q + xs.countP r := by
  induction xs with
  | nil => exact Nat.zero_le _
  | cons x rest ih =>
      have hrest := ih (fun y hy => h y (List.mem_cons_of_mem x hy))
      have hx := h x List.mem_cons_self
      simp only [List.countP_cons]
      by_cases hp : p x = true
      · rcases hx hp with hq | hr
        · simp only [hp, hq, if_true]
          omega
        · simp only [hp, hr, if_true]
          omega
      · simp only [hp, Bool.false_eq_true, if_false]
        omega

variable (keyOf present) in
theorem reserved_le_sum (keys : List key) (guests : List guest) :
    guests.countP (fun x => present x && isReserved keyOf keys x) ≤
      (keys.map (holders keyOf present guests)).sum := by
  induction keys with
  | nil => simp [isReserved]
  | cons k rest ih =>
      rw [List.map_cons, List.sum_cons]
      refine Nat.le_trans (countP_le_add ?_) (Nat.add_le_add_left ih _)
      intro x _ hx
      simp only [isReserved, List.any_cons, Bool.and_eq_true, Bool.or_eq_true] at hx ⊢
      rcases hx with ⟨hpresent, hfirst | hrest⟩
      · exact Or.inl ⟨hpresent, hfirst⟩
      · exact Or.inr ⟨hpresent, hrest⟩

theorem holders_eq_zero_iff {guests : List guest} {k : key} :
    holders keyOf present guests k = 0 <->
      guests.all (fun x => !(present x && decide (keyOf x = some k))) = true := by
  unfold holders
  rw [List.countP_eq_zero, List.all_eq_true]
  constructor
  · intro h x hx
    rw [Bool.not_eq_true', Bool.eq_false_iff]
    exact h x hx
  · intro h x hx
    have hx' := h x hx
    rw [Bool.not_eq_true', Bool.eq_false_iff] at hx'
    exact hx'

/-- Under keys of one guest at most, the guests present and the vacant reservations take
no more than the reservations and the guests without one. -/
theorem present_add_vacant_le {keys : List key} {guests : List guest}
    (hsingle : forall k, k ∈ keys -> holders keyOf present guests k ≤ 1) :
    guests.countP present + vacant keyOf present guests keys ≤
      keys.length + walkIns keyOf present keys guests := by
  have hsplit : guests.countP present ≤ walkIns keyOf present keys guests +
      guests.countP (fun x => present x && isReserved keyOf keys x) := by
    apply countP_le_add
    intro x _ hx
    cases hreserved : isReserved keyOf keys x
    · exact Or.inl (by simp [hx])
    · exact Or.inr (by simp [hx])
  have hsum : (keys.map (holders keyOf present guests)).sum +
      vacant keyOf present guests keys ≤ keys.length := by
    clear hsplit
    unfold vacant
    induction keys with
    | nil => exact Nat.le_refl _
    | cons k rest ih =>
        have hrest := ih (fun j hj => hsingle j (List.mem_cons_of_mem k hj))
        have hk := hsingle k List.mem_cons_self
        rw [List.map_cons, List.sum_cons, List.length_cons, List.countP_cons]
        split
        · rename_i hvacant
          rw [holders_eq_zero_iff.mpr hvacant]
          omega
        · omega
  have hreserved := reserved_le_sum keyOf present keys guests
  omega

variable (keyOf) in
theorem reserved_add_le {k : key} {keys : List key} (hfresh : k ∉ keys)
    (guests : List guest) :
    guests.countP (isReserved keyOf keys) +
      guests.countP (fun x => decide (keyOf x = some k)) ≤
        guests.countP (isReserved keyOf (k :: keys)) := by
  induction guests with
  | nil => exact Nat.le_refl _
  | cons x others ih =>
      simp only [List.countP_cons]
      by_cases hk : keyOf x = some k
      · have hnot : isReserved keyOf keys x = false := by
          rw [Bool.eq_false_iff]
          intro htrue
          rcases isReserved_iff.mp htrue with ⟨j, hj, hkey⟩
          rw [hk] at hkey
          exact hfresh ((Option.some.inj hkey) ▸ hj)
        have hreserved : isReserved keyOf (k :: keys) x = true :=
          isReserved_iff.mpr ⟨k, List.mem_cons_self, hk⟩
        simp only [hk, hnot, hreserved, decide_true, Bool.false_eq_true, if_true, if_false]
        omega
      · cases hold : isReserved keyOf keys x
        · simp only [hk, decide_false, Bool.false_eq_true, if_false]
          omega
        · have hreserved : isReserved keyOf (k :: keys) x = true := by
            rcases isReserved_iff.mp hold with ⟨j, hj, hkey⟩
            exact isReserved_iff.mpr ⟨j, List.mem_cons_of_mem k hj, hkey⟩
          simp only [hk, hreserved, decide_false, Bool.false_eq_true, if_true, if_false]
          omega

variable (keyOf) in
theorem claimed_le {keys : List key} (hnodup : keys.Nodup) (guests : List guest) :
    keys.length ≤ guests.countP (isReserved keyOf keys) +
      vacant keyOf (fun _ => true) guests keys := by
  induction keys with
  | nil => exact Nat.zero_le _
  | cons k rest ih =>
      rcases List.nodup_cons.mp hnodup with ⟨hfresh, hrest⟩
      have hlength := ih hrest
      have hdisjoint := reserved_add_le keyOf hfresh guests
      unfold vacant at hlength ⊢
      rw [List.countP_cons, List.length_cons]
      split
      · omega
      · rename_i hclaimed
        have hpos : 0 < guests.countP (fun x => decide (keyOf x = some k)) := by
          rw [List.countP_pos_iff]
          by_contra hnone
          apply hclaimed
          rw [List.all_eq_true]
          intro x hx
          simp only [Bool.true_and, Bool.not_eq_true', decide_eq_false_iff_not]
          exact fun hkey => hnone ⟨x, hx, decide_eq_true hkey⟩
        omega

/-- The reservations and the guests without one, counted by everyone who is there. -/
theorem taken_le {keys : List key} (hnodup : keys.Nodup) (guests : List guest) :
    keys.length + walkIns keyOf present keys guests ≤
      guests.length + vacant keyOf (fun _ => true) guests keys := by
  have hclaimed := claimed_le keyOf hnodup guests
  have hwalk : walkIns keyOf present keys guests ≤
      guests.countP (fun x => !isReserved keyOf keys x) := by
    apply List.countP_mono_left
    intro x _ hx
    exact (Bool.and_eq_true_iff.mp hx).right
  have hall : guests.countP (isReserved keyOf keys) +
      guests.countP (fun x => !isReserved keyOf keys x) = guests.length := by
    rw [List.length_eq_countP_add_countP (isReserved keyOf keys)]
    congr 1
    apply List.countP_congr
    intro x _
    simp
  omega

/-!
## Changes
-/

/-- A guest may leave, and keeps the key otherwise. -/
theorem countP_forall₂ {alpha : Type} {R : alpha -> alpha -> Prop} {p : alpha -> Bool}
    {xs ys : List alpha} (h : List.Forall₂ R xs ys)
    (hp : forall x y, R x y -> p y = true -> p x = true) : ys.countP p ≤ xs.countP p := by
  induction h with
  | nil => exact Nat.le_refl _
  | @cons x y _ _ hhead _ ih =>
      rw [List.countP_cons, List.countP_cons]
      by_cases hy : p y = true
      · rw [if_pos hy, if_pos (hp x y hhead hy)]
        omega
      · rw [if_neg hy]
        omega

variable (keyOf present) in
theorem walkIns_reserve (keys : List key) (k : key) (guests : List guest) :
    walkIns keyOf present (keys ++ [k]) guests ≤ walkIns keyOf present keys guests := by
  apply List.countP_mono_left
  intro x _ hx
  simp only [isReserved, List.any_append, Bool.and_eq_true, Bool.not_eq_true',
    Bool.or_eq_false_iff] at hx ⊢
  exact ⟨hx.left, hx.right.left⟩

variable (keyOf present) in
/-- Without its reservation, a guest has none. -/
theorem walkIns_cancel (keys : List key) (k : key) (guests : List guest) :
    walkIns keyOf present (keys.erase k) guests ≤
      walkIns keyOf present keys guests + holders keyOf present guests k := by
  apply countP_le_add
  intro x _ hx
  simp only [Bool.and_eq_true, Bool.not_eq_true', decide_eq_true_eq] at hx ⊢
  by_cases hk : keyOf x = some k
  · exact Or.inr ⟨hx.left, hk⟩
  · refine Or.inl ⟨hx.left, ?_⟩
    rw [Bool.eq_false_iff]
    intro hreserved
    rcases isReserved_iff.mp hreserved with ⟨j, hj, hkey⟩
    have hne : j ≠ k := by
      rintro rfl
      exact hk hkey
    have hkept := isReserved_iff.mpr ⟨j, (List.mem_erase_of_ne hne).mpr hj, hkey⟩
    rw [hx.right] at hkept
    exact Bool.false_ne_true hkept

end Places

end Foundation
end PyChain
