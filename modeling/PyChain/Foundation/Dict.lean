import Mathlib.Data.List.Nodup
import Mathlib.Data.List.Perm.Subperm
import Mathlib.Algebra.BigOperators.Group.List.Basic
import Mathlib.Algebra.Ring.Int.Defs
import Mathlib.Algebra.Ring.Nat

/-!
# Insertion-ordered dictionaries

A dictionary is a list of items with pairwise distinct keys.  Setting a present
key replaces its value in place, setting an absent key appends, and equality of
two dictionaries as maps ignores the order.  The list order is kept because
some clients iterate over it.
-/

namespace PyChain
namespace Foundation

/-- An insertion-ordered map whose keys are pairwise distinct. -/
structure Dict (key value : Type) where
  items : List (key × value)
  nodupKeys : (items.map Prod.fst).Nodup

namespace Dict

variable {key value : Type}

theorem ext_items {d e : Dict key value} (h : d.items = e.items) : d = e := by
  cases d with
  | mk ditems dnodup =>
      cases e with
      | mk eitems enodup =>
          simp only at h
          subst h
          rfl

def empty : Dict key value :=
  { items := []
    nodupKeys := List.nodup_nil }

def keys (d : Dict key value) : List key :=
  d.items.map Prod.fst

def values (d : Dict key value) : List value :=
  d.items.map Prod.snd

def size (d : Dict key value) : Nat :=
  d.items.length

@[simp] theorem keys_empty : (empty : Dict key value).keys = [] := rfl

variable [DecidableEq key]

instance [DecidableEq value] : DecidableEq (Dict key value) :=
  fun d e =>
    decidable_of_iff (d.items = e.items)
      (Iff.intro ext_items (congrArg Dict.items))

/-- The value of the first item with a key. -/
def lookupKey (items : List (key × value)) (k : key) : Option value :=
  items.lookup k

def get? (d : Dict key value) (k : key) : Option value :=
  lookupKey d.items k

def contains (d : Dict key value) (k : key) : Bool :=
  (d.get? k).isSome

/-- Replace the value of a listed key and leave every other item alone. -/
def replaceItem (k : key) (v : value) (item : key × value) : key × value :=
  if item.1 = k then (k, v) else item

theorem map_replaceItem_fst (k : key) (v : value) (items : List (key × value)) :
    (items.map (replaceItem k v)).map Prod.fst = items.map Prod.fst := by
  rw [List.map_map]
  apply List.map_congr_left
  intro item _hitem
  unfold replaceItem
  by_cases h : item.1 = k
  · simp [h]
  · simp [h]

theorem lookup_isSome_iff (items : List (key × value)) (k : key) :
    (items.lookup k).isSome = true <-> k ∈ items.map Prod.fst := by
  induction items with
  | nil =>
      simp
  | cons item rest ih =>
      by_cases h : k = item.1
      · simp [h]
      · simp [h]

theorem lookupKey_append (xs ys : List (key × value)) (k : key) :
    lookupKey (xs ++ ys) k = (lookupKey xs k).or (lookupKey ys k) :=
  List.lookup_append

theorem contains_iff (d : Dict key value) (k : key) :
    d.contains k = true <-> k ∈ d.keys :=
  lookup_isSome_iff d.items k

def set (d : Dict key value) (k : key) (v : value) : Dict key value :=
  if h : d.contains k = true then
    { items := d.items.map (replaceItem k v)
      nodupKeys := by
        rw [map_replaceItem_fst]
        exact d.nodupKeys }
  else
    { items := d.items ++ [(k, v)]
      nodupKeys := by
        have hfresh : k ∉ d.items.map Prod.fst := by
          intro hmem
          exact h ((contains_iff d k).mpr hmem)
        rw [List.map_append]
        apply List.Nodup.append d.nodupKeys
        · simp
        · simpa using hfresh }

def erase (d : Dict key value) (k : key) : Dict key value :=
  { items := d.items.filter (fun item => decide (item.1 ≠ k))
    nodupKeys :=
      List.Nodup.sublist (List.Sublist.map Prod.fst List.filter_sublist)
        d.nodupKeys }

def eraseAll (d : Dict key value) (ks : List key) : Dict key value :=
  ks.foldl erase d

def update (d : Dict key value) (entries : List (key × value)) :
    Dict key value :=
  entries.foldl (fun acc entry => acc.set entry.1 entry.2) d

/-- Update the value of a key in place, if the key is present. -/
def modify (d : Dict key value) (k : key) (f : value -> value) : Dict key value :=
  { items := d.items.map (fun item => if item.1 = k then (item.1, f item.2) else item)
    nodupKeys := by
      have hkeys : (d.items.map
          (fun item => if item.1 = k then (item.1, f item.2) else item)).map Prod.fst =
          d.items.map Prod.fst := by
        rw [List.map_map]
        apply List.map_congr_left
        intro item _hitem
        by_cases h : item.1 = k
        · simp [h]
        · simp [h]
      rw [hkeys]
      exact d.nodupKeys }

omit [DecidableEq key] in
def mapValues (d : Dict key value) (f : value -> value) : Dict key value :=
  { items := d.items.map (fun item => (item.1, f item.2))
    nodupKeys := by
      rw [List.map_map]
      exact d.nodupKeys }

omit [DecidableEq key] in
def filter (d : Dict key value) (keep : key × value -> Bool) : Dict key value :=
  { items := d.items.filter keep
    nodupKeys :=
      List.Nodup.sublist (List.Sublist.map Prod.fst List.filter_sublist)
        d.nodupKeys }

omit [DecidableEq key] in
/-- Remove the oldest items until at most so many are left. -/
def keepLast (d : Dict key value) (count : Nat) : Dict key value :=
  { items := d.items.drop (d.items.length - count)
    nodupKeys :=
      List.Nodup.sublist (List.Sublist.map Prod.fst (List.drop_sublist _ _))
        d.nodupKeys }

def sameMap [DecidableEq value] (d e : Dict key value) : Bool :=
  d.size = e.size && d.items.all (fun item => e.get? item.1 = some item.2)

/-!
## Lookup characterizations

Every operation is described by the items it leaves behind, and membership of
an item is the same as a successful lookup because keys are distinct.
-/

theorem lookup_eq_some_of_mem {items : List (key × value)} {k : key} {v : value}
    (hnodup : (items.map Prod.fst).Nodup) (hmem : (k, v) ∈ items) :
    items.lookup k = some v := by
  induction items with
  | nil =>
      cases hmem
  | cons item rest ih =>
      rw [List.map_cons, List.nodup_cons] at hnodup
      rcases List.mem_cons.mp hmem with hhead | htail
      · subst hhead
        simp
      · have hne : k ≠ item.1 := by
          intro heq
          apply hnodup.left
          rw [← heq]
          exact List.mem_map.mpr ⟨(k, v), htail, rfl⟩
        have hbeq : (k == item.1) = false := by
          simpa using hne
        rw [List.lookup_cons, hbeq]
        exact ih hnodup.right htail

theorem mem_of_lookup_eq_some {items : List (key × value)} {k : key} {v : value}
    (h : items.lookup k = some v) : (k, v) ∈ items := by
  induction items with
  | nil =>
      cases h
  | cons item rest ih =>
      by_cases heq : k = item.1
      · have hbeq : (k == item.1) = true := by
          simpa using heq
        rw [List.lookup_cons, hbeq] at h
        have hv : item.2 = v := by
          simpa using h
        rw [heq, ← hv]
        exact List.mem_cons_self
      · have hbeq : (k == item.1) = false := by
          simpa using heq
        rw [List.lookup_cons, hbeq] at h
        exact List.mem_cons_of_mem item (ih h)

theorem get?_eq_some_iff (d : Dict key value) (k : key) (v : value) :
    d.get? k = some v <-> (k, v) ∈ d.items := by
  constructor
  · intro h
    exact mem_of_lookup_eq_some h
  · intro h
    exact lookup_eq_some_of_mem d.nodupKeys h

theorem get?_eq_none_iff (d : Dict key value) (k : key) :
    d.get? k = none <-> k ∉ d.keys := by
  rw [← contains_iff d k]
  unfold contains
  cases d.get? k with
  | none => simp
  | some v => simp

theorem mem_keys_of_get? {d : Dict key value} {k : key} {v : value}
    (h : d.get? k = some v) : k ∈ d.keys :=
  List.mem_map.mpr ⟨(k, v), (get?_eq_some_iff d k v).mp h, rfl⟩

theorem exists_get?_of_mem_keys {d : Dict key value} {k : key}
    (h : k ∈ d.keys) : exists v, d.get? k = some v := by
  rcases List.mem_map.mp h with ⟨item, hitem, hk⟩
  subst hk
  exact ⟨item.2, (get?_eq_some_iff d item.1 item.2).mpr hitem⟩

theorem get?_congr_of_mem_items {d e : Dict key value}
    (h : forall k v, (k, v) ∈ d.items <-> (k, v) ∈ e.items) (k : key) :
    d.get? k = e.get? k := by
  apply Option.ext
  intro v
  rw [get?_eq_some_iff, get?_eq_some_iff]
  exact h k v

@[simp] theorem get?_empty (k : key) :
    (empty : Dict key value).get? k = none := rfl

theorem items_set_of_not_mem {d : Dict key value} {k : key} (v : value)
    (h : k ∉ d.keys) : (d.set k v).items = d.items ++ [(k, v)] := by
  have hcontains : ¬ d.contains k = true := by
    intro hc
    exact h ((contains_iff d k).mp hc)
  unfold set
  rw [dif_neg hcontains]

theorem mem_items_set (d : Dict key value) (k : key) (v : value)
    (item : key × value) :
    item ∈ (d.set k v).items <->
      item = (k, v) ∨ (item ∈ d.items ∧ item.1 ≠ k) := by
  unfold set
  by_cases h : d.contains k = true
  · rw [dif_pos h]
    simp only [List.mem_map]
    constructor
    · intro hmem
      rcases hmem with ⟨old, hold, heq⟩
      unfold replaceItem at heq
      by_cases hk : old.1 = k
      · rw [if_pos hk] at heq
        exact Or.inl heq.symm
      · rw [if_neg hk] at heq
        subst heq
        exact Or.inr ⟨hold, hk⟩
    · intro hmem
      rcases hmem with hnew | hold
      · rcases exists_get?_of_mem_keys ((contains_iff d k).mp h) with ⟨w, hw⟩
        exists (k, w)
        constructor
        · exact (get?_eq_some_iff d k w).mp hw
        · simp [replaceItem, hnew]
      · exists item
        constructor
        · exact hold.left
        · simp [replaceItem, hold.right]
  · rw [dif_neg h]
    have hfresh : k ∉ d.keys := by
      intro hmem
      exact h ((contains_iff d k).mpr hmem)
    simp only [List.mem_append, List.mem_singleton]
    constructor
    · intro hmem
      rcases hmem with hold | hnew
      · apply Or.inr
        constructor
        · exact hold
        · intro hk
          apply hfresh
          rw [← hk]
          exact List.mem_map.mpr ⟨item, hold, rfl⟩
      · exact Or.inl hnew
    · intro hmem
      rcases hmem with hnew | hold
      · exact Or.inr hnew
      · exact Or.inl hold.left

theorem get?_set (d : Dict key value) (k : key) (v : value) (j : key) :
    (d.set k v).get? j = if j = k then some v else d.get? j := by
  apply Option.ext
  intro w
  rw [get?_eq_some_iff, mem_items_set]
  by_cases hj : j = k
  · simp [hj, eq_comm]
  · simp [hj, get?_eq_some_iff]

theorem mem_items_erase (d : Dict key value) (k : key) (item : key × value) :
    item ∈ (d.erase k).items <-> item ∈ d.items ∧ item.1 ≠ k := by
  simp [erase]

theorem get?_erase (d : Dict key value) (k j : key) :
    (d.erase k).get? j = if j = k then none else d.get? j := by
  apply Option.ext
  intro w
  rw [get?_eq_some_iff, mem_items_erase]
  by_cases hj : j = k
  · simp [hj]
  · simp [hj, get?_eq_some_iff]

theorem keys_modify (d : Dict key value) (k : key) (f : value -> value) :
    (d.modify k f).keys = d.keys := by
  unfold keys modify
  rw [List.map_map]
  apply List.map_congr_left
  intro item _hitem
  by_cases h : item.1 = k
  · simp [h]
  · simp [h]

theorem get?_modify (d : Dict key value) (k : key) (f : value -> value) (j : key) :
    (d.modify k f).get? j = if j = k then (d.get? j).map f else d.get? j := by
  apply Option.ext
  intro w
  rw [get?_eq_some_iff]
  simp only [modify, List.mem_map]
  by_cases hj : j = k
  · rw [if_pos hj]
    simp only [Option.map_eq_some_iff, get?_eq_some_iff]
    constructor
    · intro h
      rcases h with ⟨item, hitem, heq⟩
      by_cases hk : item.1 = k
      · rw [if_pos hk] at heq
        cases heq
        exact ⟨item.2, hitem, rfl⟩
      · rw [if_neg hk] at heq
        rw [heq] at hk
        exact absurd hj hk
    · intro h
      rcases h with ⟨v, hv, heq⟩
      refine ⟨(j, v), hv, ?_⟩
      simp only [hj, if_true, heq]
  · rw [if_neg hj, get?_eq_some_iff]
    constructor
    · intro h
      rcases h with ⟨item, hitem, heq⟩
      by_cases hk : item.1 = k
      · rw [if_pos hk] at heq
        cases heq
        exact absurd hk hj
      · rw [if_neg hk] at heq
        rw [← heq]
        exact hitem
    · intro h
      refine ⟨(j, w), h, ?_⟩
      simp only [hj, if_false]

theorem modify_of_get? {d : Dict key value} {k : key} {v : value} (h : d.get? k = some v)
    (f : value -> value) : d.modify k f = d.modify k (fun _ => f v) := by
  apply ext_items
  apply List.map_congr_left
  intro item hitem
  by_cases hk : item.1 = k
  · have hget : d.get? k = some item.2 := by
      rw [get?_eq_some_iff, ← hk]
      exact hitem
    rw [h] at hget
    rw [if_pos hk, if_pos hk, Option.some.inj hget]
  · rw [if_neg hk, if_neg hk]

theorem values_modify_split {d : Dict key value} {k : key} {v : value}
    (h : d.get? k = some v) :
    exists front back, d.values = front ++ v :: back ∧
      forall f, (d.modify k f).values = front ++ f v :: back := by
  rcases List.append_of_mem ((get?_eq_some_iff d k v).mp h) with ⟨front, back, hitems⟩
  have hnodup := d.nodupKeys
  rw [hitems, List.map_append, List.map_cons, List.nodup_middle, List.nodup_cons,
    List.mem_append, not_or] at hnodup
  have hother : forall (f : value -> value) (items : List (key × value)),
      k ∉ items.map Prod.fst ->
      items.map (fun item => if item.1 = k then (item.1, f item.2) else item) = items := by
    intro f items hnotin
    calc items.map (fun item => if item.1 = k then (item.1, f item.2) else item)
        = items.map id := by
          apply List.map_congr_left
          intro item hitem
          have hne : item.1 ≠ k := by
            intro heq
            apply hnotin
            rw [← heq]
            exact List.mem_map.mpr ⟨item, hitem, rfl⟩
          rw [if_neg hne]
          rfl
      _ = items := List.map_id items
  refine ⟨front.map Prod.snd, back.map Prod.snd, ?_, ?_⟩
  · unfold values
    rw [hitems, List.map_append, List.map_cons]
  · intro f
    unfold values modify
    simp only [hitems, List.map_append, List.map_cons]
    rw [hother f front hnodup.left.left, hother f back hnodup.left.right]
    simp only [if_true]

/-- Setting a present key exchanges one value. -/
theorem countP_set_of_get? {d : Dict key value} {k : key} {w : value}
    (h : d.get? k = some w) (v : value) (p : value -> Bool) :
    (d.set k v).values.countP p + (if p w = true then 1 else 0) =
      d.values.countP p + (if p v = true then 1 else 0) := by
  have hset : (d.set k v).values = (d.modify k (fun _ => v)).values := by
    unfold values set
    rw [dif_pos ((contains_iff d k).mpr (mem_keys_of_get? h))]
    congr 1
    apply List.map_congr_left
    intro item _
    unfold replaceItem
    split
    · rename_i hkey
      rw [hkey]
    · rfl
  rcases values_modify_split h with ⟨front, back, hvalues, hmodify⟩
  rw [hset, hmodify, hvalues]
  simp only [List.countP_append, List.countP_cons]
  omega

theorem countP_set_of_not_mem {d : Dict key value} {k : key} (hfresh : k ∉ d.keys)
    (v : value) (p : value -> Bool) :
    (d.set k v).values.countP p = d.values.countP p + if p v = true then 1 else 0 := by
  unfold values
  rw [items_set_of_not_mem v hfresh, List.map_append, List.countP_append, List.map_cons,
    List.map_nil, List.countP_singleton]

/-- Setting a key adds at most its value. -/
theorem countP_values_set (d : Dict key value) (k : key) (v : value) (p : value -> Bool) :
    (d.set k v).values.countP p ≤ d.values.countP p + if p v = true then 1 else 0 := by
  cases hget : d.get? k with
  | none =>
      exact Nat.le_of_eq (countP_set_of_not_mem ((get?_eq_none_iff d k).mp hget) v p)
  | some w =>
      have hcount := countP_set_of_get? hget v p
      omega

theorem modify_modify (d : Dict key value) (k : key) (f g : value -> value) :
    (d.modify k f).modify k g = d.modify k (fun v => g (f v)) := by
  apply ext_items
  simp only [modify, List.map_map]
  apply List.map_congr_left
  intro item _
  by_cases hk : item.1 = k
  · simp [hk]
  · simp [hk]

omit [DecidableEq key] in
theorem keys_mapValues (d : Dict key value) (f : value -> value) :
    (d.mapValues f).keys = d.keys := by
  unfold keys mapValues
  rw [List.map_map]
  rfl

theorem get?_mapValues (d : Dict key value) (f : value -> value) (j : key) :
    (d.mapValues f).get? j = (d.get? j).map f := by
  apply Option.ext
  intro w
  rw [get?_eq_some_iff, Option.map_eq_some_iff]
  simp only [mapValues, List.mem_map, get?_eq_some_iff]
  constructor
  · intro h
    rcases h with ⟨item, hitem, heq⟩
    cases heq
    exact ⟨item.2, hitem, rfl⟩
  · intro h
    rcases h with ⟨v, hv, heq⟩
    exact ⟨(j, v), hv, by rw [← heq]⟩

theorem get?_filter (d : Dict key value) (keep : key × value -> Bool) (j : key) (v : value) :
    (d.filter keep).get? j = some v <-> d.get? j = some v ∧ keep (j, v) = true := by
  rw [get?_eq_some_iff, get?_eq_some_iff]
  simp only [filter, List.mem_filter]

theorem get?_eraseAll (d : Dict key value) (ks : List key) (j : key) :
    (d.eraseAll ks).get? j = if j ∈ ks then none else d.get? j := by
  induction ks generalizing d with
  | nil =>
      simp [eraseAll]
  | cons k rest ih =>
      change ((d.erase k).eraseAll rest).get? j = _
      rw [ih, get?_erase]
      by_cases hrest : j ∈ rest
      · simp [hrest]
      · by_cases hk : j = k
        · simp [hk]
        · simp [hrest, hk]

theorem items_update_of_fresh (d : Dict key value)
    (entries : List (key × value))
    (hnodup : (entries.map Prod.fst).Nodup)
    (hfresh : forall entry, entry ∈ entries -> entry.1 ∉ d.keys) :
    (d.update entries).items = d.items ++ entries := by
  induction entries generalizing d with
  | nil =>
      simp [update]
  | cons entry rest ih =>
      rw [List.map_cons, List.nodup_cons] at hnodup
      have hitems : (d.set entry.1 entry.2).items = d.items ++ [entry] :=
        items_set_of_not_mem entry.2 (hfresh entry List.mem_cons_self)
      change ((d.set entry.1 entry.2).update rest).items = _
      rw [ih (d.set entry.1 entry.2) hnodup.right]
      · rw [hitems, List.append_assoc]
        rfl
      · intro other hother hmem
        unfold keys at hmem
        rw [hitems, List.map_append, List.mem_append] at hmem
        rcases hmem with hold | hnew
        · exact hfresh other (List.mem_cons_of_mem entry hother) hold
        · have heq : other.1 = entry.1 := by
            simpa using hnew
          apply hnodup.left
          rw [← heq]
          exact List.mem_map.mpr ⟨other, hother, rfl⟩

/-- Dictionaries with equal lookups list the same items. -/
theorem perm_of_get?_eq {d e : Dict key value} (h : forall k, d.get? k = e.get? k) :
    d.items.Perm e.items := by
  apply (List.perm_ext_iff_of_nodup (List.Nodup.of_map Prod.fst d.nodupKeys)
    (List.Nodup.of_map Prod.fst e.nodupKeys)).mpr
  intro item
  rw [← get?_eq_some_iff d item.1 item.2, ← get?_eq_some_iff e item.1 item.2, h item.1]

theorem sameMap_iff [DecidableEq value] (d e : Dict key value) :
    d.sameMap e = true <-> forall k, d.get? k = e.get? k := by
  unfold sameMap
  simp only [Bool.and_eq_true, decide_eq_true_eq, List.all_eq_true]
  constructor
  · intro h k
    have hsub : d.items ⊆ e.items := by
      intro item hitem
      exact (get?_eq_some_iff e item.1 item.2).mp (h.right item hitem)
    have hnodup : d.items.Nodup := List.Nodup.of_map Prod.fst d.nodupKeys
    have hperm : d.items.Perm e.items :=
      (List.Nodup.subperm hnodup hsub).perm_of_length_le (Nat.le_of_eq h.left.symm)
    apply get?_congr_of_mem_items
    intro j v
    exact hperm.mem_iff
  · intro h
    have hperm := perm_of_get?_eq h
    constructor
    · exact hperm.length_eq
    · intro item hitem
      exact (get?_eq_some_iff e item.1 item.2).mpr (hperm.mem_iff.mp hitem)

/-!
## Totals

A weight on values is summed over the whole dictionary.  Erasing a present key
removes its weight, appending fresh entries adds theirs.
-/

section Totals

variable (weight : value -> Int)

/-- The total weight of all values. -/
def total (d : Dict key value) : Int :=
  (d.items.map (fun item => weight item.2)).sum

/-- The weight stored at a key, zero when the key is absent. -/
def weightAt (d : Dict key value) (k : key) : Int :=
  ((d.get? k).map weight).getD 0

theorem weightAt_of_get? {d : Dict key value} {k : key} {v : value}
    (h : d.get? k = some v) : d.weightAt weight k = weight v := by
  simp [weightAt, h]

theorem filter_ne_of_not_mem {items : List (key × value)} {k : key}
    (h : k ∉ items.map Prod.fst) :
    items.filter (fun item => decide (item.1 ≠ k)) = items := by
  apply List.filter_eq_self.mpr
  intro item hitem
  simp only [ne_eq, decide_not, Bool.not_eq_eq_eq_not, Bool.not_true,
    decide_eq_false_iff_not]
  intro hk
  apply h
  rw [← hk]
  exact List.mem_map.mpr ⟨item, hitem, rfl⟩

theorem sum_filter_ne {items : List (key × value)} {k : key} {v : value}
    (hnodup : (items.map Prod.fst).Nodup) (hmem : (k, v) ∈ items) :
    ((items.filter (fun item => decide (item.1 ≠ k))).map
        (fun item => weight item.2)).sum + weight v =
      (items.map (fun item => weight item.2)).sum := by
  induction items with
  | nil =>
      cases hmem
  | cons item rest ih =>
      rw [List.map_cons, List.nodup_cons] at hnodup
      rcases List.mem_cons.mp hmem with hhead | htail
      · subst hhead
        rw [List.filter_cons_of_neg (by simp),
          filter_ne_of_not_mem hnodup.left, List.map_cons, List.sum_cons]
        exact Int.add_comm _ _
      · have hne : item.1 ≠ k := by
          intro heq
          apply hnodup.left
          rw [heq]
          exact List.mem_map.mpr ⟨(k, v), htail, rfl⟩
        rw [List.filter_cons_of_pos (by simpa using hne), List.map_cons,
          List.map_cons, List.sum_cons, List.sum_cons]
        have hrest := ih hnodup.right htail
        omega

theorem total_erase {d : Dict key value} {k : key} (h : k ∈ d.keys) :
    (d.erase k).total weight + d.weightAt weight k = d.total weight := by
  rcases exists_get?_of_mem_keys h with ⟨v, hv⟩
  rw [weightAt_of_get? weight hv]
  exact sum_filter_ne weight d.nodupKeys ((get?_eq_some_iff d k v).mp hv)

theorem erase_of_get?_none {d : Dict key value} {k : key} (h : d.get? k = none) :
    d.erase k = d := by
  apply ext_items
  exact filter_ne_of_not_mem ((get?_eq_none_iff d k).mp h)

theorem total_set (d : Dict key value) (k : key) (v : value) :
    (d.set k v).total weight = (d.erase k).total weight + weight v := by
  have hfresh : k ∉ (d.erase k).keys := by
    apply (get?_eq_none_iff _ k).mp
    rw [get?_erase, if_pos rfl]
  have hget : forall j, (d.set k v).get? j = ((d.erase k).set k v).get? j := by
    intro j
    rw [get?_set, get?_set, get?_erase]
    by_cases hj : j = k
    · rw [if_pos hj, if_pos hj]
    · rw [if_neg hj, if_neg hj, if_neg hj]
  have hperm := perm_of_get?_eq hget
  calc (d.set k v).total weight = ((d.erase k).set k v).total weight :=
        (hperm.map (fun item : key × value => weight item.2)).sum_eq
    _ = (d.erase k).total weight + weight v := by
        unfold total
        rw [items_set_of_not_mem v hfresh, List.map_append, List.sum_append]
        simp

/-- Setting a key puts its value in the place of what the key had. -/
theorem values_set_perm (d : Dict key value) (k : key) (v : value) :
    (d.set k v).values.Perm (v :: (d.erase k).values) := by
  have hfresh : k ∉ (d.erase k).keys := by
    apply (get?_eq_none_iff _ k).mp
    rw [get?_erase, if_pos rfl]
  have hget : forall j, (d.set k v).get? j = ((d.erase k).set k v).get? j := by
    intro j
    rw [get?_set, get?_set, get?_erase]
    split
    · rfl
    · rfl
  have hperm := (perm_of_get?_eq hget).map Prod.snd
  rw [items_set_of_not_mem v hfresh, List.map_append, List.map_cons, List.map_nil] at hperm
  exact hperm.trans (List.perm_append_singleton v _)

theorem values_erase_sublist (d : Dict key value) (k : key) :
    List.Sublist (d.erase k).values d.values :=
  List.filter_sublist.map Prod.snd

theorem weightAt_erase_of_ne {d : Dict key value} {j k : key} (h : j ≠ k) :
    (d.erase k).weightAt weight j = d.weightAt weight j := by
  simp [weightAt, get?_erase, h]

theorem mem_keys_erase {d : Dict key value} {j k : key}
    (hj : j ∈ d.keys) (hne : j ≠ k) : j ∈ (d.erase k).keys := by
  rcases exists_get?_of_mem_keys hj with ⟨v, hv⟩
  apply mem_keys_of_get? (v := v)
  rw [get?_erase, if_neg hne, hv]

theorem total_eraseAll {d : Dict key value} {ks : List key}
    (hnodup : ks.Nodup) (hmem : forall k, k ∈ ks -> k ∈ d.keys) :
    (d.eraseAll ks).total weight + (ks.map (d.weightAt weight)).sum =
      d.total weight := by
  induction ks generalizing d with
  | nil =>
      simp [eraseAll]
  | cons k rest ih =>
      rw [List.nodup_cons] at hnodup
      have hne : forall j, j ∈ rest -> j ≠ k := by
        intro j hj heq
        subst heq
        exact hnodup.left hj
      have hweights :
          rest.map ((d.erase k).weightAt weight) = rest.map (d.weightAt weight) := by
        apply List.map_congr_left
        intro j hj
        exact weightAt_erase_of_ne weight (hne j hj)
      have hrest := ih (d := d.erase k) hnodup.right (by
        intro j hj
        exact mem_keys_erase (hmem j (List.mem_cons_of_mem k hj)) (hne j hj))
      have hhead := total_erase weight (hmem k List.mem_cons_self)
      change ((d.erase k).eraseAll rest).total weight + _ = _
      rw [List.map_cons, List.sum_cons]
      rw [hweights] at hrest
      omega

theorem total_update_of_fresh (d : Dict key value)
    (entries : List (key × value))
    (hnodup : (entries.map Prod.fst).Nodup)
    (hfresh : forall entry, entry ∈ entries -> entry.1 ∉ d.keys) :
    (d.update entries).total weight =
      d.total weight + (entries.map (fun entry => weight entry.2)).sum := by
  unfold total
  rw [items_update_of_fresh d entries hnodup hfresh, List.map_append,
    List.sum_append]

end Totals

end Dict

end Foundation
end PyChain
