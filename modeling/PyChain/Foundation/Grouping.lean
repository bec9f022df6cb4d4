import PyChain.Foundation.Dict

/-!
# Dictionaries that accumulate

A list of values per key and a sum per key, both grown entry by entry from the
empty value.  What a key holds in the end can be read off the entries.
-/

namespace PyChain
namespace Foundation
namespace Dict

variable {key value : Type} [DecidableEq key]

/-- The values that a list of entries gives to one key, in order. -/
def valuesOf (entries : List (key × value)) (k : key) : List value :=
  (entries.filter (fun entry => entry.1 = k)).map Prod.snd

theorem valuesOf_cons (entry : key × value) (rest : List (key × value)) (k : key) :
    valuesOf (entry :: rest) k =
      if entry.1 = k then entry.2 :: valuesOf rest k else valuesOf rest k := by
  unfold valuesOf
  by_cases h : entry.1 = k
  · simp [h]
  · simp [h]

theorem valuesOf_append (xs ys : List (key × value)) (k : key) :
    valuesOf (xs ++ ys) k = valuesOf xs k ++ valuesOf ys k := by
  simp [valuesOf]

theorem valuesOf_eq_nil {entries : List (key × value)} {k : key}
    (h : k ∉ entries.map Prod.fst) : valuesOf entries k = [] := by
  unfold valuesOf
  rw [List.map_eq_nil_iff, List.filter_eq_nil_iff]
  intro entry hentry hk
  apply h
  rw [← of_decide_eq_true hk]
  exact List.mem_map_of_mem hentry

theorem valuesOf_flatMap {source : Type} (xs : List source)
    (f : source -> List (key × value)) (k : key) :
    valuesOf (xs.flatMap f) k = xs.flatMap (fun x => valuesOf (f x) k) := by
  induction xs with
  | nil => rfl
  | cons x rest ih => rw [List.flatMap_cons, List.flatMap_cons, valuesOf_append, ih]

/-- The values of a list whose entries are read off its elements. -/
theorem valuesOf_map {source : Type} (xs : List source) (keyOf : source -> key)
    (valueOf : source -> value) (k : key) :
    valuesOf (xs.map (fun x => (keyOf x, valueOf x))) k =
      (xs.filter (fun x => keyOf x = k)).map valueOf := by
  unfold valuesOf
  rw [List.filter_map, List.map_map]
  rfl

theorem valuesOf_items (d : Dict key value) (k : key) :
    valuesOf d.items k = (d.get? k).toList := by
  unfold get? lookupKey
  have hnodup := d.nodupKeys
  generalize d.items = items at hnodup
  induction items with
  | nil => rfl
  | cons item rest ih =>
      rw [List.map_cons, List.nodup_cons] at hnodup
      rw [valuesOf_cons]
      by_cases h : item.1 = k
      · have hrest : valuesOf rest k = [] := by
          apply valuesOf_eq_nil
          rw [← h]
          exact hnodup.left
        rw [if_pos h, hrest, ← h, List.lookup_cons_self]
        rfl
      · have hne : (k == item.1) = false := by
          simpa using Ne.symm h
        rw [if_neg h, List.lookup_cons, hne]
        exact ih hnodup.right

/-- Entries that are made from the items of a dictionary. -/
theorem valuesOf_map_items {other : Type} (d : Dict key value) (f : value -> other) (k : key) :
    valuesOf (d.items.map (fun item => (item.1, f item.2))) k =
      ((d.get? k).map f).toList := by
  rw [valuesOf_map d.items Prod.fst (fun item => f item.2) k]
  have hvalues := congrArg (List.map f) (valuesOf_items d k)
  unfold valuesOf at hvalues
  rw [List.map_map] at hvalues
  refine hvalues.trans ?_
  cases d.get? k with
  | none => rfl
  | some v => rfl

/-- Entries whose keys are the elements of a list without repetitions. -/
theorem valuesOf_map_keys {keys : List key} (hnodup : keys.Nodup) (f : key -> value) (k : key) :
    valuesOf (keys.map (fun x => (x, f x))) k = if k ∈ keys then [f k] else [] := by
  rw [valuesOf_map keys (fun x => x) f k, List.filter_eq, List.Nodup.count hnodup]
  by_cases h : k ∈ keys
  · rw [if_pos h, if_pos h]
    rfl
  · rw [if_neg h, if_neg h]
    rfl

theorem valuesOf_flatMap_own {source : Type} {f : source -> List (key × value)}
    {keyOf : source -> key} (hkeys : forall x entry, entry ∈ f x -> entry.1 = keyOf x)
    {xs : List source} (hnodup : (xs.map keyOf).Nodup) {x : source} (hx : x ∈ xs) :
    valuesOf (xs.flatMap f) (keyOf x) = (f x).map Prod.snd := by
  have hother : forall y, keyOf y ≠ keyOf x -> valuesOf (f y) (keyOf x) = [] := by
    intro y hne
    apply valuesOf_eq_nil
    intro hmem
    rcases List.mem_map.mp hmem with ⟨entry, hentry, hkey⟩
    exact hne ((hkeys y entry hentry).symm.trans hkey)
  have hself : valuesOf (f x) (keyOf x) = (f x).map Prod.snd := by
    unfold valuesOf
    rw [List.filter_eq_self.mpr]
    intro entry hentry
    exact decide_eq_true (hkeys x entry hentry)
  rcases List.append_of_mem hx with ⟨front, back, rfl⟩
  rw [List.map_append, List.map_cons, List.nodup_middle, List.nodup_cons] at hnodup
  have hnone : forall ys : List source, (forall y, y ∈ ys -> y ∈ front ∨ y ∈ back) ->
      ys.flatMap (fun y => valuesOf (f y) (keyOf x)) = [] := by
    intro ys hys
    rw [List.flatMap_eq_nil_iff]
    intro y hy
    apply hother
    intro heq
    apply hnodup.left
    rw [← heq, ← List.map_append]
    exact List.mem_map_of_mem (List.mem_append.mpr (hys y hy))
  rw [valuesOf_flatMap, List.flatMap_append, List.flatMap_cons, hself,
    hnone front (fun y hy => Or.inl hy), hnone back (fun y hy => Or.inr hy),
    List.nil_append, List.append_nil]

/-- Two lists of such entries agree exactly when each element gives the same values. -/
theorem flatMap_perm_iff {source : Type} {f g : source -> List (key × value)}
    {keyOf : source -> key} (hf : forall x entry, entry ∈ f x -> entry.1 = keyOf x)
    (hg : forall x entry, entry ∈ g x -> entry.1 = keyOf x) {xs : List source}
    (hnodup : (xs.map keyOf).Nodup) :
    (xs.flatMap f).Perm (xs.flatMap g) <->
      forall x, x ∈ xs -> (f x).Perm (g x) := by
  have hown : forall (h : source -> List (key × value)),
      (forall x entry, entry ∈ h x -> entry.1 = keyOf x) -> forall x,
        h x = ((h x).map Prod.snd).map (fun v => (keyOf x, v)) := by
    intro h hh x
    rw [List.map_map]
    conv_lhs => rw [← List.map_id (h x)]
    apply List.map_congr_left
    intro entry hentry
    exact Prod.ext (hh x entry hentry) rfl
  constructor
  · intro hperm x hx
    have hvalues := (hperm.filter (fun entry => entry.1 = keyOf x)).map Prod.snd
    change (valuesOf (xs.flatMap f) (keyOf x)).Perm (valuesOf (xs.flatMap g) (keyOf x))
      at hvalues
    rw [valuesOf_flatMap_own hf hnodup hx, valuesOf_flatMap_own hg hnodup hx] at hvalues
    rw [hown f hf x, hown g hg x]
    exact hvalues.map _
  · intro hall
    exact List.Perm.flatMap_left xs hall

theorem sum_flatMap {source : Type} (weight : value -> Int) (f : source -> List value)
    (xs : List source) :
    ((xs.flatMap f).map weight).sum = (xs.map (fun x => ((f x).map weight).sum)).sum := by
  induction xs with
  | nil => rfl
  | cons x rest ih =>
      rw [List.flatMap_cons, List.map_append, List.sum_append, List.map_cons, List.sum_cons, ih]

theorem flatMap_sublist {source : Type} {f g : source -> List value}
    (h : forall x, (f x).Sublist (g x)) (xs : List source) :
    (xs.flatMap f).Sublist (xs.flatMap g) := by
  induction xs with
  | nil => exact List.Sublist.refl _
  | cons x rest ih =>
      rw [List.flatMap_cons, List.flatMap_cons]
      exact List.Sublist.append (h x) ih

/-!
## Lists per key
-/

/-- The list of a key; an absent key has the empty one. -/
def listAt (d : Dict key (List value)) (k : key) : List value :=
  (d.get? k).getD []

def push (d : Dict key (List value)) (k : key) (v : value) : Dict key (List value) :=
  d.set k (d.listAt k ++ [v])

def pushAll (d : Dict key (List value)) (entries : List (key × value)) :
    Dict key (List value) :=
  entries.foldl (fun acc entry => acc.push entry.1 entry.2) d

theorem listAt_push (d : Dict key (List value)) (k : key) (v : value) (j : key) :
    (d.push k v).listAt j = if k = j then d.listAt j ++ [v] else d.listAt j := by
  unfold push listAt
  rw [get?_set]
  by_cases h : j = k
  · rw [if_pos h, if_pos h.symm, h]
    rfl
  · rw [if_neg h, if_neg (Ne.symm h)]

theorem listAt_pushAll (entries : List (key × value)) (k : key) :
    forall d : Dict key (List value),
      (d.pushAll entries).listAt k = d.listAt k ++ valuesOf entries k := by
  induction entries with
  | nil =>
      intro d
      exact (List.append_nil _).symm
  | cons entry rest ih =>
      intro d
      change ((d.push entry.1 entry.2).pushAll rest).listAt k = _
      rw [ih, listAt_push, valuesOf_cons]
      by_cases h : entry.1 = k
      · rw [if_pos h, if_pos h, List.append_assoc]
        rfl
      · rw [if_neg h, if_neg h]

theorem listAt_mapValues (d : Dict key (List value)) {f : List value -> List value}
    (hf : f [] = []) (k : key) : (d.mapValues f).listAt k = f (d.listAt k) := by
  unfold listAt
  rw [get?_mapValues]
  cases d.get? k with
  | none => exact hf.symm
  | some values => rfl

/-!
## Sums per key
-/

def addTo (d : Dict key Int) (k : key) (n : Int) : Dict key Int :=
  d.set k ((d.get? k).getD 0 + n)

def tally (entries : List (key × Int)) : Dict key Int :=
  entries.foldl (fun acc entry => acc.addTo entry.1 entry.2) empty

theorem foldl_addTo (entries : List (key × Int)) (k : key) :
    forall d : Dict key Int,
      (entries.foldl (fun acc entry => acc.addTo entry.1 entry.2) d).get? k =
        if k ∈ entries.map Prod.fst then
          some ((d.get? k).getD 0 + (valuesOf entries k).sum)
        else d.get? k := by
  induction entries with
  | nil =>
      intro d
      rfl
  | cons entry rest ih =>
      intro d
      rw [List.foldl_cons, ih, addTo, get?_set, valuesOf_cons, List.map_cons]
      by_cases h : k = entry.1
      · subst h
        simp only [if_true, List.mem_cons, true_or, Option.getD_some, List.sum_cons]
        by_cases hrest : entry.1 ∈ rest.map Prod.fst
        · rw [if_pos hrest, Int.add_assoc]
        · rw [if_neg hrest, valuesOf_eq_nil hrest, List.sum_nil, Int.add_zero]
      · have hne : ¬ entry.1 = k := Ne.symm h
        simp only [h, hne, if_false, List.mem_cons, false_or]

/-- The sum of a key is that of its entries, and a key without entries has none. -/
theorem get?_tally (entries : List (key × Int)) (k : key) :
    (tally entries).get? k =
      if k ∈ entries.map Prod.fst then some (valuesOf entries k).sum else none := by
  unfold tally
  rw [foldl_addTo, get?_empty]
  simp only [Option.getD_none, Int.zero_add]

end Dict
end Foundation
end PyChain
