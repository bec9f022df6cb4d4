import Mathlib.Data.List.Nodup
import Mathlib.Data.List.Sort
import PyChain.Foundation.Raising

/-!
# Tables with constraints

A table is a list of rows.  Its schema says which values can be bound, which
rows pass their checks and which pairs of rows share a unique key.  Inserting
rows one by one succeeds exactly when the whole table stays consistent.
-/

namespace PyChain
namespace Foundation

structure TableSchema (row : Type) where
  binds : row -> Bool
  check : row -> Bool
  clash : row -> row -> Bool

namespace TableSchema

variable {row error : Type} (schema : TableSchema row)

/-- Every row passes its checks and no two rows share a unique key. -/
def consistent : List row -> Bool
  | [] => true
  | r :: rest =>
      schema.check r && rest.all (fun other => !schema.clash r other) && consistent rest

def admits (rows : List row) (r : row) : Bool :=
  schema.check r && rows.all (fun other => !schema.clash other r)

/-- Insert one row, raising one error for a value that cannot be bound and
another for a violated constraint. -/
def insertRow (overflow rejected : error) (rows : List row) (r : row) :
    Except error (List row) :=
  if schema.binds r = false then .error overflow
  else if schema.admits rows r = false then .error rejected
  else .ok (rows ++ [r])

theorem consistent_iff (rows : List row) :
    schema.consistent rows = true <->
      (forall r, r ∈ rows -> schema.check r = true) ∧
        rows.Pairwise (fun r other => schema.clash r other = false) := by
  induction rows with
  | nil => simp [consistent]
  | cons r rest ih =>
      rw [List.pairwise_cons, List.forall_mem_cons]
      simp only [consistent, Bool.and_eq_true, ih, List.all_eq_true, Bool.not_eq_true']
      constructor
      · intro h
        exact ⟨⟨h.left.left, h.right.left⟩, h.left.right, h.right.right⟩
      · intro h
        exact ⟨⟨h.left.left, h.right.left⟩, h.left.right, h.right.right⟩

/-- The order of the rows does not matter when clashes are symmetric. -/
theorem consistent_perm {rows others : List row}
    (hsymm : forall r other, schema.clash r other = schema.clash other r)
    (h : rows.Perm others) :
    schema.consistent rows = true <-> schema.consistent others = true := by
  rw [consistent_iff, consistent_iff, h.pairwise_iff]
  · constructor
    · intro hall
      exact ⟨fun r hr => hall.left r (h.mem_iff.mpr hr), hall.right⟩
    · intro hall
      exact ⟨fun r hr => hall.left r (h.mem_iff.mp hr), hall.right⟩
  · intro r other hclash
    rw [hsymm]
    exact hclash

theorem insertRow_eq_ok_iff {overflow rejected : error} {rows out : List row} {r : row}
    (h : schema.consistent rows = true) :
    schema.insertRow overflow rejected rows r = .ok out <->
      out = rows ++ [r] ∧ schema.binds r = true ∧
        schema.consistent (rows ++ [r]) = true := by
  have hadmits : schema.admits rows r = true <->
      schema.consistent (rows ++ [r]) = true := by
    rw [consistent_iff] at h ⊢
    unfold admits
    rw [Bool.and_eq_true, List.all_eq_true, List.pairwise_append]
    constructor
    · intro hr
      constructor
      · intro other hother
        rcases List.mem_append.mp hother with hold | hnew
        · exact h.left other hold
        · rw [List.mem_singleton.mp hnew]
          exact hr.left
      · refine ⟨h.right, List.pairwise_singleton _ _, ?_⟩
        intro other hother last hlast
        rw [List.mem_singleton.mp hlast]
        simpa using hr.right other hother
    · intro hall
      constructor
      · exact hall.left r (List.mem_append_right _ List.mem_cons_self)
      · intro other hother
        simpa using hall.right.right.right other hother r List.mem_cons_self
  unfold insertRow
  cases hbinds : schema.binds r with
  | false => simp
  | true =>
      cases hrow : schema.admits rows r with
      | false => simp [← hadmits, hrow]
      | true => simp [hadmits.mp hrow, eq_comm]

theorem insertRows_eq_ok_iff {overflow rejected : error} (new : List row) :
    forall (rows out : List row), schema.consistent rows = true ->
      (new.foldlM (schema.insertRow overflow rejected) rows = .ok out <->
        out = rows ++ new ∧ (forall r, r ∈ new -> schema.binds r = true) ∧
          schema.consistent (rows ++ new) = true) := by
  induction new with
  | nil =>
      intro rows out h
      simp only [List.foldlM_nil, List.append_nil, h, List.not_mem_nil, false_implies,
        implies_true, and_true]
      constructor
      · intro heq
        exact (Except.ok.inj heq).symm
      · intro heq
        rw [heq]
        rfl
  | cons r rest ih =>
      intro rows out h
      have happend : rows ++ r :: rest = (rows ++ [r]) ++ rest := by
        simp
      rw [foldlM_cons_eq_ok_iff, List.forall_mem_cons, happend]
      constructor
      · intro hok
        rcases hok with ⟨next, hnext, hrest⟩
        rcases (schema.insertRow_eq_ok_iff h).mp hnext with ⟨heq, hbinds, hconsistent⟩
        subst heq
        rcases (ih _ _ hconsistent).mp hrest with ⟨hout, hall, hfinal⟩
        exact ⟨hout, ⟨hbinds, hall⟩, hfinal⟩
      · intro hok
        rcases hok with ⟨hout, ⟨hbinds, hall⟩, hfinal⟩
        have hconsistent : schema.consistent (rows ++ [r]) = true := by
          rw [consistent_iff] at hfinal ⊢
          constructor
          · intro other hother
            exact hfinal.left other (List.mem_append_left _ hother)
          · exact (List.pairwise_append.mp hfinal.right).left
        exact ⟨_, (schema.insertRow_eq_ok_iff h).mpr ⟨rfl, hbinds, hconsistent⟩,
          (ih _ _ hconsistent).mpr ⟨hout, hall, hfinal⟩⟩

/-- A batch of insertions into an empty table. -/
theorem insertRows_nil_eq_ok_iff {overflow rejected : error} (new out : List row) :
    new.foldlM (schema.insertRow overflow rejected) [] = .ok out <->
      out = new ∧ (forall r, r ∈ new -> schema.binds r = true) ∧
        schema.consistent new = true :=
  schema.insertRows_eq_ok_iff new [] out rfl

end TableSchema

/-!
## Ordered reading
-/

section Ordered

variable {row item : Type}

/-- The rows in increasing order of an integer column. -/
def orderBy (key : row -> Int) (rows : List row) : List row :=
  rows.insertionSort (fun a b => key a ≤ key b)

theorem orderBy_perm (key : row -> Int) (rows : List row) :
    (orderBy key rows).Perm rows :=
  List.perm_insertionSort _ rows

/-- Rows built from items and their positions. -/
def numbered (build : Int -> item -> row) (start : Int) : List item -> List row
  | [] => []
  | x :: rest => build start x :: numbered build (start + 1) rest

theorem numbered_append (build : Int -> item -> row) (items : List item) (x : item) :
    forall start, numbered build start (items ++ [x]) =
      numbered build start items ++ [build (start + items.length) x] := by
  induction items with
  | nil =>
      intro start
      simp [numbered]
  | cons y rest ih =>
      intro start
      have hsum : start + 1 + (rest.length : Int) = start + ((y :: rest).length : Int) := by
        rw [List.length_cons]
        omega
      rw [List.cons_append, numbered, ih, numbered, hsum, List.cons_append]

theorem numbered_map {other : Type} {build : Int -> item -> row} {f : row -> other}
    {g : item -> other} (h : forall i x, f (build i x) = g x) (items : List item) :
    forall start, (numbered build start items).map f = items.map g := by
  induction items with
  | nil =>
      intro start
      rfl
  | cons x rest ih =>
      intro start
      rw [numbered, List.map_cons, List.map_cons, h, ih]

theorem numbered_length (build : Int -> item -> row) (items : List item) :
    forall start, (numbered build start items).length = items.length := by
  induction items with
  | nil =>
      intro start
      rfl
  | cons x rest ih =>
      intro start
      rw [numbered, List.length_cons, List.length_cons, ih]

theorem mem_numbered {build : Int -> item -> row} {items : List item} {r : row} :
    forall {start}, r ∈ numbered build start items ->
      exists i x, start ≤ i ∧ i < start + items.length ∧ x ∈ items ∧ r = build i x := by
  induction items with
  | nil =>
      intro start h
      cases h
  | cons y rest ih =>
      intro start h
      rw [List.length_cons]
      rcases List.mem_cons.mp h with heq | hmem
      · exact ⟨start, y, by omega, by omega, List.mem_cons_self, heq⟩
      · rcases ih hmem with ⟨i, x, hlow, hhigh, hx, heq⟩
        exact ⟨i, x, by omega, by omega, List.mem_cons_of_mem _ hx, heq⟩

theorem numbered_pairwise {build : Int -> item -> row} {key : row -> Int}
    (hkey : forall i x, key (build i x) = i) (items : List item) :
    forall start, (numbered build start items).Pairwise (fun a b => key a < key b) := by
  induction items with
  | nil =>
      intro start
      exact List.Pairwise.nil
  | cons x rest ih =>
      intro start
      rw [numbered, List.pairwise_cons]
      refine ⟨?_, ih (start + 1)⟩
      intro r hr
      rcases mem_numbered hr with ⟨i, y, hlow, _, _, heq⟩
      rw [heq, hkey, hkey]
      omega

/-- Rows with distinct positions are read in the order of their positions,
however they are stored. -/
theorem orderBy_eq_numbered {build : Int -> item -> row} {key : row -> Int}
    (hkey : forall i x, key (build i x) = i) {start : Int} {items : List item}
    {rows : List row} (h : rows.Perm (numbered build start items)) :
    orderBy key rows = numbered build start items := by
  have hstrict := numbered_pairwise hkey items start
  have hsorted : (numbered build start items).Pairwise (fun a b => key a ≤ key b) :=
    hstrict.imp (fun hlt => Int.le_of_lt hlt)
  have hperm : (orderBy key rows).Perm (numbered build start items) :=
    (orderBy_perm key rows).trans h
  have hordered : (orderBy key rows).Pairwise (fun a b => key a ≤ key b) := by
    have htotal : Std.Total (fun a b : row => key a ≤ key b) :=
      ⟨fun a b => Int.le_total (key a) (key b)⟩
    have htrans : IsTrans row (fun a b => key a ≤ key b) :=
      ⟨fun a b c => Int.le_trans⟩
    exact List.pairwise_insertionSort _ _
  apply hperm.eq_of_pairwise _ hordered hsorted
  intro a b ha hb hab hba
  have hnodup : ((numbered build start items).map key).Nodup :=
    List.pairwise_map.mpr (hstrict.imp (fun hlt => Int.ne_of_lt hlt))
  exact List.inj_on_of_nodup_map hnodup (hperm.mem_iff.mp ha) hb (Int.le_antisymm hab hba)

/-- A loop over `enumerate`. -/
def mapNumbered {error : Type} (read : Int -> row -> Except error item) :
    Int -> List row -> Except error (List item)
  | _, [] => .ok []
  | expected, r :: rest => do
      let x <- read expected r
      let items <- mapNumbered read (expected + 1) rest
      return x :: items

theorem mapNumbered_eq_ok_iff {error : Type} {read : Int -> row -> Except error item}
    {build : Int -> item -> row} {P : item -> Prop}
    (hread : forall i r x, read i r = .ok x <-> r = build i x ∧ P x) (rows : List row) :
    forall (expected : Int) (items : List item),
      mapNumbered read expected rows = .ok items <->
        rows = numbered build expected items ∧ forall x, x ∈ items -> P x := by
  induction rows with
  | nil =>
      intro expected items
      cases items with
      | nil => simp [mapNumbered, numbered]
      | cons x rest => simp [mapNumbered, numbered]
  | cons r rest ih =>
      intro expected items
      rw [mapNumbered]
      simp only [bind_eq_ok_iff, hread, ih]
      constructor
      · intro h
        rcases h with ⟨x, ⟨hr, hx⟩, others, ⟨hrest, hothers⟩, heq⟩
        have hitems : x :: others = items := Except.ok.inj heq
        subst hitems
        rw [numbered, hr, hrest]
        exact ⟨rfl, List.forall_mem_cons.mpr ⟨hx, hothers⟩⟩
      · intro h
        rcases h with ⟨hrows, hall⟩
        cases items with
        | nil => cases hrows
        | cons x others =>
            rw [numbered] at hrows
            have hparts := List.cons.inj hrows
            rcases List.forall_mem_cons.mp hall with ⟨hx, hothers⟩
            exact ⟨x, ⟨hparts.left, hx⟩, others, ⟨hparts.right, hothers⟩, rfl⟩

/-- A loop that builds a row for every item. -/
theorem mapNumbered_build_eq_ok_iff {error : Type} {write : Int -> item -> Except error row}
    {build : Int -> item -> row} {P : item -> Prop}
    (hwrite : forall i x r, write i x = .ok r <-> r = build i x ∧ P x)
    (items : List item) :
    forall (start : Int) (rows : List row),
      mapNumbered write start items = .ok rows <->
        rows = numbered build start items ∧ forall x, x ∈ items -> P x := by
  induction items with
  | nil =>
      intro start rows
      simp [mapNumbered, numbered, eq_comm]
  | cons x rest ih =>
      intro start rows
      rw [mapNumbered, List.forall_mem_cons]
      simp only [bind_eq_ok_iff, hwrite, ih]
      constructor
      · intro h
        rcases h with ⟨r, ⟨hr, hx⟩, others, ⟨hothers, hrest⟩, heq⟩
        have hrows : r :: others = rows := Except.ok.inj heq
        rw [← hrows, hr, hothers]
        exact ⟨rfl, hx, hrest⟩
      · intro h
        rcases h with ⟨hrows, hx, hrest⟩
        exact ⟨_, ⟨rfl, hx⟩, _, ⟨rfl, hrest⟩, congrArg Except.ok hrows.symm⟩

theorem raises_mapNumbered {error : Type} {kind : error -> Prop}
    {read : Int -> row -> Except error item} (h : forall i r, Raises kind (read i r))
    (rows : List row) : forall start, Raises kind (mapNumbered read start rows) := by
  induction rows with
  | nil =>
      intro start
      exact raises_ok []
  | cons r rest ih =>
      intro start
      exact raises_bind (h start r)
        (fun _ _ => raises_bind (ih (start + 1)) (fun _ _ => raises_ok _))

end Ordered

end Foundation
end PyChain
