import Mathlib.Data.List.Induction
import Mathlib.Data.List.Pairwise
import PyChain.Foundation.Dict

/-!
# Ledgers of unspent outputs

A posting consumes some slots of a ledger and creates new ones under its own
identifier.  This module is the general theory of replaying postings: the
effect of one posting, the closed form of a whole history, and the value
accounting.  Identifiers, output values and weights are arbitrary.
-/

namespace PyChain
namespace Foundation

/-- A posting names the slots it consumes and lists the values it creates. -/
structure Posting (ref value : Type) where
  ident : ref
  spends : List (ref × Int)
  outputs : List value

namespace Posting

variable {ref value : Type}

/-- The slots a posting creates: its identifier paired with the output index. -/
def created (p : Posting ref value) : List ((ref × Int) × value) :=
  p.outputs.zipIdx.map (fun output => ((p.ident, (output.2 : Int)), output.1))

theorem mem_created (p : Posting ref value) (k : ref × Int) (v : value) :
    (k, v) ∈ p.created <->
      k.1 = p.ident ∧ exists i : Nat, k.2 = (i : Int) ∧ p.outputs[i]? = some v := by
  unfold created
  simp only [List.mem_map, Prod.exists, Prod.mk.injEq]
  constructor
  · intro h
    rcases h with ⟨w, i, hmem, hk, hw⟩
    subst hk
    subst hw
    constructor
    · rfl
    · exists i
      constructor
      · rfl
      · exact List.mk_mem_zipIdx_iff_getElem?.mp hmem
  · intro h
    rcases h with ⟨hident, i, hi, hget⟩
    exists v, i
    constructor
    · exact List.mk_mem_zipIdx_iff_getElem?.mpr hget
    constructor
    · exact Prod.ext hident.symm hi.symm
    · rfl

theorem created_ident {p : Posting ref value}
    {entry : (ref × Int) × value} (h : entry ∈ p.created) :
    entry.1.1 = p.ident :=
  ((mem_created p entry.1 entry.2).mp h).left

theorem created_nodup (p : Posting ref value) :
    (p.created.map Prod.fst).Nodup := by
  unfold created
  rw [List.map_map]
  have hindices :
      p.outputs.zipIdx.map
          (Prod.fst ∘ fun output => ((p.ident, (output.2 : Int)), output.1)) =
        (p.outputs.zipIdx.map Prod.snd).map
          (fun i : Nat => (p.ident, (i : Int))) := by
    rw [List.map_map]
    rfl
  rw [hindices, List.zipIdx_map_snd]
  apply List.Nodup.map
  · intro i j hij
    have hsnd : (i : Int) = (j : Int) := congrArg Prod.snd hij
    omega
  · exact List.nodup_range'

theorem created_weights (weight : value -> Int) (p : Posting ref value) :
    p.created.map (fun entry => weight entry.2) = p.outputs.map weight := by
  unfold created
  rw [List.map_map]
  have hvalues :
      p.outputs.zipIdx.map
          ((fun entry => weight entry.2) ∘
            fun output => ((p.ident, (output.2 : Int)), output.1)) =
        (p.outputs.zipIdx.map Prod.fst).map weight := by
    rw [List.map_map]
    rfl
  rw [hvalues, List.zipIdx_map_fst]

end Posting

namespace OutputLedger

variable {ref value : Type} [DecidableEq ref]

/-- The state of a ledger: its unspent slots. -/
abbrev Ledger (ref value : Type) : Type :=
  Dict (ref × Int) value

/-- A posting applies when it spends distinct present slots and its own slots
are unused. -/
def Applies (d : Ledger ref value) (p : Posting ref value) : Prop :=
  p.spends.Nodup ∧
    (forall k, k ∈ p.spends -> k ∈ d.keys) ∧
    (forall entry, entry ∈ p.created -> entry.1 ∉ d.keys)

/-- Remove the consumed slots, then add the created ones. -/
def post (d : Ledger ref value) (p : Posting ref value) :
    Ledger ref value :=
  (d.eraseAll p.spends).update p.created

/-!
## One posting
-/

theorem created_fresh_after_erase {d : Ledger ref value}
    {p : Posting ref value} (h : Applies d p) :
    forall entry, entry ∈ p.created -> entry.1 ∉ (d.eraseAll p.spends).keys := by
  intro entry hentry hmem
  rcases Dict.exists_get?_of_mem_keys hmem with ⟨v, hv⟩
  rw [Dict.get?_eraseAll] at hv
  by_cases hspent : entry.1 ∈ p.spends
  · rw [if_pos hspent] at hv
    cases hv
  · rw [if_neg hspent] at hv
    exact h.right.right entry hentry (Dict.mem_keys_of_get? hv)

theorem post_get? {d : Ledger ref value} {p : Posting ref value}
    (h : Applies d p) (k : ref × Int) (v : value) :
    (post d p).get? k = some v <->
      (k, v) ∈ p.created ∨ (d.get? k = some v ∧ k ∉ p.spends) := by
  rw [Dict.get?_eq_some_iff]
  unfold post
  rw [Dict.items_update_of_fresh _ _ p.created_nodup (created_fresh_after_erase h),
    List.mem_append, ← Dict.get?_eq_some_iff, Dict.get?_eraseAll]
  by_cases hspent : k ∈ p.spends
  · simp [hspent]
  · simp [hspent, or_comm]

theorem post_total (weight : value -> Int) {d : Ledger ref value}
    {p : Posting ref value} (h : Applies d p) :
    (post d p).total weight + (p.spends.map (d.weightAt weight)).sum =
      d.total weight + (p.outputs.map weight).sum := by
  have herase := Dict.total_eraseAll weight h.left h.right.left
  have hupdate :=
    Dict.total_update_of_fresh weight (d.eraseAll p.spends) p.created
      p.created_nodup (created_fresh_after_erase h)
  rw [Posting.created_weights] at hupdate
  unfold post
  omega

/-!
## Histories

A run applies a list of postings one after the other.  The relation keeps the
intermediate ledgers implicit; its two constructors match the recursion of the
code that replays a list.
-/

inductive Replay : Ledger ref value -> List (Posting ref value) ->
    Ledger ref value -> Prop where
  | nil (d : Ledger ref value) : Replay d [] d
  | cons {d e : Ledger ref value} {p : Posting ref value}
      {rest : List (Posting ref value)} :
      Applies d p -> Replay (post d p) rest e -> Replay d (p :: rest) e

theorem replay_append {d e f : Ledger ref value}
    {xs ys : List (Posting ref value)}
    (hxs : Replay d xs e) (hys : Replay e ys f) :
    Replay d (xs ++ ys) f := by
  induction hxs with
  | nil _ => exact hys
  | cons happly _ ih => exact Replay.cons happly (ih hys)

theorem replay_append_split {d f : Ledger ref value}
    {xs ys : List (Posting ref value)} (h : Replay d (xs ++ ys) f) :
    exists e, Replay d xs e ∧ Replay e ys f := by
  induction xs generalizing d with
  | nil =>
      exists d
      exact ⟨Replay.nil d, h⟩
  | cons p rest ih =>
      cases h with
      | cons happly hrest =>
          rcases ih hrest with ⟨e, hxs, hys⟩
          exact ⟨e, Replay.cons happly hxs, hys⟩

theorem replay_singleton_inv {d e : Ledger ref value}
    {p : Posting ref value} (h : Replay d [p] e) :
    Applies d p ∧ e = post d p := by
  cases h with
  | cons happly hrest =>
      cases hrest with
      | nil _ => exact ⟨happly, rfl⟩

theorem replay_deterministic {d e f : Ledger ref value}
    {xs : List (Posting ref value)}
    (he : Replay d xs e) (hf : Replay d xs f) : e = f := by
  induction he with
  | nil _ =>
      cases hf
      rfl
  | cons _ _ ih =>
      cases hf with
      | cons _ hrest => exact ih hrest

def createdBy (history : List (Posting ref value)) :
    List ((ref × Int) × value) :=
  history.flatMap Posting.created

def spentBy (history : List (Posting ref value)) : List (ref × Int) :=
  history.flatMap Posting.spends

/-- Identifiers of a history are new: pairwise distinct, and none of them names
a slot of the ledger the history starts from. -/
structure FreshIdents (base : Ledger ref value)
    (history : List (Posting ref value)) : Prop where
  nodup : (history.map Posting.ident).Nodup
  fresh : forall p, p ∈ history -> forall k, k ∈ base.keys -> k.1 ≠ p.ident

omit [DecidableEq ref] in
theorem FreshIdents.of_append_left {base : Ledger ref value}
    {xs ys : List (Posting ref value)} (h : FreshIdents base (xs ++ ys)) :
    FreshIdents base xs where
  nodup := by
    have hnodup := h.nodup
    rw [List.map_append] at hnodup
    exact List.Nodup.of_append_left hnodup
  fresh := by
    intro p hp
    exact h.fresh p (List.mem_append_left ys hp)

/-- The closed form of a replayed history: slots are spent at most once, the
ledger is exactly what was created and not spent, and every spent slot existed
before the posting that spends it. -/
structure Exact (base : Ledger ref value)
    (history : List (Posting ref value)) (d : Ledger ref value) : Prop where
  spends_nodup : (spentBy history).Nodup
  get?_iff : forall k v, d.get? k = some v <->
    (base.get? k = some v ∨ (k, v) ∈ createdBy history) ∧ k ∉ spentBy history
  provenance : forall before p after, history = before ++ p :: after ->
    forall k, k ∈ p.spends ->
      k ∈ base.keys ∨ exists v, (k, v) ∈ createdBy before

theorem spentBy_ident {base : Ledger ref value}
    {history : List (Posting ref value)} {d : Ledger ref value}
    (h : Exact base history d) {k : ref × Int} (hk : k ∈ spentBy history) :
    k ∈ base.keys ∨ exists q, q ∈ history ∧ q.ident = k.1 := by
  rcases List.mem_flatMap.mp hk with ⟨p, hp, hkp⟩
  rcases List.append_of_mem hp with ⟨before, after, hsplit⟩
  rcases h.provenance before p after hsplit k hkp with hbase | hcreated
  · exact Or.inl hbase
  · rcases hcreated with ⟨v, hv⟩
    rcases List.mem_flatMap.mp hv with ⟨q, hq, hkq⟩
    apply Or.inr
    exists q
    constructor
    · rw [hsplit]
      exact List.mem_append_left _ hq
    · exact (Posting.created_ident hkq).symm

theorem exact_nil (base : Ledger ref value) :
    Exact base [] base where
  spends_nodup := List.nodup_nil
  get?_iff := by
    intro k v
    simp [createdBy, spentBy]
  provenance := by
    intro before p after h
    simp at h

theorem Exact.spends_known {base d : Ledger ref value}
    {history : List (Posting ref value)} {p : Posting ref value}
    (h : Exact base history d) (happly : Applies d p) {k : ref × Int} (hk : k ∈ p.spends) :
    k ∉ spentBy history ∧ (k ∈ base.keys ∨ exists v, (k, v) ∈ createdBy history) := by
  rcases Dict.exists_get?_of_mem_keys (happly.right.left k hk) with ⟨v, hv⟩
  rcases (h.get?_iff k v).mp hv with ⟨horigin, hunspent⟩
  constructor
  · exact hunspent
  · rcases horigin with hbase | hcreated
    · exact Or.inl (Dict.mem_keys_of_get? hbase)
    · exact Or.inr ⟨v, hcreated⟩

omit [DecidableEq ref] in
theorem FreshIdents.last_new {base : Ledger ref value}
    {history : List (Posting ref value)} {p : Posting ref value}
    (hfresh : FreshIdents base (history ++ [p])) {k : ref × Int}
    (hk : k ∈ base.keys ∨ exists q, q ∈ history ∧ q.ident = k.1) : k.1 ≠ p.ident := by
  have hidents := hfresh.nodup
  rw [List.map_append, List.nodup_append] at hidents
  rcases hk with hbase | hhistory
  · exact hfresh.fresh p (List.mem_append_right history List.mem_cons_self) k hbase
  · rcases hhistory with ⟨q, hq, hqk⟩
    rw [← hqk]
    exact hidents.right.right q.ident (List.mem_map.mpr ⟨q, hq, rfl⟩) p.ident (by simp)

theorem Exact.created_unspent {base d : Ledger ref value}
    {history : List (Posting ref value)} {p : Posting ref value}
    (h : Exact base history d) (hfresh : FreshIdents base (history ++ [p]))
    (happly : Applies d p) {k : ref × Int} {v : value} (hkv : (k, v) ∈ p.created) :
    k ∉ spentBy history ++ p.spends := by
  intro hmem
  have hident : k.1 = p.ident := Posting.created_ident hkv
  rcases List.mem_append.mp hmem with hold | hnew
  · exact hfresh.last_new (spentBy_ident h hold) hident
  · rcases (h.spends_known happly hnew).right with hbase | hcreated
    · exact hfresh.last_new (Or.inl hbase) hident
    · rcases hcreated with ⟨w, hw⟩
      rcases List.mem_flatMap.mp hw with ⟨q, hq, hkq⟩
      exact hfresh.last_new (Or.inr ⟨q, hq, (Posting.created_ident hkq).symm⟩) hident

theorem exact_snoc {base d : Ledger ref value}
    {history : List (Posting ref value)} {p : Posting ref value}
    (h : Exact base history d)
    (hfresh : FreshIdents base (history ++ [p])) (happly : Applies d p) :
    Exact base (history ++ [p]) (post d p) := by
  have hspentBy : spentBy (history ++ [p]) = spentBy history ++ p.spends := by
    simp [spentBy]
  have hcreatedBy : createdBy (history ++ [p]) = createdBy history ++ p.created := by
    simp [createdBy]
  constructor
  · rw [hspentBy, List.nodup_append]
    constructor
    · exact h.spends_nodup
    constructor
    · exact happly.left
    · intro a ha b hb heq
      subst heq
      exact (h.spends_known happly hb).left ha
  · intro k v
    rw [post_get? happly, h.get?_iff, hcreatedBy, hspentBy, List.mem_append]
    constructor
    · intro hcase
      rcases hcase with hcreated | hold
      · exact ⟨Or.inr (Or.inr hcreated), h.created_unspent hfresh happly hcreated⟩
      · constructor
        · rcases hold.left.left with hbase | hcreated
          · exact Or.inl hbase
          · exact Or.inr (Or.inl hcreated)
        · intro hmem
          rcases List.mem_append.mp hmem with hspent | hspent
          · exact hold.left.right hspent
          · exact hold.right hspent
    · intro hcase
      rcases hcase with ⟨horigin, hunspent⟩
      have hhistory : k ∉ spentBy history := by
        intro hmem
        exact hunspent (List.mem_append_left _ hmem)
      have hlast : k ∉ p.spends := by
        intro hmem
        exact hunspent (List.mem_append_right _ hmem)
      rcases horigin with hbase | hcreated | hcreated
      · exact Or.inr ⟨⟨Or.inl hbase, hhistory⟩, hlast⟩
      · exact Or.inr ⟨⟨Or.inr hcreated, hhistory⟩, hlast⟩
      · exact Or.inl hcreated
  · intro before q after hsplit k hk
    rcases List.eq_nil_or_concat after with hafter | hafter
    · subst hafter
      have hpair := List.append_inj_right' hsplit rfl
      have hbefore := List.append_inj_left' hsplit rfl
      have hpq : p = q := by
        simpa using hpair
      subst hpq
      rw [← hbefore]
      exact (h.spends_known happly hk).right
    · rcases hafter with ⟨front, last, hafter⟩
      subst hafter
      have hassoc : history ++ [p] = (before ++ q :: front) ++ [last] := by
        rw [hsplit]
        simp
      have hbefore := List.append_inj_left' hassoc rfl
      exact h.provenance before q front hbefore k hk

/-- Replaying a history with fresh identifiers reaches its closed form. -/
theorem replay_exact {base d : Ledger ref value}
    {history : List (Posting ref value)}
    (hfresh : FreshIdents base history) (hreplay : Replay base history d) :
    Exact base history d := by
  induction history using List.reverseRecOn generalizing d with
  | nil =>
      cases hreplay
      exact exact_nil base
  | append_singleton front p ih =>
      rcases replay_append_split hreplay with ⟨e, hfront, hlast⟩
      rcases replay_singleton_inv hlast with ⟨happly, hd⟩
      subst hd
      exact exact_snoc (ih hfresh.of_append_left hfront) hfresh happly

/-!
## Value accounting
-/

/-- The weight a posting removes from a ledger: inputs minus outputs. -/
def fee (weight : value -> Int) (d : Ledger ref value)
    (p : Posting ref value) : Int :=
  (p.spends.map (d.weightAt weight)).sum - (p.outputs.map weight).sum

/-- The fees of a list of postings, each computed just before it is posted. -/
def fees (weight : value -> Int) :
    List (Posting ref value) -> Ledger ref value -> List Int
  | [], _ => []
  | p :: rest, d => fee weight d p :: fees weight rest (post d p)

theorem replay_total (weight : value -> Int) {d e : Ledger ref value}
    {history : List (Posting ref value)} (h : Replay d history e) :
    e.total weight = d.total weight - (fees weight history d).sum := by
  induction h with
  | nil d =>
      simp [fees]
  | @cons d e p rest happly _hrest ih =>
      have hpost := post_total weight happly
      unfold fees fee
      rw [List.sum_cons, ih]
      omega

theorem replay_values {P : value -> Prop} {d e : Ledger ref value}
    {history : List (Posting ref value)} (h : Replay d history e)
    (hbase : forall k v, d.get? k = some v -> P v)
    (houtputs : forall p, p ∈ history -> forall v, v ∈ p.outputs -> P v) :
    forall k v, e.get? k = some v -> P v := by
  induction h with
  | nil _ =>
      exact hbase
  | @cons d e p rest happly _hrest ih =>
      apply ih
      · intro k v hget
        rcases (post_get? happly k v).mp hget with hcreated | hold
        · rcases (Posting.mem_created p k v).mp hcreated with ⟨_, i, _, hi⟩
          exact houtputs p List.mem_cons_self v (List.mem_of_getElem? hi)
        · exact hbase k v hold.left
      · intro q hq
        exact houtputs q (List.mem_cons_of_mem p hq)

/-!
## Parts of a ledger

A part that a posting neither spends from nor adds to stays as it was.  What is spent
is known by a property of the slots, which created slots have as well.
-/

theorem filter_eraseAll {d : Ledger ref value} {keep : (ref × Int) × value -> Bool}
    {ks : List (ref × Int)}
    (h : forall k v, k ∈ ks -> d.get? k = some v -> keep (k, v) = false) :
    (d.eraseAll ks).filter keep = d.filter keep := by
  induction ks generalizing d with
  | nil => rfl
  | cons k rest ih =>
      have herase : (d.erase k).filter keep = d.filter keep := by
        apply Dict.ext_items
        change (d.items.filter (fun item => decide (item.1 ≠ k))).filter keep =
          d.items.filter keep
        rw [List.filter_filter]
        apply List.filter_congr
        intro item hitem
        by_cases hkey : item.1 = k
        · have hdropped := h item.1 item.2 (hkey ▸ List.mem_cons_self)
            ((Dict.get?_eq_some_iff d item.1 item.2).mpr hitem)
          simp [hdropped]
        · simp [hkey]
      change ((d.erase k).eraseAll rest).filter keep = _
      rw [ih, herase]
      intro j v hj hget
      rw [Dict.get?_erase] at hget
      split at hget
      · cases hget
      · exact h j v (List.mem_cons_of_mem k hj) hget

theorem filter_post {d : Ledger ref value} {p : Posting ref value} (happly : Applies d p)
    {keep : (ref × Int) × value -> Bool}
    (hspent : forall k v, k ∈ p.spends -> d.get? k = some v -> keep (k, v) = false)
    (hcreated : forall entry, entry ∈ p.created -> keep entry = false) :
    (post d p).filter keep = d.filter keep := by
  have hnothing : p.created.filter keep = [] := by
    rw [List.filter_eq_nil_iff]
    intro entry hentry
    rw [hcreated entry hentry]
    exact Bool.false_ne_true
  rw [← filter_eraseAll hspent]
  apply Dict.ext_items
  unfold post Dict.filter
  simp only
  rw [Dict.items_update_of_fresh _ _ p.created_nodup (created_fresh_after_erase happly),
    List.filter_append, hnothing, List.append_nil]

theorem replay_filter {made : ref × Int -> value -> Prop} {d e : Ledger ref value}
    {keep : (ref × Int) × value -> Bool} {history : List (Posting ref value)}
    (h : Replay d history e) (hbase : forall k v, d.get? k = some v -> made k v)
    (hcreated : forall p, p ∈ history -> forall entry, entry ∈ p.created ->
      made entry.1 entry.2 ∧ keep entry = false)
    (hspent : forall p, p ∈ history -> forall k v, k ∈ p.spends -> made k v ->
      keep (k, v) = false) : e.filter keep = d.filter keep := by
  induction h with
  | nil _ => rfl
  | @cons d e p rest happly _ ih =>
      have hpost := filter_post happly
        (fun k v hk hget => hspent p List.mem_cons_self k v hk (hbase k v hget))
        (fun entry hentry => (hcreated p List.mem_cons_self entry hentry).right)
      rw [← hpost]
      apply ih
      · intro k v hget
        rcases (post_get? happly k v).mp hget with hnew | hold
        · exact (hcreated p List.mem_cons_self (k, v) hnew).left
        · exact hbase k v hold.left
      · intro q hq
        exact hcreated q (List.mem_cons_of_mem p hq)
      · intro q hq
        exact hspent q (List.mem_cons_of_mem p hq)

/-!
## Sources

Where a spent slot came from: the starting ledger, or an earlier posting.  The
totals of a history can be read off its sources, without the ledgers between.
-/

def source (base : Ledger ref value) (history : List (Posting ref value))
    (k : ref × Int) : Option value :=
  (base.get? k).or (Dict.lookupKey (createdBy history) k)

def sourceWeight (weight : value -> Int) (base : Ledger ref value)
    (history : List (Posting ref value)) (k : ref × Int) : Int :=
  ((source base history k).map weight).getD 0

theorem source_append {base : Ledger ref value} {history more : List (Posting ref value)}
    {k : ref × Int} {v : value} (h : source base history k = some v) :
    source base (history ++ more) k = some v := by
  unfold source createdBy at *
  rw [List.flatMap_append, Dict.lookupKey_append]
  cases hbase : base.get? k with
  | some w =>
      rw [hbase] at h
      exact h
  | none =>
      rw [hbase, Option.none_or] at h
      rw [Option.none_or, h]
      rfl

theorem source_known {base : Ledger ref value} {history : List (Posting ref value)}
    {k : ref × Int} (h : k ∈ base.keys ∨ exists v, (k, v) ∈ createdBy history) :
    exists v, source base history k = some v := by
  unfold source
  cases hbase : base.get? k with
  | some w =>
      exact ⟨w, rfl⟩
  | none =>
      rw [Option.none_or]
      rcases h with hmem | ⟨v, hv⟩
      · exact absurd hmem ((Dict.get?_eq_none_iff base k).mp hbase)
      · apply Option.isSome_iff_exists.mp
        exact (Dict.lookup_isSome_iff (createdBy history) k).mpr
          (List.mem_map.mpr ⟨(k, v), hv, rfl⟩)

omit [DecidableEq ref] in
theorem createdBy_keys_nodup {base : Ledger ref value}
    {history : List (Posting ref value)} (h : FreshIdents base history) :
    ((createdBy history).map Prod.fst).Nodup := by
  have hidents := h.nodup
  clear h
  induction history with
  | nil =>
      exact List.nodup_nil
  | cons p rest ih =>
      rw [List.map_cons, List.nodup_cons] at hidents
      unfold createdBy
      rw [List.flatMap_cons, List.map_append, List.nodup_append]
      refine ⟨p.created_nodup, ih hidents.right, ?_⟩
      intro k hk other hother heq
      subst heq
      rcases List.mem_map.mp hk with ⟨entry, hentry, hkey⟩
      rcases List.mem_map.mp hother with ⟨entry', hentry', hkey'⟩
      rcases List.mem_flatMap.mp hentry' with ⟨q, hq, hqEntry⟩
      apply hidents.left
      have hident : q.ident = p.ident := by
        rw [← Posting.created_ident hqEntry, ← Posting.created_ident hentry, hkey, hkey']
      rw [← hident]
      exact List.mem_map_of_mem hq

/-- The slots that are left: those there were and those created, less those spent. -/
theorem Exact.items_perm {base d : Ledger ref value} {history : List (Posting ref value)}
    (hfresh : FreshIdents base history) (h : Exact base history d) :
    d.items.Perm ((base.items ++ createdBy history).filter
      (fun entry => entry.1 ∉ spentBy history)) := by
  have hkeys : ((base.items ++ createdBy history).map Prod.fst).Nodup := by
    rw [List.map_append, List.nodup_append]
    refine ⟨base.nodupKeys, createdBy_keys_nodup hfresh, ?_⟩
    intro k hk other hother heq
    rcases List.mem_map.mp hother with ⟨entry, hentry, hkey⟩
    rcases List.mem_flatMap.mp hentry with ⟨p, hp, hcreated⟩
    apply hfresh.fresh p hp k hk
    rw [heq, ← hkey]
    exact Posting.created_ident hcreated
  rw [List.perm_ext_iff_of_nodup d.nodupKeys.of_map (hkeys.of_map.filter _)]
  rintro ⟨k, v⟩
  rw [← Dict.get?_eq_some_iff, h.get?_iff, List.mem_filter, List.mem_append,
    Dict.get?_eq_some_iff]
  simp

theorem source_of_base {base : Ledger ref value} {history : List (Posting ref value)}
    {k : ref × Int} {v : value} (h : base.get? k = some v) :
    source base history k = some v := by
  unfold source
  rw [h]
  rfl

theorem source_of_created {base : Ledger ref value} {history : List (Posting ref value)}
    (hfresh : FreshIdents base history) {k : ref × Int} {v : value}
    (h : (k, v) ∈ createdBy history) : source base history k = some v := by
  have hbase : base.get? k = none := by
    rw [Dict.get?_eq_none_iff]
    intro hmem
    rcases List.mem_flatMap.mp h with ⟨p, hp, hentry⟩
    exact hfresh.fresh p hp k hmem (Posting.created_ident hentry)
  unfold source
  rw [hbase, Option.none_or]
  exact Dict.lookup_eq_some_of_mem (createdBy_keys_nodup hfresh) h

theorem source_of_get? {base d : Ledger ref value} {history : List (Posting ref value)}
    (hfresh : FreshIdents base history) (hexact : Exact base history d)
    {k : ref × Int} {v : value} (h : d.get? k = some v) :
    source base history k = some v := by
  rcases ((hexact.get?_iff k v).mp h).left with hbase | hcreated
  · exact source_of_base hbase
  · exact source_of_created hfresh hcreated

/-- What is left, plus what was spent at its source, is what there was plus what
was created. -/
theorem replay_sources (weight : value -> Int) {base d : Ledger ref value}
    {history : List (Posting ref value)} (hfresh : FreshIdents base history)
    (h : Replay base history d) :
    d.total weight +
        ((spentBy history).map (sourceWeight weight base history)).sum =
      base.total weight + ((createdBy history).map (fun entry => weight entry.2)).sum := by
  induction history using List.reverseRecOn generalizing d with
  | nil =>
      cases h
      simp [spentBy, createdBy]
  | append_singleton front p ih =>
      rcases replay_append_split h with ⟨e, hfront, hlast⟩
      rcases replay_singleton_inv hlast with ⟨happly, hd⟩
      subst hd
      have hfreshFront := hfresh.of_append_left
      have hexact := replay_exact hfreshFront hfront
      have hih := ih hfreshFront hfront
      have hpost := post_total weight happly
      have hold : (spentBy front).map (sourceWeight weight base (front ++ [p])) =
          (spentBy front).map (sourceWeight weight base front) := by
        apply List.map_congr_left
        intro k hk
        rcases List.mem_flatMap.mp hk with ⟨q, hq, hkq⟩
        rcases List.append_of_mem hq with ⟨before, after, hsplit⟩
        have hknown : k ∈ base.keys ∨ exists v, (k, v) ∈ createdBy front := by
          rcases hexact.provenance before q after hsplit k hkq with hbase | ⟨v, hv⟩
          · exact Or.inl hbase
          · apply Or.inr
            refine ⟨v, ?_⟩
            rw [hsplit]
            unfold createdBy at *
            rw [List.flatMap_append]
            exact List.mem_append_left _ hv
        rcases source_known hknown with ⟨v, hv⟩
        unfold sourceWeight
        rw [hv, source_append hv]
      have hnew : p.spends.map (sourceWeight weight base (front ++ [p])) =
          p.spends.map (e.weightAt weight) := by
        apply List.map_congr_left
        intro k hk
        rcases Dict.exists_get?_of_mem_keys (happly.right.left k hk) with ⟨v, hv⟩
        unfold sourceWeight
        rw [source_append (source_of_get? hfreshFront hexact hv),
          Dict.weightAt_of_get? weight hv]
        rfl
      have hspent : spentBy (front ++ [p]) = spentBy front ++ p.spends := by
        simp [spentBy]
      have hcreated : createdBy (front ++ [p]) = createdBy front ++ p.created := by
        simp [createdBy]
      rw [hspent, hcreated, List.map_append, List.map_append, List.sum_append,
        List.sum_append, hold, hnew, Posting.created_weights]
      omega

/-!
## Other orders

Some postings of a history may be replayed in another order, as long as each one
comes after those whose slots it spends.  It then reads the same values.
-/

structure Rearranges (base : Ledger ref value) (history order : List (Posting ref value)) :
    Prop where
  idents : (order.map Posting.ident).Nodup
  subset : forall p, p ∈ order -> p ∈ history
  ready : forall before p after, order = before ++ p :: after -> forall k, k ∈ p.spends ->
    k ∈ base.keys ∨ exists v, (k, v) ∈ createdBy before

omit [DecidableEq ref] in
theorem Rearranges.of_append_left {base : Ledger ref value}
    {history order more : List (Posting ref value)}
    (h : Rearranges base history (order ++ more)) : Rearranges base history order where
  idents := by
    have hidents := h.idents
    rw [List.map_append] at hidents
    exact List.Nodup.of_append_left hidents
  subset := fun p hp => h.subset p (List.mem_append_left _ hp)
  ready := by
    intro before p after heq
    apply h.ready before p (after ++ more)
    rw [heq, List.append_assoc]
    rfl

omit [DecidableEq ref] in
theorem Rearranges.freshIdents {base : Ledger ref value}
    {history order : List (Posting ref value)} (h : Rearranges base history order)
    (hfresh : FreshIdents base history) : FreshIdents base order :=
  ⟨h.idents, fun p hp => hfresh.fresh p (h.subset p hp)⟩

theorem Exact.spends_disjoint {base d : Ledger ref value}
    {history : List (Posting ref value)} (h : Exact base history d)
    {p q : Posting ref value} (hp : p ∈ history) (hq : q ∈ history) (hne : p ≠ q)
    {k : ref × Int} (hk : k ∈ p.spends) : k ∉ q.spends := by
  have hpairs := (List.nodup_flatMap.mp h.spends_nodup).right
  have hsymm : Std.Symm (Function.onFun List.Disjoint
      (fun posting : Posting ref value => posting.spends)) :=
    ⟨fun _ _ hxy _ hleft hright => hxy hright hleft⟩
  exact fun hk' => hpairs.forall hp hq hne hk hk'

/-- The next posting of another order applies, and reads what it always reads. -/
theorem Rearranges.applies {base d w : Ledger ref value}
    {history order : List (Posting ref value)} {p : Posting ref value}
    (hfresh : FreshIdents base history) (hwhole : Exact base history d)
    (hexact : Exact base order w) (h : Rearranges base history (order ++ [p])) :
    Applies w p ∧ forall k, k ∈ p.spends -> exists v,
      w.get? k = some v ∧ source base history k = some v := by
  have hmem : p ∈ history := h.subset p (List.mem_append_right _ List.mem_cons_self)
  have hother : forall q, q ∈ order -> q.ident ≠ p.ident := by
    have hidents := h.idents
    rw [List.map_append, List.nodup_append] at hidents
    intro q hq
    exact hidents.right.right q.ident (List.mem_map.mpr ⟨q, hq, rfl⟩) p.ident (by simp)
  have hunspent : forall k, k ∈ p.spends -> k ∉ spentBy order := by
    intro k hk hspent
    rcases List.mem_flatMap.mp hspent with ⟨q, hq, hkq⟩
    have hne : q ≠ p := fun heq => hother q hq (by rw [heq])
    have hq' : q ∈ history := h.subset q (List.mem_append_left _ hq)
    exact hwhole.spends_disjoint hq' hmem hne hkq hk
  have hreads : forall k, k ∈ p.spends -> exists v,
      w.get? k = some v ∧ source base history k = some v := by
    intro k hk
    rcases h.ready order p [] rfl k hk with hbase | ⟨v, hv⟩
    · rcases Dict.exists_get?_of_mem_keys hbase with ⟨v, hv⟩
      exact ⟨v, (hexact.get?_iff k v).mpr ⟨Or.inl hv, hunspent k hk⟩, source_of_base hv⟩
    · refine ⟨v, (hexact.get?_iff k v).mpr ⟨Or.inr hv, hunspent k hk⟩,
        source_of_created hfresh ?_⟩
      rcases List.mem_flatMap.mp hv with ⟨q, hq, hkq⟩
      exact List.mem_flatMap.mpr ⟨q, h.subset q (List.mem_append_left _ hq), hkq⟩
  refine ⟨⟨?_, ?_, ?_⟩, hreads⟩
  · exact (List.nodup_flatMap.mp hwhole.spends_nodup).left p hmem
  · intro k hk
    rcases hreads k hk with ⟨v, hv, _⟩
    exact Dict.mem_keys_of_get? hv
  · intro entry hentry hkey
    have hident := Posting.created_ident hentry
    rcases Dict.exists_get?_of_mem_keys hkey with ⟨v, hv⟩
    rcases ((hexact.get?_iff _ v).mp hv).left with hbase | hcreated
    · exact hfresh.fresh p hmem _ (Dict.mem_keys_of_get? hbase) hident
    · rcases List.mem_flatMap.mp hcreated with ⟨q, hq, hkq⟩
      apply hother q hq
      rw [← hident]
      exact (Posting.created_ident hkq).symm

end OutputLedger

end Foundation
end PyChain
