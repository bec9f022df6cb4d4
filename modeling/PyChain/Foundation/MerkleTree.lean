import Mathlib.Data.List.Forall2
import Mathlib.Data.List.Nodup
import Mathlib.Data.Nat.Log

/-!
# Binary hash trees

The root of a list of nodes is computed level by level; a node without a
partner is joined with itself.  Joining may fail.  The main result is that the
root of a duplicate-free list determines the list, for lists of any two
lengths, as long as joining is injective on the pairs that are actually joined
and no leaf is a join.
-/

namespace PyChain
namespace Foundation
namespace MerkleTree

variable {node error : Type}

/-- The pairs joined on one level. -/
def levelPairs : List node -> List (node × node)
  | [] => []
  | [a] => [(a, a)]
  | a :: b :: rest => (a, b) :: levelPairs rest

def joinPairs (join : node -> node -> Except error node) :
    List (node × node) -> Except error (List node)
  | [] => .ok []
  | (a, b) :: rest =>
      match join a b with
      | .error e => .error e
      | .ok c =>
          match joinPairs join rest with
          | .error e => .error e
          | .ok tail => .ok (c :: tail)

def nextLevel (join : node -> node -> Except error node) (level : List node) :
    Except error (List node) :=
  joinPairs join (levelPairs level)

/-- Climb to the root.  The result is empty only for an empty level or when the
fuel runs out. -/
def climb (join : node -> node -> Except error node) :
    Nat -> List node -> Except error (Option node)
  | _, [] => .ok none
  | _, [a] => .ok (some a)
  | 0, _ :: _ :: _ => .ok none
  | fuel + 1, a :: b :: rest =>
      match nextLevel join (a :: b :: rest) with
      | .error e => .error e
      | .ok level => climb join fuel level

/-- Every pair joined on the way to the root. -/
def joinedPairs (join : node -> node -> Except error node) :
    Nat -> List node -> List (node × node)
  | _, [] => []
  | _, [_] => []
  | 0, _ :: _ :: _ => []
  | fuel + 1, a :: b :: rest =>
      levelPairs (a :: b :: rest) ++
        (match nextLevel join (a :: b :: rest) with
          | .error _ => []
          | .ok level => joinedPairs join fuel level)

/-!
## One level
-/

theorem joinPairs_forall₂ {join : node -> node -> Except error node}
    {pairs : List (node × node)} {level : List node}
    (h : joinPairs join pairs = .ok level) :
    List.Forall₂ (fun pair c => join pair.1 pair.2 = .ok c) pairs level := by
  induction pairs generalizing level with
  | nil =>
      simp only [joinPairs, Except.ok.injEq] at h
      subst h
      exact List.Forall₂.nil
  | cons pair rest ih =>
      cases pair with
      | mk a b =>
          simp only [joinPairs] at h
          cases hjoin : join a b with
          | error e =>
              rw [hjoin] at h
              cases h
          | ok c =>
              rw [hjoin] at h
              cases hrest : joinPairs join rest with
              | error e =>
                  simp only [hrest] at h
                  cases h
              | ok tail =>
                  simp only [hrest, Except.ok.injEq] at h
                  subst h
                  exact List.Forall₂.cons hjoin (ih hrest)

theorem joinPairs_total {join : node -> node -> Except error node}
    {pairs : List (node × node)}
    (h : forall pair, pair ∈ pairs -> exists c, join pair.1 pair.2 = .ok c) :
    exists level, joinPairs join pairs = .ok level := by
  induction pairs with
  | nil =>
      exact ⟨[], rfl⟩
  | cons pair rest ih =>
      rcases h pair List.mem_cons_self with ⟨c, hc⟩
      rcases ih (fun other hother => h other (List.mem_cons_of_mem pair hother)) with
        ⟨tail, htail⟩
      exists c :: tail
      cases pair with
      | mk a b =>
          simp only at hc
          simp [joinPairs, hc, htail]

theorem levelPairs_fst_sublist : forall level : List node,
    List.Sublist ((levelPairs level).map Prod.fst) level
  | [] => List.Sublist.slnil
  | [a] => by
      simp [levelPairs]
  | a :: b :: rest => by
      rw [levelPairs, List.map_cons]
      exact List.Sublist.cons_cons a
        (List.Sublist.cons b (levelPairs_fst_sublist rest))

theorem levelPairs_mem : forall (level : List node) (pair : node × node),
    pair ∈ levelPairs level -> pair.1 ∈ level ∧ pair.2 ∈ level
  | [], pair, h => by
      cases h
  | [a], pair, h => by
      have hpair : pair = (a, a) := by
        simpa [levelPairs] using h
      subst hpair
      simp
  | a :: b :: rest, pair, h => by
      rw [levelPairs] at h
      rcases List.mem_cons.mp h with hhead | htail
      · subst hhead
        simp
      · rcases levelPairs_mem rest pair htail with ⟨hfst, hsnd⟩
        exact ⟨List.mem_cons_of_mem a (List.mem_cons_of_mem b hfst),
          List.mem_cons_of_mem a (List.mem_cons_of_mem b hsnd)⟩

theorem levelPairs_length : forall level : List node,
    (levelPairs level).length = (level.length + 1) / 2
  | [] => by
      simp [levelPairs]
  | [_] => by
      simp [levelPairs]
  | a :: b :: rest => by
      rw [levelPairs, List.length_cons, levelPairs_length rest, List.length_cons,
        List.length_cons]
      omega

/-- A duplicate-free level is determined by its pairs: pairing a node with
itself happens only at an odd end. -/
theorem levelPairs_injective : forall {x y : List node},
    x.Nodup -> y.Nodup -> levelPairs x = levelPairs y -> x = y
  | [], [], _, _, _ => rfl
  | [], [_], _, _, h => by
      simp [levelPairs] at h
  | [], _ :: _ :: _, _, _, h => by
      simp [levelPairs] at h
  | [_], [], _, _, h => by
      simp [levelPairs] at h
  | _ :: _ :: _, [], _, _, h => by
      simp [levelPairs] at h
  | [a], [b], _, _, h => by
      simpa [levelPairs] using h
  | [a], b :: c :: rest, _, hy, h => by
      simp only [levelPairs, List.cons.injEq, Prod.mk.injEq] at h
      have hbc : b = c := h.left.left.symm.trans h.left.right
      rw [List.nodup_cons] at hy
      exact absurd (by simp [hbc]) hy.left
  | a :: b :: rest, [c], hx, _, h => by
      simp only [levelPairs, List.cons.injEq, Prod.mk.injEq] at h
      have hab : a = b := h.left.left.trans h.left.right.symm
      rw [List.nodup_cons] at hx
      exact absurd (by simp [hab]) hx.left
  | a :: b :: rest, c :: d :: tail, hx, hy, h => by
      simp only [levelPairs, List.cons.injEq, Prod.mk.injEq] at h
      rw [List.nodup_cons, List.nodup_cons] at hx hy
      have htail := levelPairs_injective hx.right.right hy.right.right h.right
      rw [h.left.left, h.left.right, htail]

theorem nextLevel_length {join : node -> node -> Except error node}
    {level next : List node} (h : nextLevel join level = .ok next) :
    next.length = (level.length + 1) / 2 := by
  rw [← (joinPairs_forall₂ h).length_eq, levelPairs_length]

theorem nextLevel_forall {join : node -> node -> Except error node} {P : node -> Prop}
    (hjoin : forall a b c, P a -> P b -> join a b = .ok c -> P c)
    {level next : List node} (hlevel : forall a, a ∈ level -> P a)
    (h : nextLevel join level = .ok next) : forall c, c ∈ next -> P c := by
  intro c hc
  have hforall := joinPairs_forall₂ h
  rcases List.mem_iff_getElem.mp hc with ⟨i, hi, hget⟩
  have hi' : i < (levelPairs level).length := by
    rw [hforall.length_eq]
    exact hi
  have hpair := hforall.get hi' hi
  have hmem := levelPairs_mem level _ (List.getElem_mem hi')
  simp only [List.get_eq_getElem, hget] at hpair
  exact hjoin _ _ c (hlevel _ hmem.left) (hlevel _ hmem.right) hpair

theorem joinedPairs_forall {join : node -> node -> Except error node} {P : node -> Prop}
    (hjoin : forall a b c, P a -> P b -> join a b = .ok c -> P c) :
    forall (fuel : Nat) (level : List node), (forall a, a ∈ level -> P a) ->
      forall pair, pair ∈ joinedPairs join fuel level -> P pair.1 ∧ P pair.2 := by
  intro fuel
  induction fuel with
  | zero =>
      intro level hlevel pair hpair
      match level with
      | [] => cases hpair
      | [_] => cases hpair
      | _ :: _ :: _ => cases hpair
  | succ fuel ih =>
      intro level hlevel pair hpair
      match level with
      | [] => cases hpair
      | [_] => cases hpair
      | a :: b :: rest =>
          rw [joinedPairs] at hpair
          rcases List.mem_append.mp hpair with hhere | habove
          · rcases levelPairs_mem _ pair hhere with ⟨hfst, hsnd⟩
            exact ⟨hlevel _ hfst, hlevel _ hsnd⟩
          · cases hnext : nextLevel join (a :: b :: rest) with
            | error e =>
                rw [hnext] at habove
                cases habove
            | ok next =>
                rw [hnext] at habove
                exact ih next (nextLevel_forall hjoin hlevel hnext) pair habove

theorem climb_total {join : node -> node -> Except error node}
    (P : node -> Prop)
    (hjoin : forall a b, P a -> P b -> exists c, join a b = .ok c ∧ P c) :
    forall (fuel : Nat) (level : List node), level ≠ [] ->
      level.length ≤ fuel + 1 -> (forall a, a ∈ level -> P a) ->
      exists root, climb join fuel level = .ok (some root) ∧ P root := by
  intro fuel
  induction fuel with
  | zero =>
      intro level hne hlength hP
      cases level with
      | nil =>
          exact absurd rfl hne
      | cons a rest =>
          cases rest with
          | nil =>
              exact ⟨a, rfl, hP a List.mem_cons_self⟩
          | cons b tail =>
              simp at hlength
  | succ fuel ih =>
      intro level hne hlength hP
      cases level with
      | nil =>
          exact absurd rfl hne
      | cons a rest =>
          cases rest with
          | nil =>
              exact ⟨a, rfl, hP a List.mem_cons_self⟩
          | cons b tail =>
              have hpairs : forall pair, pair ∈ levelPairs (a :: b :: tail) ->
                  exists c, join pair.1 pair.2 = .ok c := by
                intro pair hpair
                rcases levelPairs_mem _ pair hpair with ⟨hfst, hsnd⟩
                rcases hjoin pair.1 pair.2 (hP _ hfst) (hP _ hsnd) with ⟨c, hc, _⟩
                exact ⟨c, hc⟩
              rcases joinPairs_total hpairs with ⟨next, hnext⟩
              have hnextLength := @nextLevel_length _ _ join (a :: b :: tail) next hnext
              have hnextP : forall c, c ∈ next -> P c := by
                apply nextLevel_forall _ hP hnext
                intro x y z hx hy hz
                rcases hjoin x y hx hy with ⟨w, hw, hPw⟩
                rw [hw] at hz
                rw [← Except.ok.inj hz]
                exact hPw
              have hclimb : climb join (fuel + 1) (a :: b :: tail) =
                  climb join fuel next := by
                rw [climb]
                unfold nextLevel
                rw [hnext]
              rw [hclimb]
              apply ih next
              · intro hnil
                rw [hnil] at hnextLength
                simp only [List.length_nil, List.length_cons] at hnextLength
                omega
              · simp only [List.length_cons] at hlength hnextLength
                omega
              · exact hnextP

/-!
## Roots determine lists

Nodes of one height are joins of nodes one level below.  Heights are unique,
which separates trees of different depth.
-/

section Injectivity

variable (join : node -> node -> Except error node)
variable (Leaf : node -> Prop) (Joined : node -> node -> Prop)

inductive AtHeight : Nat -> node -> Prop where
  | leaf {a : node} : Leaf a -> AtHeight 0 a
  | join {height : Nat} {a b c : node} :
      AtHeight height a -> AtHeight height b -> Joined a b ->
      join a b = .ok c -> AtHeight (height + 1) c

/-- Joining is injective on the joined pairs and never yields a leaf. -/
structure Separated : Prop where
  injective : forall a b c d x, Joined a b -> Joined c d ->
    join a b = .ok x -> join c d = .ok x -> a = c ∧ b = d
  leaf_ne : forall a b x, Leaf x -> Joined a b -> join a b ≠ .ok x

variable {join Leaf Joined}

theorem atHeight_unique (hsep : Separated join Leaf Joined) {j k : Nat} {a : node}
    (hj : AtHeight join Leaf Joined j a) (hk : AtHeight join Leaf Joined k a) :
    j = k := by
  induction hj generalizing k with
  | leaf hleaf =>
      cases hk with
      | leaf _ => rfl
      | join _ _ hjoined hjoin => exact absurd hjoin (hsep.leaf_ne _ _ _ hleaf hjoined)
  | join _ _ hjoined hjoin ih _ =>
      cases hk with
      | leaf hleaf => exact absurd hjoin (hsep.leaf_ne _ _ _ hleaf hjoined)
      | join hleft _ hjoined' hjoin' =>
          rcases hsep.injective _ _ _ _ _ hjoined hjoined' hjoin hjoin' with ⟨hac, _⟩
          subst hac
          rw [ih hleft]

theorem nextLevel_atHeight {height : Nat} {level next : List node}
    (hlevel : forall a, a ∈ level -> AtHeight join Leaf Joined height a)
    (hpairs : forall pair, pair ∈ levelPairs level -> Joined pair.1 pair.2)
    (hnext : nextLevel join level = .ok next) :
    forall c, c ∈ next -> AtHeight join Leaf Joined (height + 1) c := by
  have hforall := joinPairs_forall₂ hnext
  have hall : forall pairs : List (node × node), forall out : List node,
      List.Forall₂ (fun pair c => join pair.1 pair.2 = .ok c) pairs out ->
      (forall pair, pair ∈ pairs -> pair ∈ levelPairs level) ->
      forall c, c ∈ out -> AtHeight join Leaf Joined (height + 1) c := by
    intro pairs out h
    induction h with
    | nil =>
        intro _ c hc
        cases hc
    | cons hjoin _ ih =>
        intro hsub c hc
        rcases List.mem_cons.mp hc with hhead | htail
        · subst hhead
          have hmem := hsub _ List.mem_cons_self
          rcases levelPairs_mem level _ hmem with ⟨hfst, hsnd⟩
          exact AtHeight.join (hlevel _ hfst) (hlevel _ hsnd) (hpairs _ hmem) hjoin
        · exact ih (fun pair hpair => hsub pair (List.mem_cons_of_mem _ hpair)) c htail
  exact hall (levelPairs level) next hforall (fun _ h => h)

theorem forall₂_join_injective (hsep : Separated join Leaf Joined)
    {x y : List (node × node)} {out : List node}
    (hx : List.Forall₂ (fun pair c => join pair.1 pair.2 = .ok c) x out)
    (hy : List.Forall₂ (fun pair c => join pair.1 pair.2 = .ok c) y out)
    (hxJoined : forall pair, pair ∈ x -> Joined pair.1 pair.2)
    (hyJoined : forall pair, pair ∈ y -> Joined pair.1 pair.2) : x = y := by
  induction hx generalizing y with
  | nil =>
      cases hy
      rfl
  | cons hjoin _ ih =>
      cases hy with
      | cons hjoin' hrest =>
          have hpair := hsep.injective _ _ _ _ _ (hxJoined _ List.mem_cons_self)
            (hyJoined _ List.mem_cons_self) hjoin hjoin'
          have htail := ih hrest
            (fun pair hp => hxJoined pair (List.mem_cons_of_mem _ hp))
            (fun pair hp => hyJoined pair (List.mem_cons_of_mem _ hp))
          rw [htail, Prod.ext hpair.left hpair.right]

theorem nextLevel_nodup (hsep : Separated join Leaf Joined)
    {level next : List node} (hnodup : level.Nodup)
    (hpairs : forall pair, pair ∈ levelPairs level -> Joined pair.1 pair.2)
    (hnext : nextLevel join level = .ok next) : next.Nodup := by
  have hfst : ((levelPairs level).map Prod.fst).Nodup :=
    List.Nodup.sublist (levelPairs_fst_sublist level) hnodup
  have hforall := joinPairs_forall₂ hnext
  have hall : forall pairs : List (node × node), forall out : List node,
      List.Forall₂ (fun pair c => join pair.1 pair.2 = .ok c) pairs out ->
      (pairs.map Prod.fst).Nodup ->
      (forall pair, pair ∈ pairs -> Joined pair.1 pair.2) -> out.Nodup := by
    intro pairs out h
    induction h with
    | nil =>
        intro _ _
        exact List.nodup_nil
    | @cons pair c pairs out hjoin hrest ih =>
        intro hnodup hjoined
        rw [List.map_cons, List.nodup_cons] at hnodup
        rw [List.nodup_cons]
        constructor
        · intro hmem
          rcases List.mem_iff_getElem.mp hmem with ⟨i, hi, hget⟩
          have hi' : i < pairs.length := by
            rw [hrest.length_eq]
            exact hi
          have hother := hrest.get hi' hi
          simp only [List.get_eq_getElem] at hother
          rw [hget] at hother
          have hpair := hsep.injective _ _ _ _ _ (hjoined _ List.mem_cons_self)
            (hjoined _ (List.mem_cons_of_mem _ (List.getElem_mem hi'))) hjoin hother
          apply hnodup.left
          rw [hpair.left]
          exact List.mem_map.mpr ⟨pairs[i], List.getElem_mem hi', rfl⟩
        · exact ih hnodup.right
            (fun other ho => hjoined other (List.mem_cons_of_mem _ ho))
  exact hall (levelPairs level) next hforall hfst hpairs

/-- The root of a list stands as high as the list is deep. -/
theorem climb_atHeight : forall (fuel height : Nat) (level : List node) (root : node),
    (forall a, a ∈ level -> AtHeight join Leaf Joined height a) ->
    (forall pair, pair ∈ joinedPairs join fuel level -> Joined pair.1 pair.2) ->
    climb join fuel level = .ok (some root) ->
    AtHeight join Leaf Joined (height + Nat.clog 2 level.length) root := by
  intro fuel
  induction fuel with
  | zero =>
      intro height level root hlevel _ hclimb
      match level, hclimb with
      | [a], hclimb =>
          simp only [climb, Except.ok.injEq, Option.some.injEq] at hclimb
          subst hclimb
          rw [List.length_singleton, Nat.clog_one_right]
          exact hlevel a List.mem_cons_self
  | succ fuel ih =>
      intro height level root hlevel hpairs hclimb
      match level, hclimb with
      | [a], hclimb =>
          simp only [climb, Except.ok.injEq, Option.some.injEq] at hclimb
          subst hclimb
          rw [List.length_singleton, Nat.clog_one_right]
          exact hlevel a List.mem_cons_self
      | a :: b :: rest, hclimb =>
          rw [climb] at hclimb
          rw [joinedPairs] at hpairs
          cases hnext : nextLevel join (a :: b :: rest) with
          | error e =>
              rw [hnext] at hclimb
              cases hclimb
          | ok next =>
              rw [hnext] at hclimb hpairs
              have hlevelPairs : forall pair, pair ∈ levelPairs (a :: b :: rest) ->
                  Joined pair.1 pair.2 :=
                fun pair hp => hpairs pair (List.mem_append_left _ hp)
              have hnextHeight := nextLevel_atHeight hlevel hlevelPairs hnext
              have hroot := ih (height + 1) next root hnextHeight
                (fun pair hp => hpairs pair (List.mem_append_right _ hp)) hclimb
              have hdepth : Nat.clog 2 (a :: b :: rest).length =
                  Nat.clog 2 next.length + 1 := by
                rw [nextLevel_length hnext]
                exact Nat.clog_of_two_le (by omega) (by simp)
              have hsum : height + Nat.clog 2 (a :: b :: rest).length =
                  height + 1 + Nat.clog 2 next.length := by
                rw [hdepth]
                omega
              rw [hsum]
              exact hroot

/-- Lists of leaves with one root have one depth, whether or not they repeat
leaves. -/
theorem climb_depth (hsep : Separated join Leaf Joined) {n m height : Nat}
    {x y : List node} {root : node}
    (hx : forall a, a ∈ x -> AtHeight join Leaf Joined height a)
    (hy : forall a, a ∈ y -> AtHeight join Leaf Joined height a)
    (hxPairs : forall pair, pair ∈ joinedPairs join n x -> Joined pair.1 pair.2)
    (hyPairs : forall pair, pair ∈ joinedPairs join m y -> Joined pair.1 pair.2)
    (hxRoot : climb join n x = .ok (some root))
    (hyRoot : climb join m y = .ok (some root)) :
    Nat.clog 2 x.length = Nat.clog 2 y.length := by
  have hheight := atHeight_unique hsep (climb_atHeight n height x root hx hxPairs hxRoot)
    (climb_atHeight m height y root hy hyPairs hyRoot)
  omega

/-- Two duplicate-free lists of leaves with one root are the same list. -/
theorem climb_injective (hsep : Separated join Leaf Joined) :
    forall (n m height : Nat) (x y : List node) (root : node),
      x.Nodup -> y.Nodup ->
      (forall a, a ∈ x -> AtHeight join Leaf Joined height a) ->
      (forall a, a ∈ y -> AtHeight join Leaf Joined height a) ->
      (forall pair, pair ∈ joinedPairs join n x -> Joined pair.1 pair.2) ->
      (forall pair, pair ∈ joinedPairs join m y -> Joined pair.1 pair.2) ->
      climb join n x = .ok (some root) -> climb join m y = .ok (some root) ->
      x = y := by
  have hdeep : forall (a b : node) (tail : List node),
      0 < Nat.clog 2 (a :: b :: tail).length := by
    intro a b tail
    exact Nat.clog_pos (by omega) (by simp)
  intro n
  induction n with
  | zero =>
      intro m height x y root _ _ hx hy hxPairs hyPairs hxRoot hyRoot
      have hdepth := climb_depth hsep hx hy hxPairs hyPairs hxRoot hyRoot
      match x, y, hxRoot, hyRoot with
      | [a], [], _, hyRoot =>
          simp [climb] at hyRoot
      | [a], [b], hxRoot, hyRoot =>
          have ha : a = root := by
            simpa [climb] using hxRoot
          have hb : b = root := by
            simpa [climb] using hyRoot
          rw [ha, hb]
      | [a], b :: c :: tail, _, _ =>
          have hpos := hdeep b c tail
          rw [← hdepth, List.length_singleton, Nat.clog_one_right] at hpos
          omega
  | succ n ih =>
      intro m height x y root hxNodup hyNodup hx hy hxPairs hyPairs hxRoot hyRoot
      have hdepth := climb_depth hsep hx hy hxPairs hyPairs hxRoot hyRoot
      match x, y, hxRoot, hyRoot with
      | [], _, hxRoot, _ =>
          simp [climb] at hxRoot
      | _ :: _, [], _, hyRoot =>
          simp [climb] at hyRoot
      | [a], [b], hxRoot, hyRoot =>
          have ha : a = root := by
            simpa [climb] using hxRoot
          have hb : b = root := by
            simpa [climb] using hyRoot
          rw [ha, hb]
      | [a], b :: c :: tail, _, _ =>
          have hpos := hdeep b c tail
          rw [← hdepth, List.length_singleton, Nat.clog_one_right] at hpos
          omega
      | a :: b :: rest, [c], _, _ =>
          have hpos := hdeep a b rest
          rw [hdepth, List.length_singleton, Nat.clog_one_right] at hpos
          omega
      | a :: b :: rest, c :: d :: tail, hxRoot, hyRoot =>
          cases m with
          | zero =>
              simp [climb] at hyRoot
          | succ m =>
              rw [climb] at hxRoot hyRoot
              rw [joinedPairs] at hxPairs hyPairs
              cases hxNext : nextLevel join (a :: b :: rest) with
              | error e =>
                  rw [hxNext] at hxRoot
                  cases hxRoot
              | ok xNext =>
                  cases hyNext : nextLevel join (c :: d :: tail) with
                  | error e =>
                      rw [hyNext] at hyRoot
                      cases hyRoot
                  | ok yNext =>
                      rw [hxNext] at hxRoot hxPairs
                      rw [hyNext] at hyRoot hyPairs
                      have hxLevel : forall pair, pair ∈ levelPairs (a :: b :: rest) ->
                          Joined pair.1 pair.2 :=
                        fun pair hp => hxPairs pair (List.mem_append_left _ hp)
                      have hyLevel : forall pair, pair ∈ levelPairs (c :: d :: tail) ->
                          Joined pair.1 pair.2 :=
                        fun pair hp => hyPairs pair (List.mem_append_left _ hp)
                      have hnext : xNext = yNext :=
                        ih m (height + 1) xNext yNext root
                          (nextLevel_nodup hsep hxNodup hxLevel hxNext)
                          (nextLevel_nodup hsep hyNodup hyLevel hyNext)
                          (nextLevel_atHeight hx hxLevel hxNext)
                          (nextLevel_atHeight hy hyLevel hyNext)
                          (fun pair hp => hxPairs pair (List.mem_append_right _ hp))
                          (fun pair hp => hyPairs pair (List.mem_append_right _ hp))
                          hxRoot hyRoot
                      subst hnext
                      have hpairs := forall₂_join_injective hsep
                        (joinPairs_forall₂ hxNext) (joinPairs_forall₂ hyNext)
                        hxLevel hyLevel
                      exact levelPairs_injective hxNodup hyNodup hpairs

end Injectivity

end MerkleTree
end Foundation
end PyChain
