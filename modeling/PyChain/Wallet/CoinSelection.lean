import Mathlib.Data.List.Lex
import Mathlib.Data.List.Sort
import PyChain.Transaction.Utxo

/-!
# Coin selection

Outputs are taken smallest first until they cover the amount and the fee.
-/

namespace PyChain

open Foundation

namespace Wallet

/-- The exceptions of a wallet operation. -/
inductive WalletError where
  | insufficientBalance (message : String)
  | workLimit (message : String)
  | keyStore (message : String)
  | raised (error : PyError)
deriving DecidableEq, Repr

structure Selection where
  selected : List (OutPoint × TxOutput)
  total : Int
  change : Int
deriving DecidableEq, Repr

/-- The sort key is the amount, and then the outpoint. -/
def SmallestFirst (a b : OutPoint × TxOutput) : Prop :=
  a.2.amount < b.2.amount ∨
    (a.2.amount = b.2.amount ∧
      (a.1.1 < b.1.1 ∨ (a.1.1 = b.1.1 ∧ a.1.2 ≤ b.1.2)))

instance : DecidableRel SmallestFirst :=
  fun a b => inferInstanceAs (Decidable (a.2.amount < b.2.amount ∨
    (a.2.amount = b.2.amount ∧
      (a.1.1 < b.1.1 ∨ (a.1.1 = b.1.1 ∧ a.1.2 ≤ b.1.2)))))

def smallestFirst (utxos : UTXOSet) : List (OutPoint × TxOutput) :=
  utxos.items.insertionSort SmallestFirst

def selectLoop (amount fee : Int) :
    List (OutPoint × TxOutput) -> List (OutPoint × TxOutput) -> Int ->
      Except WalletError Selection
  | [], _, _ => .error (.insufficientBalance "Insufficient available balance")
  | item :: rest, selected, total =>
      if item.2.amount ≤ 0 then .error (.raised (.valueError "Invalid UTXO amount"))
      else if amount + fee ≤ total + item.2.amount then
        .ok
          { selected := selected ++ [item]
            total := total + item.2.amount
            change := total + item.2.amount - amount - fee }
      else selectLoop amount fee rest (selected ++ [item]) (total + item.2.amount)

def selectUtxos (utxos : UTXOSet) (amount fee : Int) : Except WalletError Selection :=
  if amount ≤ 0 ∨ fee < 0 then
    .error (.raised (.valueError "amount must be positive and fee nonnegative integers"))
  else selectLoop amount fee (smallestFirst utxos) [] 0

/-!
## What is selected
-/

def coinsTotal (coins : List (OutPoint × TxOutput)) : Int :=
  (coins.map (fun item => item.2.amount)).sum

theorem coinsTotal_append (xs ys : List (OutPoint × TxOutput)) :
    coinsTotal (xs ++ ys) = coinsTotal xs + coinsTotal ys := by
  unfold coinsTotal
  rw [List.map_append, List.sum_append]

theorem coinsTotal_cons (item : OutPoint × TxOutput) (rest : List (OutPoint × TxOutput)) :
    coinsTotal (item :: rest) = item.2.amount + coinsTotal rest := by
  unfold coinsTotal
  rw [List.map_cons, List.sum_cons]

theorem coinsTotal_nonneg {coins : List (OutPoint × TxOutput)}
    (hpositive : forall item, item ∈ coins -> 0 < item.2.amount) : 0 ≤ coinsTotal coins := by
  induction coins with
  | nil => exact Int.le_refl 0
  | cons item rest ih =>
      have hitem := hpositive item List.mem_cons_self
      have hrest := ih (fun other hother => hpositive other (List.mem_cons_of_mem _ hother))
      rw [coinsTotal_cons]
      omega

/-- A shortest beginning of the coins that is worth enough. -/
structure Covers (target : Int) (coins selected : List (OutPoint × TxOutput)) : Prop where
  split : exists front item back, coins = front ++ item :: back ∧
    selected = front ++ [item] ∧ coinsTotal front < target
  enough : target ≤ coinsTotal selected

theorem selectLoop_cases (amount fee : Int) (coins : List (OutPoint × TxOutput)) :
    (forall item, item ∈ coins -> 0 < item.2.amount) ->
    forall (selected : List (OutPoint × TxOutput)),
      coinsTotal selected < amount + fee ->
      (exists more, selectLoop amount fee coins selected (coinsTotal selected) =
          .ok
            { selected := selected ++ more
              total := coinsTotal (selected ++ more)
              change := coinsTotal (selected ++ more) - amount - fee } ∧
        Covers (amount + fee - coinsTotal selected) coins more) ∨
      (selectLoop amount fee coins selected (coinsTotal selected) =
          .error (.insufficientBalance "Insufficient available balance") ∧
        coinsTotal (selected ++ coins) < amount + fee) := by
  induction coins with
  | nil =>
      intro _ selected hshort
      rw [List.append_nil]
      exact Or.inr ⟨rfl, hshort⟩
  | cons item rest ih =>
      intro hpositive selected hshort
      have hitem := hpositive item List.mem_cons_self
      have hsum : coinsTotal (selected ++ [item]) = coinsTotal selected + item.2.amount := by
        rw [coinsTotal_append, coinsTotal_cons]
        exact congrArg _ (Int.add_zero _)
      unfold selectLoop
      rw [if_neg (by omega)]
      by_cases henough : amount + fee ≤ coinsTotal selected + item.2.amount
      · refine Or.inl ⟨[item], ?_, ⟨⟨[], item, rest, rfl, rfl, ?_⟩, ?_⟩⟩
        · rw [if_pos henough, hsum]
        · change 0 < _
          omega
        · rw [coinsTotal_cons]
          change _ ≤ item.2.amount + 0
          omega
      · rw [if_neg henough, ← hsum]
        rcases ih (fun other hother => hpositive other (List.mem_cons_of_mem _ hother))
          (selected ++ [item]) (by omega) with ⟨more, hloop, hcovers⟩ | ⟨hloop, hall⟩
        · rcases hcovers.split with ⟨front, last, back, hrest, hmore, hfront⟩
          refine Or.inl ⟨item :: more, ?_,
            ⟨⟨item :: front, last, back, ?_, ?_, ?_⟩, ?_⟩⟩
          · rw [hloop, List.append_assoc]
            rfl
          · rw [hrest]
            rfl
          · rw [hmore]
            rfl
          · rw [coinsTotal_cons]
            omega
          · have henough' := hcovers.enough
            rw [coinsTotal_cons]
            omega
        · rw [List.append_assoc] at hall
          exact Or.inr ⟨hloop, hall⟩

theorem smallestFirst_perm (utxos : UTXOSet) : (smallestFirst utxos).Perm utxos.items :=
  List.perm_insertionSort SmallestFirst utxos.items

theorem coinsTotal_smallestFirst (utxos : UTXOSet) :
    coinsTotal (smallestFirst utxos) = coinsTotal utxos.items :=
  ((smallestFirst_perm utxos).map _).sum_eq

section Positive

variable {utxos : UTXOSet}

theorem selectUtxos_cases
    (hpositive : forall item, item ∈ utxos.items -> 0 < item.2.amount) {amount fee : Int}
    (hamount : 1 ≤ amount) (hfee : 0 ≤ fee) :
    (exists selected, selectUtxos utxos amount fee =
        .ok
          { selected := selected
            total := coinsTotal selected
            change := coinsTotal selected - amount - fee } ∧
      Covers (amount + fee) (smallestFirst utxos) selected) ∨
    (selectUtxos utxos amount fee =
        .error (.insufficientBalance "Insufficient available balance") ∧
      coinsTotal utxos.items < amount + fee) := by
  have hsorted : forall item, item ∈ smallestFirst utxos -> 0 < item.2.amount :=
    fun item hitem => hpositive item ((smallestFirst_perm utxos).mem_iff.mp hitem)
  unfold selectUtxos
  rw [if_neg (by omega)]
  rcases selectLoop_cases amount fee (smallestFirst utxos) hsorted []
    (by change 0 < _; omega) with ⟨more, hloop, hcovers⟩ | ⟨hloop, hall⟩
  · have htarget : amount + fee - coinsTotal [] = amount + fee := Int.sub_zero _
    rw [htarget] at hcovers
    exact Or.inl ⟨more, hloop, hcovers⟩
  · rw [List.nil_append, coinsTotal_smallestFirst] at hall
    exact Or.inr ⟨hloop, hall⟩

end Positive

end Wallet

end PyChain
