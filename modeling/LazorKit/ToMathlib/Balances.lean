import Mathlib.Algebra.BigOperators.Group.Finset.Piecewise
import Mathlib.Algebra.Order.BigOperators.Group.Finset
import Mathlib.Algebra.Order.Ring.Nat

/-! # Moving amounts between accounts

Balances assign an amount to every key. A transfer lowers one balance by what it raises another, which may be
the same one, so it keeps the sum over every set of keys that holds both. `Conserves` is the relation that is
left when the single transfers are forgotten: only the keys touched along the way matter, and it composes.
-/

namespace Balances

open Finset

variable {κ : Type*} {before middle after : κ → ℕ} {source target : κ} {amount : ℕ}

/-- `amount` moved from `source` to `target`, and nothing else changed. -/
def Transfers [DecidableEq κ] (before after : κ → ℕ) (source target : κ) (amount : ℕ) : Prop :=
  ∀ key, after key + (if key = source then amount else 0) = before key + (if key = target then amount else 0)

/-- The sum is kept over every set of keys that contains the touched ones. -/
def Conserves (touched : Finset κ) (before after : κ → ℕ) : Prop :=
  ∀ keys, touched ⊆ keys → ∑ key ∈ keys, after key = ∑ key ∈ keys, before key

/-- An amount added at one key is added to the sum. -/
theorem sum_add_ite [DecidableEq κ] (balances : κ → ℕ) {keys : Finset κ} (member : source ∈ keys) :
    ∑ key ∈ keys, (balances key + if key = source then amount else 0) = ∑ key ∈ keys, balances key + amount := by
  rw [sum_add_distrib, sum_ite_eq' keys source, if_pos member]

namespace Transfers

variable [DecidableEq κ]

theorem sum_eq (moved : Transfers before after source target amount) {keys : Finset κ}
    (hasSource : source ∈ keys) (hasTarget : target ∈ keys) : ∑ key ∈ keys, after key = ∑ key ∈ keys, before key := by
  have shifted : ∑ key ∈ keys, (after key + if key = source then amount else 0) =
      ∑ key ∈ keys, (before key + if key = target then amount else 0) :=
    sum_congr rfl fun key _ => moved key
  rw [sum_add_ite after hasSource, sum_add_ite before hasTarget] at shifted
  exact Nat.add_right_cancel shifted

theorem conserves (moved : Transfers before after source target amount) : Conserves {source, target} before after := by
  intro keys touched
  apply moved.sum_eq
  · exact touched (mem_insert_self source _)
  · exact touched (mem_insert_of_mem (mem_singleton_self target))

theorem of_ne (moved : Transfers before after source target amount) {key : κ} (notSource : key ≠ source)
    (notTarget : key ≠ target) : after key = before key := by
  have same := moved key
  rwa [if_neg notSource, if_neg notTarget, Nat.add_zero, Nat.add_zero] at same

/-- Lowering one balance and then raising another is a transfer, also if they are the same one. -/
theorem of_steps (enough : amount ≤ before source)
    (debit : ∀ key, middle key = if key = source then before source - amount else before key)
    (credit : ∀ key, after key = if key = target then middle target + amount else middle key) :
    Transfers before after source target amount := by
  intro key
  rw [credit]
  by_cases isTarget : key = target
  · subst isTarget
    by_cases isSource : key = source
    · subst isSource
      simp only [↓reduceIte, debit]
      omega
    · simp only [↓reduceIte, debit, if_neg isSource, Nat.add_zero]
  · by_cases isSource : key = source
    · subst isSource
      simp only [↓reduceIte, debit, if_neg isTarget]
      omega
    · simp only [debit, if_neg isTarget, if_neg isSource]

/-- The new balances of a transfer between two keys, written out. -/
theorem of_apply (distinct : source ≠ target) (enough : amount ≤ before source)
    (result : ∀ key, after key = if key = source then before source - amount
      else if key = target then before target + amount else before key) :
    Transfers before after source target amount := by
  intro key
  rw [result]
  split_ifs with isSource isTarget isTarget
  · exact absurd (isSource.symm.trans isTarget) distinct
  · rw [isSource]
    omega
  · rw [isTarget]
    rfl
  · rfl

end Transfers

namespace Conserves

variable {touched touched' : Finset κ}

theorem refl (touched : Finset κ) (balances : κ → ℕ) : Conserves touched balances balances := fun _ _ => rfl

theorem trans (first : Conserves touched before middle) (second : Conserves touched middle after) :
    Conserves touched before after := fun keys within => (second keys within).trans (first keys within)

theorem mono (conserved : Conserves touched before after) (within : touched ⊆ touched') :
    Conserves touched' before after := fun keys more => conserved keys (within.trans more)

theorem of_eq (same : ∀ key, after key = before key) : Conserves touched before after :=
  fun _ _ => sum_congr rfl fun key _ => same key

/-- If only touched keys changed, the sum over them is enough. -/
theorem of_sum_eq (same : ∑ key ∈ touched, after key = ∑ key ∈ touched, before key)
    (others : ∀ key, key ∉ touched → after key = before key) : Conserves touched before after := by
  classical
  intro keys within
  have rest : ∑ key ∈ keys \ touched, after key = ∑ key ∈ keys \ touched, before key := by
    apply sum_congr rfl
    intro key member
    exact others key (mem_sdiff.mp member).2
  rw [← sum_sdiff within, ← sum_sdiff within, same, rest]

/-- What one balance lost, some other one won: if no other balance grew, neither did this one fall. -/
theorem le_of_others_le (conserved : Conserves touched before after) {keys : Finset κ} (within : touched ⊆ keys)
    {key : κ} (member : key ∈ keys) (others : ∀ other ∈ keys, other ≠ key → after other ≤ before other) :
    before key ≤ after key := by
  classical
  have sums := conserved keys within
  rw [← add_sum_erase keys after member, ← add_sum_erase keys before member] at sums
  have rest : ∑ other ∈ keys.erase key, after other ≤ ∑ other ∈ keys.erase key, before other := by
    apply sum_le_sum
    intro other among
    exact others other (mem_of_mem_erase among) (ne_of_mem_erase among)
  omega

end Conserves

end Balances
