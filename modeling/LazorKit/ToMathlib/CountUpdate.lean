import Mathlib.Algebra.BigOperators.Finprod
import Mathlib.Data.Set.Card
import Mathlib.Tactic.Common

/-! # Counting and summing a family, across one update

The number of places at which a family satisfies a property changes by at most one when the family
is updated at one place, and by exactly what the old and the new value there say. So does a sum of
amounts over all places.
-/

namespace Function

variable {κ α : Type} [DecidableEq κ] [Finite κ]

open scoped Classical in
/-- Counting after an update, written without subtraction. -/
theorem ncard_update (f : κ → α) (k : κ) (v : α) (p : α → Prop) :
    {i | p (update f k v i)}.ncard + (if p (f k) then 1 else 0) =
      {i | p (f i)}.ncard + (if p v then 1 else 0) := by
  have count (g : κ → α) : {i | p (g i)}.ncard = {i | i ≠ k ∧ p (g i)}.ncard + (if p (g k) then 1 else 0) := by
    split
    · next holds =>
      have insertion : {i | p (g i)} = insert k {i | i ≠ k ∧ p (g i)} := by
        ext i
        by_cases same : i = k
        · simp [same, holds]
        · simp [same]
      rw [insertion, Set.ncard_insert_of_notMem (by simp)]
    · next fails =>
      have same : {i | p (g i)} = {i | i ≠ k ∧ p (g i)} := by
        ext i
        by_cases same : i = k
        · simp [same, fails]
        · simp [same]
      rw [← same, Nat.add_zero]
  have elsewhere : {i | i ≠ k ∧ p (update f k v i)} = {i | i ≠ k ∧ p (f i)} := by
    ext i
    by_cases same : i = k
    · simp [same]
    · simp [same]
  rw [count (update f k v), count f, elsewhere, update_self]
  omega

/-- A sum after an update, written without subtraction. -/
theorem finsum_update (f : κ → α) (k : κ) (v : α) (amount : α → ℕ) :
    (∑ᶠ i, amount (update f k v i)) + amount (f k) = (∑ᶠ i, amount (f i)) + amount v := by
  have fintype := Fintype.ofFinite κ
  have elsewhere : ∑ i ∈ Finset.univ.erase k, amount (update f k v i) = ∑ i ∈ Finset.univ.erase k, amount (f i) := by
    apply Finset.sum_congr rfl
    intro i member
    rw [update_of_ne (Finset.ne_of_mem_erase member)]
  rw [finsum_eq_sum_of_fintype, finsum_eq_sum_of_fintype, ← Finset.add_sum_erase _ _ (Finset.mem_univ k), elsewhere,
    ← Finset.add_sum_erase Finset.univ (fun i => amount (f i)) (Finset.mem_univ k), update_self]
  omega

end Function
