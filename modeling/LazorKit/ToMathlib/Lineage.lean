import Mathlib.Algebra.Order.Group.Nat
import Mathlib.Tactic.Common

/-! # Lineage

Things come and go, and whatever appears was made by something that was there. What is there at one time then goes
back, from maker to maker, to something that has been there ever since an earlier time. A listing taken at that
earlier time so says who can be behind anything seen later, whatever happened in between.
-/

namespace Lineage

variable {α : Type*} (live : ℕ → α → Prop) (makes : ℕ → α → α → Prop) (root : ℕ → α → Prop) (first : ℕ)

/-- Made, through any number of makers, by something that was a root at the time. -/
inductive Traces : ℕ → α → Prop
  | root {j : ℕ} {a : α} (is : root j a) : Traces j a
  | made {k j : ℕ} {creator a : α} (since : first ≤ k) (before : k < j) (makes : makes k creator a)
      (creator_traces : Traces k creator) (lives : ∀ l, k < l → l ≤ j → live l a) : Traces j a

variable {live makes root first} {i j k : ℕ} {a creator : α}

/-- What is there now has been there all along, or appeared at some time and has stayed. -/
theorem lives_or_appears (le : i ≤ j) (here : live j a) :
    (∀ l, i ≤ l → l ≤ j → live l a) ∨
      ∃ k, i ≤ k ∧ k < j ∧ ¬live k a ∧ ∀ l, k < l → l ≤ j → live l a := by
  induction j, le using Nat.le_induction with
  | base =>
    refine .inl fun l low high => ?_
    rwa [le_antisymm high low]
  | succ j le ih =>
    have now (l : ℕ) (low : j < l) (high : l ≤ j + 1) : live l a := by
      rwa [show l = j + 1 by omega]
    by_cases before : live j a
    · rcases ih before with all | ⟨k, low, high, gone, since⟩
      · refine .inl fun l low high => ?_
        rcases Nat.lt_or_ge j l with late | early
        · exact now l late high
        · exact all l low early
      · refine .inr ⟨k, low, by omega, gone, fun l after high => ?_⟩
        rcases Nat.lt_or_ge j l with late | early
        · exact now l late high
        · exact since l after early
    · exact .inr ⟨j, le, Nat.lt_succ_self j, before, now⟩

/-- Where everything that appears is made by something there, and what has been there since the first time is a root,
everything there traces to a root. -/
theorem traces_of_live
    (appears : ∀ k a, first ≤ k → ¬live k a → live (k + 1) a → ∃ creator, live k creator ∧ makes k creator a)
    (stays : ∀ j a, first ≤ j → (∀ l, first ≤ l → l ≤ j → live l a) → root j a) (le : first ≤ j) (here : live j a) :
    Traces live makes root first j a := by
  induction j using Nat.strong_induction_on generalizing a with
  | _ j ih =>
    rcases lives_or_appears le here with all | ⟨k, low, high, gone, since⟩
    · exact .root (stays j a le all)
    · obtain ⟨creator, there, made⟩ := appears k a low gone (since (k + 1) (by omega) (by omega))
      exact .made low high made (ih k high low there) since

end Lineage
