import Mathlib.Algebra.BigOperators.Intervals
import Mathlib.Algebra.Order.BigOperators.Group.Finset
import Mathlib.Data.List.Basic
import Mathlib.Order.Basic
import Mathlib.Tactic.Common

/-! # Runs of a deterministic system

A run folds a step function over a list of events. `stateAt` is the state in front of an event.
Besides the invariant rule there is one rule about the past: a property that holds now and did not
hold earlier was made true by one particular event and has held ever since.
-/

namespace Run

variable {σ ε : Type} {step : σ → ε → σ} {start : σ} {events : List ε}

/-- The state in front of the `i`th event; past the end, the final state. -/
def stateAt (step : σ → ε → σ) (start : σ) (events : List ε) (i : ℕ) : σ := (events.take i).foldl step start

@[simp] theorem stateAt_zero : stateAt step start events 0 = start := by simp [stateAt]

theorem stateAt_succ {i : ℕ} {event : ε} (at_ : events[i]? = some event) :
    stateAt step start events (i + 1) = step (stateAt step start events i) event := by
  simp [stateAt, List.take_add_one, at_]

theorem stateAt_succ_of_none {i : ℕ} (past : events[i]? = none) :
    stateAt step start events (i + 1) = stateAt step start events i := by
  simp [stateAt, List.take_add_one, past]

/-- What every event preserves holds in front of every event. -/
theorem invariant {P : σ → Prop} (initial : P start) (preserved : ∀ s event, P s → P (step s event)) (i : ℕ) :
    P (stateAt step start events i) := by
  induction i with
  | zero => simpa using initial
  | succ i ih =>
    cases at_ : events[i]? with
    | none => rwa [stateAt_succ_of_none at_]
    | some event =>
      rw [stateAt_succ at_]
      exact preserved _ _ ih

/-- What the events between two positions preserve, the run between them preserves. -/
theorem invariant_between {P : σ → Prop} {i j : ℕ} (le : i ≤ j) (initial : P (stateAt step start events i))
    (preserved : ∀ k event, i ≤ k → k < j → events[k]? = some event →
      P (stateAt step start events k) → P (step (stateAt step start events k) event)) :
    P (stateAt step start events j) := by
  induction j with
  | zero =>
    cases Nat.le_zero.mp le
    exact initial
  | succ j ih =>
    rcases Nat.lt_or_ge j i with early | late
    · have same : i = j + 1 := by omega
      exact same ▸ initial
    · have here := ih late fun k event low high => preserved k event low (by omega)
      cases at_ : events[j]? with
      | none => rwa [stateAt_succ_of_none at_]
      | some event =>
        rw [stateAt_succ at_]
        exact preserved j event late (by omega) at_ here

/-- A property that fails at `i` and holds at `j` was established by an event between them and held
from then on. -/
theorem exists_establishing_event {P : σ → Prop} {i j : ℕ} (le : i ≤ j)
    (before : ¬P (stateAt step start events i)) (now : P (stateAt step start events j)) :
    ∃ k event, i ≤ k ∧ k < j ∧ events[k]? = some event ∧ ¬P (stateAt step start events k) ∧
      P (step (stateAt step start events k) event) ∧
      ∀ l, k < l → l ≤ j → P (stateAt step start events l) := by
  induction j with
  | zero =>
    cases Nat.le_zero.mp le
    exact absurd now before
  | succ j ih =>
    have further : i ≤ j := by
      by_contra early
      have same : i = j + 1 := by omega
      exact before (same ▸ now)
    by_cases held : P (stateAt step start events j)
    · obtain ⟨k, event, low, high, at_, fails, holds, since⟩ := ih further held
      refine ⟨k, event, low, by omega, at_, fails, holds, fun l late early => ?_⟩
      rcases Nat.lt_or_ge l (j + 1) with inside | last
      · exact since l late (by omega)
      · have same : l = j + 1 := by omega
        exact same ▸ now
    · cases at_ : events[j]? with
      | none =>
        rw [stateAt_succ_of_none at_] at now
        exact absurd now held
      | some event =>
        rw [stateAt_succ at_] at now
        refine ⟨j, event, further, by omega, at_, held, now, fun l late early => ?_⟩
        have same : l = j + 1 := by omega
        rw [same, stateAt_succ at_]
        exact now

/-- A property that did not hold at the start and that only writers establish was left behind by the last
writer. -/
theorem exists_last_writer {P : σ → Prop} {Writes : ℕ → Prop} {j : ℕ} (initial : ¬P start)
    (kept : ∀ k, ¬Writes k → P (stateAt step start events (k + 1)) → P (stateAt step start events k))
    (now : P (stateAt step start events j)) :
    ∃ k < j, Writes k ∧ P (stateAt step start events (k + 1)) ∧ ∀ l, k < l → l < j → ¬Writes l := by
  induction j with
  | zero => exact absurd (by simpa using now) initial
  | succ j ih =>
    by_cases writes : Writes j
    · exact ⟨j, Nat.lt_succ_self j, writes, now, fun l late early => by omega⟩
    · obtain ⟨k, before, wrote, held, since⟩ := ih (kept j writes now)
      refine ⟨k, by omega, wrote, held, fun l late early => ?_⟩
      rcases Nat.lt_succ_iff_lt_or_eq.mp early with inside | last
      · exact since l late inside
      · rw [last]
        exact writes

/-- What an observer notes at each event, looking at the state in front of it. -/
def observe {ω : Type} (note : σ → ε → ω) (step : σ → ε → σ) : σ → List ε → List ω
  | _, [] => []
  | state, event :: rest => note state event :: observe note step (step state event) rest

theorem getElem?_observe {ω : Type} {note : σ → ε → ω} (i : ℕ) :
    (observe note step start events)[i]? = events[i]?.map (note (stateAt step start events i)) := by
  induction events generalizing start i with
  | nil => rfl
  | cons event rest ih =>
    cases i with
    | zero => rfl
    | succ i =>
      rw [observe, List.getElem?_cons_succ, ih, List.getElem?_cons_succ]
      rfl

/-- A part of the notes that the state has no say in is a function of the events. -/
theorem map_observe {ω τ : Type} {note : σ → ε → ω} {part : ω → τ} {own : ε → τ}
    (plain : ∀ state event, part (note state event) = own event) :
    (observe note step start events).map part = events.map own := by
  induction events generalizing start with
  | nil => rfl
  | cons event rest ih => rw [observe, List.map_cons, List.map_cons, plain, ih]

/-- What every position takes out of a balance, all positions together take out of it. -/
theorem sum_add_le_of_charges (balance charge : ℕ → ℕ) {i j : ℕ} (le : i ≤ j)
    (charged : ∀ k, i ≤ k → k < j → balance (k + 1) + charge k ≤ balance k) :
    balance j + ∑ k ∈ Finset.Ico i j, charge k ≤ balance i := by
  induction j, le using Nat.le_induction with
  | base => simp
  | succ j late ih =>
    have before := ih fun k low high => charged k low (by omega)
    have last := charged j late (Nat.lt_succ_self j)
    rw [Finset.sum_Ico_succ_top late]
    omega

end Run
