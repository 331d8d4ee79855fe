import LazorKit.ToMathlib.Runs
import Mathlib.Algebra.BigOperators.Group.List.Basic
import Mathlib.Algebra.Order.BigOperators.Group.List
import Mathlib.Algebra.Order.Ring.Nat
import Mathlib.Data.List.Induction
import Mathlib.Data.List.Intervals
import Mathlib.Algebra.Order.Group.Nat

/-! # Tumbling windows

A ledger of spends, each at a slot. The first spend after the current window has run out opens the next
one, so a window begins with a spend and lasts at least its width. The ledger's total is what was spent
since that opening. Within an interval as long as one window the spends of two windows can meet; they do
not when every opening keeps the width as distance from the spends before it.
-/

namespace TumblingWindow

/-- An amount spent at a slot. Nothing spent is a spend of zero. -/
structure Spend where
  slot : ℕ
  amount : ℕ
deriving DecidableEq, Repr

/-- The current window: the slot that opened it, zero for the first, and what was spent in it. -/
structure Window where
  opened : ℕ
  total : ℕ
deriving DecidableEq, Repr

/-- The spend finds the window run out. -/
def Opens (width : ℕ) (window : Window) (spend : Spend) : Prop :=
  0 < spend.amount ∧ width < spend.slot - window.opened

instance (width : ℕ) (window : Window) (spend : Spend) : Decidable (Opens width window spend) :=
  inferInstanceAs (Decidable (_ ∧ _))

/-- Enter a spend. -/
def charge (width : ℕ) (window : Window) (spend : Spend) : Window :=
  if Opens width window spend then ⟨spend.slot, spend.amount⟩ else ⟨window.opened, window.total + spend.amount⟩

/-- The window in front of the `i`th spend. -/
def windowAt (width : ℕ) (spends : List Spend) (i : ℕ) : Window := Run.stateAt (charge width) ⟨0, 0⟩ spends i

/-- The `k`th spend opens a window, at this slot. -/
def OpensAt (width : ℕ) (spends : List Spend) (k slot : ℕ) : Prop :=
  ∃ spend, spends[k]? = some spend ∧ spend.slot = slot ∧ Opens width (windowAt width spends k) spend

/-- The sum of the spends from one position up to another. -/
def spentBetween (spends : List Spend) (first last : ℕ) : ℕ := (((spends.take last).drop first).map Spend.amount).sum

/-- What was spent in an interval of slots. -/
def spentWithin (spends : List Spend) (start width : ℕ) : ℕ :=
  ((spends.filter fun spend => start ≤ spend.slot ∧ spend.slot < start + width).map Spend.amount).sum

variable {width : ℕ} {spends : List Spend}

section Charge

variable {window : Window} {spend : Spend}

theorem charge_of_opens (opens : Opens width window spend) : charge width window spend = ⟨spend.slot, spend.amount⟩ :=
  if_pos opens

theorem charge_of_not_opens (stays : ¬Opens width window spend) :
    charge width window spend = ⟨window.opened, window.total + spend.amount⟩ := if_neg stays

/-- A spend of nothing changes nothing. -/
theorem charge_zero (nothing : spend.amount = 0) : charge width window spend = window := by
  rw [charge_of_not_opens fun opens => absurd opens.1 (by omega), nothing, Nat.add_zero]

theorem Opens.lt (opens : Opens width window spend) : window.opened + width < spend.slot := by
  have late := opens.2
  omega

theorem opened_le_charge (width : ℕ) (window : Window) (spend : Spend) :
    window.opened ≤ (charge width window spend).opened := by
  by_cases opens : Opens width window spend
  · have late := opens.lt
    rw [charge_of_opens opens]
    exact (Nat.le_add_right _ width).trans late.le
  · rw [charge_of_not_opens opens]

end Charge

@[simp] theorem windowAt_zero : windowAt width spends 0 = ⟨0, 0⟩ := Run.stateAt_zero

theorem windowAt_succ {i : ℕ} {spend : Spend} (at_ : spends[i]? = some spend) :
    windowAt width spends (i + 1) = charge width (windowAt width spends i) spend := Run.stateAt_succ at_

theorem windowAt_succ_of_none {i : ℕ} (past : spends[i]? = none) :
    windowAt width spends (i + 1) = windowAt width spends i := Run.stateAt_succ_of_none past

/-- Where the window opened never decreases. -/
theorem opened_mono (width : ℕ) (spends : List Spend) {i j : ℕ} (le : i ≤ j) :
    (windowAt width spends i).opened ≤ (windowAt width spends j).opened := by
  induction j, le using Nat.le_induction with
  | base => exact le_rfl
  | succ j _ ih =>
    apply ih.trans
    cases at_ : spends[j]? with
    | none => rw [windowAt_succ_of_none at_]
    | some spend =>
      rw [windowAt_succ at_]
      exact opened_le_charge ..

theorem OpensAt.windowAt_succ {k slot : ℕ} (opens : OpensAt width spends k slot) :
    (windowAt width spends (k + 1)).opened = slot := by
  obtain ⟨spend, at_, rfl, here⟩ := opens
  rw [TumblingWindow.windowAt_succ at_, charge_of_opens here]

/-- Two openings lie more than a width apart. -/
theorem openings_apart {k l first second : ℕ} (opens : OpensAt width spends k first)
    (later : OpensAt width spends l second) (before : k < l) : first + width < second := by
  have kept : (windowAt width spends (k + 1)).opened ≤ (windowAt width spends l).opened :=
    opened_mono width spends before
  rw [opens.windowAt_succ] at kept
  obtain ⟨spend, _, rfl, here⟩ := later
  have late := here.lt
  omega

theorem spentBetween_self (spends : List Spend) (i : ℕ) : spentBetween spends i i = 0 := by simp [spentBetween]

theorem spentBetween_succ {first last : ℕ} {spend : Spend} (le : first ≤ last) (at_ : spends[last]? = some spend) :
    spentBetween spends first (last + 1) = spentBetween spends first last + spend.amount := by
  have inside : last < spends.length := (List.getElem?_eq_some_iff.mp at_).1
  rw [spentBetween, spentBetween, List.take_add_one, at_, List.drop_append_of_le_length]
  · simp
  · rw [List.length_take]
    omega

theorem spentBetween_succ_of_none {first last : ℕ} (past : spends[last]? = none) :
    spentBetween spends first (last + 1) = spentBetween spends first last := by
  rw [spentBetween, spentBetween, List.take_add_one, past, Option.toList_none, List.append_nil]

/-- The window in front of the `i`th spend began with the last opening, or with the ledger, and its total
is what was spent since. -/
theorem windowAt_eq (width : ℕ) (spends : List Spend) (i : ℕ) :
    (windowAt width spends i = ⟨0, spentBetween spends 0 i⟩ ∧ ∀ l < i, ∀ slot, ¬OpensAt width spends l slot) ∨
      ∃ k < i, ∃ slot, OpensAt width spends k slot ∧ windowAt width spends i = ⟨slot, spentBetween spends k i⟩ ∧
        ∀ l < i, ∀ later, OpensAt width spends l later → l ≤ k := by
  induction i with
  | zero => exact .inl ⟨by rw [windowAt_zero, spentBetween_self], fun l early => absurd early (Nat.not_lt_zero l)⟩
  | succ i ih =>
    cases at_ : spends[i]? with
    | none =>
      have quiet : ∀ slot, ¬OpensAt width spends i slot := by
        rintro slot ⟨spend, here, _⟩
        rw [at_] at here
        cases here
      rw [windowAt_succ_of_none at_]
      simp only [spentBetween_succ_of_none at_]
      rcases ih with ⟨state, never⟩ | ⟨k, before, slot, opens, state, last⟩
      · refine .inl ⟨state, fun l early => ?_⟩
        rcases Nat.lt_succ_iff_lt_or_eq.mp early with inside | rfl
        · exact never l inside
        · exact quiet
      · refine .inr ⟨k, by omega, slot, opens, state, fun l early later opened => ?_⟩
        rcases Nat.lt_succ_iff_lt_or_eq.mp early with inside | rfl
        · exact last l inside later opened
        · exact absurd opened (quiet later)
    | some spend =>
      rw [windowAt_succ at_]
      by_cases opens : Opens width (windowAt width spends i) spend
      · refine .inr ⟨i, by omega, spend.slot, ⟨spend, at_, rfl, opens⟩, ?_, fun l early _ _ => by omega⟩
        rw [charge_of_opens opens, spentBetween_succ le_rfl at_, spentBetween_self, Nat.zero_add]
      · have quiet : ∀ slot, ¬OpensAt width spends i slot := by
          rintro slot ⟨other, here, _, opened⟩
          rw [at_] at here
          cases here
          exact opens opened
        rw [charge_of_not_opens opens]
        rcases ih with ⟨state, never⟩ | ⟨k, before, slot, opened, state, last⟩
        · refine .inl ⟨by rw [state, spentBetween_succ (Nat.zero_le i) at_], fun l early => ?_⟩
          rcases Nat.lt_succ_iff_lt_or_eq.mp early with inside | rfl
          · exact never l inside
          · exact quiet
        · refine .inr ⟨k, by omega, slot, opened, by rw [state, spentBetween_succ before.le at_], ?_⟩
          intro l early later again
          rcases Nat.lt_succ_iff_lt_or_eq.mp early with inside | rfl
          · exact last l inside later again
          · exact absurd again (quiet later)

/-- Every opening keeps the width as distance from the spends before it. -/
def Rested (width : ℕ) (spends : List Spend) : Prop :=
  ∀ k slot, OpensAt width spends k slot → ∀ earlier ∈ spends.take k, 0 < earlier.amount → earlier.slot + width ≤ slot

theorem windowAt_append {i : ℕ} (spend : Spend) (le : i ≤ spends.length) :
    windowAt width (spends ++ [spend]) i = windowAt width spends i := by
  rw [windowAt, windowAt, Run.stateAt, Run.stateAt, List.take_append_of_le_length le]

theorem windowAt_append_length (spend : Spend) :
    windowAt width (spends ++ [spend]) (spends.length + 1) =
      charge width (windowAt width spends spends.length) spend := by
  have at_ : (spends ++ [spend])[spends.length]? = some spend := by simp
  rw [windowAt_succ at_, windowAt_append spend le_rfl]

theorem Rested.of_append {spend : Spend} (rested : Rested width (spends ++ [spend])) : Rested width spends := by
  rintro k slot ⟨other, at_, here, opens⟩ earlier member
  have inside : k < spends.length := (List.getElem?_eq_some_iff.mp at_).1
  refine rested k slot ⟨other, ?_, here, ?_⟩ earlier ?_
  · rw [List.getElem?_append_left inside, at_]
  · rwa [windowAt_append spend inside.le]
  · rwa [List.take_append_of_le_length inside.le]

theorem Rested.last {spend : Spend} (rested : Rested width (spends ++ [spend]))
    (opens : Opens width (windowAt width spends spends.length) spend) {earlier : Spend} (member : earlier ∈ spends)
    (some_ : 0 < earlier.amount) : earlier.slot + width ≤ spend.slot := by
  refine rested spends.length spend.slot ⟨spend, by simp, rfl, ?_⟩ earlier (by simpa using member) some_
  rwa [windowAt_append spend le_rfl]

theorem spentWithin_append (spend : Spend) (start : ℕ) :
    spentWithin (spends ++ [spend]) start width = spentWithin spends start width +
      if start ≤ spend.slot ∧ spend.slot < start + width then spend.amount else 0 := by
  rw [spentWithin, List.filter_append, List.map_append, List.sum_append, ← spentWithin, List.filter_singleton]
  by_cases inside : start ≤ spend.slot ∧ spend.slot < start + width
  · simp [inside]
  · simp [inside]

/-- While the interval lasts, what was spent in it belongs to the current window. -/
theorem spentWithin_le_total {start : ℕ} (rested : Rested width spends)
    (lasts : ∀ spend ∈ spends, spend.slot < start + width) :
    spentWithin spends start width ≤ (windowAt width spends spends.length).total := by
  induction spends using List.reverseRecOn with
  | nil => exact Nat.zero_le _
  | append_singleton spends spend ih =>
    have own := lasts spend (by simp)
    have part : (if start ≤ spend.slot ∧ spend.slot < start + width then spend.amount else 0) ≤ spend.amount := by
      split
      · exact le_rfl
      · exact Nat.zero_le _
    rw [spentWithin_append, List.length_append, List.length_singleton, windowAt_append_length]
    by_cases opens : Opens width (windowAt width spends spends.length) spend
    · -- The spends of the window before lie in front of the interval.
      have nothing : spentWithin spends start width = 0 := by
        apply List.sum_eq_zero
        intro amount member
        obtain ⟨earlier, found, rfl⟩ := List.mem_map.mp member
        obtain ⟨here, inside⟩ := List.mem_filter.mp found
        have inside := of_decide_eq_true inside
        by_contra some_
        have distance := rested.last opens here (Nat.pos_of_ne_zero some_)
        omega
      rw [charge_of_opens opens, nothing, Nat.zero_add]
      exact part
    · rw [charge_of_not_opens opens]
      apply Nat.add_le_add _ part
      exact ih rested.of_append fun earlier member => lasts earlier (by simp [member])

/-- A bound on every window's total bounds what is spent in any interval as long as a window. -/
theorem spentWithin_le {start limit : ℕ} (rested : Rested width spends)
    (ordered : spends.Pairwise fun first second => first.slot ≤ second.slot)
    (bounded : ∀ i, (windowAt width spends i).total ≤ limit) : spentWithin spends start width ≤ limit := by
  induction spends using List.reverseRecOn with
  | nil => exact Nat.zero_le _
  | append_singleton spends spend ih =>
    obtain ⟨front, _, across⟩ := List.pairwise_append.mp ordered
    by_cases inside : start ≤ spend.slot ∧ spend.slot < start + width
    · apply (spentWithin_le_total rested _).trans (bounded _)
      intro earlier member
      rcases List.mem_append.mp member with early | last
      · have before := across earlier early spend (by simp)
        omega
      · rw [List.mem_singleton.mp last]
        exact inside.2
    · rw [spentWithin_append, if_neg inside, Nat.add_zero]
      apply ih rested.of_append front
      intro i
      rcases Nat.le_total i spends.length with early | late
      · rw [← windowAt_append spend early]
        exact bounded i
      · rw [windowAt, Run.stateAt, List.take_of_length_le late]
        have last := bounded spends.length
        rwa [windowAt_append spend le_rfl, windowAt, Run.stateAt, List.take_length] at last

/-- Cutting off a last spend outside the interval keeps what is spent in it and the bound on the totals. -/
theorem bounded_of_append {spend : Spend} {limit : ℕ}
    (bounded : ∀ i, (windowAt width (spends ++ [spend]) i).total ≤ limit)
    (i : ℕ) : (windowAt width spends i).total ≤ limit := by
  rcases Nat.le_total i spends.length with early | late
  · rw [← windowAt_append spend early]
    exact bounded i
  · rw [windowAt, Run.stateAt, List.take_of_length_le late]
    have last := bounded spends.length
    rwa [windowAt_append spend le_rfl, windowAt, Run.stateAt, List.take_length] at last

theorem spentWithin_eq_zero {start length : ℕ} (early : ∀ spend ∈ spends, spend.slot < start) :
    spentWithin spends start length = 0 := by
  apply List.sum_eq_zero
  intro amount member
  obtain ⟨spend, found, rfl⟩ := List.mem_map.mp member
  obtain ⟨here, inside⟩ := List.mem_filter.mp found
  have inside := of_decide_eq_true inside
  have before := early spend here
  omega

/-- A window opened at a spend, or never. -/
theorem opened_lt {last i : ℕ} (positive : 0 < last) (lasts : ∀ spend ∈ spends, spend.slot < last) :
    (windowAt width spends i).opened < last := by
  induction i with
  | zero =>
    rw [windowAt_zero]
    exact positive
  | succ i ih =>
    cases at_ : spends[i]? with
    | none => rwa [windowAt_succ_of_none at_]
    | some spend =>
      rw [windowAt_succ at_]
      by_cases opens : Opens width (windowAt width spends i) spend
      · rw [charge_of_opens opens]
        exact lasts spend (List.mem_of_getElem? at_)
      · rw [charge_of_not_opens opens]
        exact ih

/-- While an interval lasts, what was spent in it belongs to the current window and to those before, and these are no
more than there is room for in front of the current one. -/
theorem spentWithin_le_current {start length limit : ℕ}
    (ordered : spends.Pairwise fun first second => first.slot ≤ second.slot)
    (bounded : ∀ i, (windowAt width spends i).total ≤ limit) (lasts : ∀ spend ∈ spends, spend.slot < start + length) :
    spentWithin spends start length ≤ (windowAt width spends spends.length).total +
      if (windowAt width spends spends.length).opened < start then 0
      else ((windowAt width spends spends.length).opened - start) / (width + 1) * limit + limit := by
  induction spends using List.reverseRecOn with
  | nil => exact Nat.zero_le _
  | append_singleton spends spend ih =>
    obtain ⟨front, _, across⟩ := List.pairwise_append.mp ordered
    have own := lasts spend (by simp)
    have before := ih front (bounded_of_append bounded) fun earlier member => lasts earlier (by simp [member])
    have full := bounded_of_append bounded spends.length
    rw [spentWithin_append, List.length_append, List.length_singleton, windowAt_append_length]
    by_cases opens : Opens width (windowAt width spends spends.length) spend
    · have late := opens.lt
      rw [charge_of_opens opens]
      dsimp only
      by_cases inside : start ≤ spend.slot
      · rw [if_pos ⟨inside, own⟩, if_neg (by omega : ¬ spend.slot < start)]
        split at before
        · omega
        · next running =>
          -- The window before ended in the interval, so it was opened a whole width earlier.
          have room : ((windowAt width spends spends.length).opened - start) / (width + 1) + 1 ≤
              (spend.slot - start) / (width + 1) := by
            rw [← Nat.add_div_right _ (Nat.succ_pos width)]
            exact Nat.div_le_div_right (by omega)
          have more := Nat.mul_le_mul_right limit room
          rw [Nat.succ_mul] at more
          omega
      · have nothing : spentWithin spends start length = 0 := by
          apply spentWithin_eq_zero
          intro earlier member
          have first := across earlier member spend (by simp)
          omega
        rw [nothing, if_neg fun within => inside within.1]
        exact Nat.zero_le _
    · rw [charge_of_not_opens opens]
      have part : (if start ≤ spend.slot ∧ spend.slot < start + length then spend.amount else 0) ≤ spend.amount := by
        split
        · exact le_rfl
        · exact Nat.zero_le _
      dsimp only
      omega

/-- A bound on every window's total: as many slots as `n` windows take hold no more than `n + 1` times as much, for the
first spends can belong to a window that was open already. -/
theorem spentWithin_le_mul {start limit : ℕ} (n : ℕ)
    (ordered : spends.Pairwise fun first second => first.slot ≤ second.slot)
    (bounded : ∀ i, (windowAt width spends i).total ≤ limit) :
    spentWithin spends start (n * (width + 1)) ≤ (n + 1) * limit := by
  induction spends using List.reverseRecOn with
  | nil => exact Nat.zero_le _
  | append_singleton spends spend ih =>
    obtain ⟨front, _, across⟩ := List.pairwise_append.mp ordered
    by_cases inside : start ≤ spend.slot ∧ spend.slot < start + n * (width + 1)
    · have lasts : ∀ earlier ∈ spends ++ [spend], earlier.slot < start + n * (width + 1) := by
        intro earlier member
        rcases List.mem_append.mp member with early | last
        · have before := across earlier early spend (by simp)
          omega
        · rw [List.mem_singleton.mp last]
          exact inside.2
      have current := spentWithin_le_current ordered bounded lasts
      have full := bounded (spends ++ [spend]).length
      rw [Nat.succ_mul]
      split at current
      · omega
      · have opened : (windowAt width (spends ++ [spend]) (spends ++ [spend]).length).opened <
            start + n * (width + 1) :=
          opened_lt (by omega) lasts
        have windows : ((windowAt width (spends ++ [spend]) (spends ++ [spend]).length).opened - start) / (width + 1) <
            n := Nat.div_lt_of_lt_mul (by rw [Nat.mul_comm]; omega)
        have most := Nat.mul_le_mul_right limit (Nat.succ_le_of_lt windows)
        rw [Nat.succ_mul] at most
        omega
    · rw [spentWithin_append, if_neg inside, Nat.add_zero]
      exact ih front (bounded_of_append bounded)

section Positions

variable (amount slot : ℕ → ℕ)

/-- The spends at the positions from `i` up to `j` at which something is spent. -/
def spendsBetween (i j : ℕ) : List Spend :=
  ((List.Ico i j).filter fun l => 0 < amount l).map fun l => ⟨slot l, amount l⟩

theorem spendsBetween_succ {i j : ℕ} (le : i ≤ j) : spendsBetween amount slot i (j + 1) =
    spendsBetween amount slot i j ++ if 0 < amount j then [⟨slot j, amount j⟩] else [] := by
  rw [spendsBetween, List.Ico.succ_top le, List.filter_append, List.map_append, ← spendsBetween, List.filter_singleton]
  by_cases some_ : 0 < amount j
  · simp [some_]
  · simp [some_]

/-- A position takes the window one spend further, which may be of nothing. -/
theorem windowAt_spendsBetween_succ {i j : ℕ} (le : i ≤ j) :
    windowAt width (spendsBetween amount slot i (j + 1)) (spendsBetween amount slot i (j + 1)).length =
      charge width (windowAt width (spendsBetween amount slot i j) (spendsBetween amount slot i j).length)
        ⟨slot j, amount j⟩ := by
  rw [spendsBetween_succ amount slot le]
  split
  · rw [List.length_append, List.length_singleton, windowAt_append_length]
  · next nothing =>
    rw [List.append_nil, charge_zero (Nat.eq_zero_of_not_pos nothing)]

/-- The window in front of any spend is the one at some position. -/
theorem exists_windowAt_spendsBetween {i j : ℕ} (le : i ≤ j) (n : ℕ) : ∃ l, i ≤ l ∧ l ≤ j ∧
    windowAt width (spendsBetween amount slot i j) n =
      windowAt width (spendsBetween amount slot i l) (spendsBetween amount slot i l).length := by
  induction j, le using Nat.le_induction with
  | base =>
    refine ⟨i, le_rfl, le_rfl, ?_⟩
    simp [spendsBetween, windowAt, Run.stateAt]
  | succ j le ih =>
    rcases Nat.le_total n (spendsBetween amount slot i j).length with early | late
    · obtain ⟨l, low, high, same⟩ := ih
      refine ⟨l, low, by omega, ?_⟩
      rw [← same, spendsBetween_succ amount slot le, windowAt, windowAt, Run.stateAt, Run.stateAt,
        List.take_append_of_le_length early]
    · rcases Nat.lt_or_ge n (spendsBetween amount slot i (j + 1)).length with inside | past
      · have only : n = (spendsBetween amount slot i j).length := by
          rw [spendsBetween_succ amount slot le, List.length_append] at inside
          split at inside <;> simp at inside <;> omega
        refine ⟨j, le, by omega, ?_⟩
        rw [only, spendsBetween_succ amount slot le, windowAt, windowAt, Run.stateAt, Run.stateAt,
          List.take_append_of_le_length le_rfl]
      · refine ⟨j + 1, by omega, le_rfl, ?_⟩
        rw [windowAt, windowAt, Run.stateAt, Run.stateAt, List.take_of_length_le past, List.take_length]

theorem spentWithin_spendsBetween {i j : ℕ} (le : i ≤ j) (start length : ℕ) :
    spentWithin (spendsBetween amount slot i j) start length =
      ∑ l ∈ (Finset.Ico i j).filter fun l => start ≤ slot l ∧ slot l < start + length, amount l := by
  induction j, le using Nat.le_induction with
  | base => simp [spendsBetween, spentWithin]
  | succ j le ih =>
    rw [spendsBetween_succ amount slot le, Finset.sum_filter, Finset.sum_Ico_succ_top le, ← Finset.sum_filter, ← ih]
    by_cases some_ : 0 < amount j
    · rw [if_pos some_, spentWithin_append]
    · rw [if_neg some_, List.append_nil, Nat.eq_zero_of_not_pos some_, ite_self, Nat.add_zero]

theorem pairwise_spendsBetween {i j : ℕ}
    (ordered : ∀ k l, i ≤ k → k < l → l < j → 0 < amount k → 0 < amount l → slot k ≤ slot l) :
    (spendsBetween amount slot i j).Pairwise fun first second => first.slot ≤ second.slot := by
  rw [spendsBetween, List.pairwise_map]
  apply (List.Pairwise.filter _ (List.Ico.pairwise_lt i j)).imp_of_mem
  intro k l first second before
  obtain ⟨here, some_⟩ := List.mem_filter.mp first
  obtain ⟨there, other⟩ := List.mem_filter.mp second
  rw [List.Ico.mem] at here there
  exact ordered k l here.1 before there.2 (of_decide_eq_true some_) (of_decide_eq_true other)

/-- Where no window at any position is over the limit, as many slots as `n` windows take hold no more than `n + 1` times
the limit. -/
theorem sum_within_le {i j limit start : ℕ} (le : i ≤ j) (n : ℕ)
    (ordered : ∀ k l, i ≤ k → k < l → l < j → 0 < amount k → 0 < amount l → slot k ≤ slot l)
    (bounded : ∀ l, i ≤ l → l ≤ j →
      (windowAt width (spendsBetween amount slot i l) (spendsBetween amount slot i l).length).total ≤ limit) :
    ∑ l ∈ (Finset.Ico i j).filter (fun l => start ≤ slot l ∧ slot l < start + n * (width + 1)), amount l ≤
      (n + 1) * limit := by
  rw [← spentWithin_spendsBetween amount slot le]
  apply spentWithin_le_mul n (pairwise_spendsBetween amount slot ordered)
  intro k
  obtain ⟨l, low, high, same⟩ := exists_windowAt_spendsBetween amount slot le k
  rw [same]
  exact bounded l low high

end Positions

end TumblingWindow
