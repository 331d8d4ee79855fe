import LazorKit.Soundness.LifetimeLimit

/-! # Limits per window

The totals a limit per window stores are a tumbling window over what the accepted calls let out: it opens
with a spend, lasts longer than its width, and holds what was let out since. Each window therefore keeps
the limit. An interval that is as long as a window need not: it can hold the end of one window and the
beginning of the next, unless each window opens at least a width after the last spend of the one before.
-/

namespace LazorKit

open Solana TumblingWindow

/-- A limit per window is created unspent and never opened, with a window that is not empty. -/
theorem recurring_created {loc : PolicyLocation} {data : Bytes} {actions : List ActionView} {action : ActionView}
    (valid : validateActionsBuffer (loc.slice data) = .ok ()) (parsed : parseActions (loc.slice data) = .ok actions)
    (member : action ∈ actions) (recurring : action.actionType.isRecurring = true) :
    StoresWindow data loc action ⟨0, 0⟩ ∧ 0 < fieldAt data loc action 16 := by
  unfold validateActionsBuffer at valid
  split at valid
  · next empty =>
    rw [List.isEmpty_iff.mp empty] at parsed
    cases parsed
    cases member
  · simp only [Except.bind_eq_ok, Except.ensure_eq_ok, exists_const, parsed, Except.ok.injEq, exists_eq_left'] at valid
    obtain ⟨_, _, _, _, _, _, _, _, _, _, _, initial⟩ := valid
    have own := Except.forM_eq_ok.mp initial action member
    have position (field : ℕ) : ((loc.slice data).slice field 8).toNatLE = storedU64 data (loc.abs field) := by
      rw [storedU64, PolicyLocation.slice, PolicyLocation.abs, Bytes.slice_drop]
    have base : checkRecurringInitial (loc.slice data) action action.actionType.fieldBase = .ok () := by
      cases kind : action.actionType with
      | solRecurringLimit | tokenRecurringLimit =>
        rw [checkInitialState, kind] at own
        exact own
      | _ => simp [kind, ActionType.isRecurring] at recurring
    simp only [checkRecurringInitial, readU64, Except.bind_eq_ok, Except.ensure_eq_ok, exists_const, Except.ok.injEq]
      at base
    obtain ⟨spent, ⟨_, rfl⟩, unspent, window, ⟨_, rfl⟩, wide, reset, ⟨_, rfl⟩, fresh⟩ := base
    rw [position] at unspent wide fresh
    have at_ (field : ℕ) : fieldAt data loc action field =
        storedU64 data (loc.abs (action.dataOffset + action.actionType.fieldBase + field)) := by
      simp only [fieldAt, PolicyLocation.abs, Nat.add_assoc]
    refine ⟨⟨?_, ?_⟩, ?_⟩
    · rw [at_]
      exact fresh
    · rw [at_]
      exact unspent.trans (Nat.zero_min _).symm
    · rw [at_]
      exact Nat.pos_of_ne_zero wide

/-- The call is accepted, lets out of the action's asset, and finds the stored window run out. -/
structure OpensWindow (loc : PolicyLocation) (action : ActionView) (data : Bytes) (call : Evaluation) : Prop where
  accepts : call.Accepts loc data
  spends : 0 < (assetOf data loc action).outflow call
  late : fieldAt data loc action 16 < call.slot.toNat - fieldAt data loc action 24

section Run

variable {loc : PolicyLocation} {data : Bytes} {actions : List ActionView} {action : ActionView}

/-- At every point of a run the account stores the window over what the calls so far let out. -/
theorem storesWindow_dataAt (created : Carries loc actions data data) (member : action ∈ actions)
    (recurring : action.actionType.isRecurring = true) (fresh : StoresWindow data loc action ⟨0, 0⟩)
    (calls : List Evaluation) (i : ℕ) :
    StoresWindow (Evaluation.dataAt loc data calls i) loc action
        (windowAt (fieldAt data loc action 16) (Evaluation.spends loc (assetOf data loc action) data calls) i) ∧
      fieldAt (Evaluation.dataAt loc data calls i) loc action 8 ≤ fieldAt data loc action 0 := by
  induction i with
  | zero =>
    rw [windowAt_zero, Evaluation.dataAt, Run.stateAt_zero]
    exact ⟨fresh, fresh.spent.trans_le (Nat.zero_le _)⟩
  | succ i ih =>
    have spend := Evaluation.getElem?_spends loc (assetOf data loc action) data calls i
    cases at_ : calls[i]? with
    | none =>
      rw [at_, Option.map_none] at spend
      rw [windowAt_succ_of_none spend, Evaluation.dataAt, Run.stateAt_succ_of_none at_]
      exact ih
    | some call =>
      rw [at_, Option.map_some] at spend
      have carries := created.dataAt calls i
      rw [windowAt_succ spend, Evaluation.dataAt, Run.stateAt_succ at_]
      exact ⟨window_step carries member recurring ih.1 call, window_bounded carries member recurring ih.2 call⟩

/-- The spends that open a window are those of the calls that do. -/
theorem opensAt_iff (created : Carries loc actions data data) (member : action ∈ actions)
    (recurring : action.actionType.isRecurring = true) (fresh : StoresWindow data loc action ⟨0, 0⟩)
    (calls : List Evaluation) {k slot : ℕ} :
    OpensAt (fieldAt data loc action 16) (Evaluation.spends loc (assetOf data loc action) data calls) k slot ↔
      ∃ call, calls[k]? = some call ∧ call.slot.toNat = slot ∧
        OpensWindow loc action (Evaluation.dataAt loc data calls k) call := by
  have carries := created.dataAt calls k
  have asset := carries.assetOf_eq member
  have width := (carries.fieldAt_eq member recurring).2
  have stores := (storesWindow_dataAt created member recurring fresh calls k).1
  simp only [OpensAt, Evaluation.getElem?_spends, Option.map_eq_some_iff]
  constructor
  · rintro ⟨spend, ⟨call, at_, rfl⟩, here, some_, late⟩
    rw [Evaluation.spent] at some_
    split at some_
    · next accepts =>
      refine ⟨call, at_, here, accepts, by rwa [asset], ?_⟩
      rw [width, stores.lastReset]
      exact late
    · exact absurd some_ (Nat.lt_irrefl 0)
  · rintro ⟨call, at_, here, opens⟩
    refine ⟨_, ⟨call, at_, rfl⟩, here, ?_, ?_⟩
    · have spends := opens.spends
      rw [asset] at spends
      rwa [Evaluation.spent, if_pos opens.accepts]
    · have late := opens.late
      rwa [width, stores.lastReset] at late

end Run

/-- The stored totals of a limit per window refine a tumbling window. `last_reset` is zero or the slot of
the accepted call that opened the window, `spent` is what was let out since, as far as a `u64` holds it,
and it keeps the limit; below the largest `u64` nothing is cut off. -/
theorem recurring_limit_refines (loc : PolicyLocation) (data : Bytes) (actions : List ActionView) (action : ActionView)
    (valid : validateActionsBuffer (loc.slice data) = .ok ()) (parsed : parseActions (loc.slice data) = .ok actions)
    (member : action ∈ actions) (recurring : action.actionType.isRecurring = true) (calls : List Evaluation) :
    let limit := fieldAt data loc action 0
    let width := fieldAt data loc action 16
    let spends := Evaluation.spends loc (assetOf data loc action) data calls
    let now := Evaluation.dataAt loc data calls
    (∀ i, StoresWindow (now i) loc action (windowAt width spends i) ∧ fieldAt (now i) loc action 8 ≤ limit ∧
      (limit < maxU64 → fieldAt (now i) loc action 8 = (windowAt width spends i).total ∧
        (windowAt width spends i).total ≤ limit) ∧
      ((fieldAt (now i) loc action 24 = 0 ∧ (windowAt width spends i).total = spentBetween spends 0 i ∧
          ∀ k < i, ∀ call, calls[k]? = some call → ¬OpensWindow loc action (now k) call) ∨
        ∃ k < i, ∃ call, calls[k]? = some call ∧ OpensWindow loc action (now k) call ∧
          fieldAt (now i) loc action 24 = call.slot.toNat ∧
          (windowAt width spends i).total = spentBetween spends k i ∧
          ∀ l < i, ∀ later, calls[l]? = some later → OpensWindow loc action (now l) later → l ≤ k)) ∧
    (∀ i j, i ≤ j → fieldAt (now i) loc action 24 ≤ fieldAt (now j) loc action 24) ∧
    ∀ k l first second, k < l → calls[k]? = some first → calls[l]? = some second →
      OpensWindow loc action (now k) first → OpensWindow loc action (now l) second →
      first.slot.toNat + width < second.slot.toNat := by
  intro limit width spends now
  have created := Carries.of_validate valid parsed
  have fresh := (recurring_created valid parsed member recurring).1
  have stored (i : ℕ) : StoresWindow (now i) loc action (windowAt width spends i) ∧
      fieldAt (now i) loc action 8 ≤ limit :=
    storesWindow_dataAt created member recurring fresh calls i
  have opensAt {k : ℕ} {call : Evaluation} (at_ : calls[k]? = some call) (opens : OpensWindow loc action (now k) call) :
      OpensAt width spends k call.slot.toNat :=
    (opensAt_iff created member recurring fresh calls).mpr ⟨call, at_, rfl, opens⟩
  refine ⟨fun i => ⟨(stored i).1, (stored i).2, fun small => ?_, ?_⟩, fun i j le => ?_, ?_⟩
  · have spent := (stored i).1.spent
    have bound := (stored i).2
    omega
  · rcases windowAt_eq width spends i with ⟨state, never⟩ | ⟨k, before, slot, opens, state, last⟩
    · refine .inl ⟨?_, by rw [state], fun k early call at_ opens => never k early _ (opensAt at_ opens)⟩
      rw [(stored i).1.lastReset]
      exact congrArg Window.opened state
    · obtain ⟨call, at_, rfl, here⟩ := (opensAt_iff created member recurring fresh calls).mp opens
      refine .inr ⟨k, before, call, at_, here, ?_, by rw [state], fun l early later at' again => ?_⟩
      · rw [(stored i).1.lastReset]
        exact congrArg Window.opened state
      · exact last l early _ (opensAt at' again)
  · rw [(stored i).1.lastReset, (stored j).1.lastReset]
    exact opened_mono width spends le
  · intro k l first second before at_ at' opens later
    exact openings_apart (opensAt at_ opens) (opensAt at' later) before

namespace Sample

/-- A limit of 10 lamports per 100 slots. -/
def recurringPolicy : Bytes :=
  [2, 32, 0] ++ List.replicate 8 0 ++ Bytes.ofNatLE 8 10 ++ Bytes.ofNatLE 8 0 ++ Bytes.ofNatLE 8 100 ++
    Bytes.ofNatLE 8 0

/-- Lamports leave at a slot. -/
def pays (amount slot : UInt64) : Evaluation := ⟨1000, 1000 - amount, amount, [], slot⟩

/-- One lamport opens a window, nine more leave at its end, and ten in the slot after it. -/
def burst : List Evaluation := [pays 1 150, pays 9 250, pays 10 251]

/-- The window after the first opens a width after the last spend in it. -/
def restedRun : List Evaluation := [pays 4 150, pays 6 200, pays 10 301]

end Sample

/-- The policy's one action, as it is parsed. -/
def Sample.recurringAction : ActionView := ⟨.solRecurringLimit, 0, 11, 32⟩

/-- Two calls share the window that the first opened at slot 150, and the third opens another, a window later. -/
theorem recurring_limit_refines_sample :
    let now := Evaluation.dataAt ⟨0⟩ Sample.recurringPolicy Sample.burst
    let window := windowAt 100 (Evaluation.spends ⟨0⟩ .sol Sample.recurringPolicy Sample.burst) 2
    StoresWindow (now 2) ⟨0⟩ Sample.recurringAction window ∧ window = ⟨150, 10⟩ ∧
      (∃ k < 2, ∃ call, Sample.burst[k]? = some call ∧ OpensWindow ⟨0⟩ Sample.recurringAction (now k) call ∧
        fieldAt (now 2) ⟨0⟩ Sample.recurringAction 24 = call.slot.toNat) ∧
      fieldAt (now 1) ⟨0⟩ Sample.recurringAction 24 ≤ fieldAt (now 3) ⟨0⟩ Sample.recurringAction 24 ∧
      150 + fieldAt Sample.recurringPolicy ⟨0⟩ Sample.recurringAction 16 < 251 := by
  intro now window
  have refines := recurring_limit_refines ⟨0⟩ Sample.recurringPolicy [Sample.recurringAction] Sample.recurringAction
    (by decide +kernel) (by decide +kernel) (List.mem_singleton.mpr rfl) rfl Sample.burst
  have width : fieldAt Sample.recurringPolicy ⟨0⟩ Sample.recurringAction 16 = 100 := by decide +kernel
  have asset : assetOf Sample.recurringPolicy ⟨0⟩ Sample.recurringAction = .sol := rfl
  simp only [width, asset] at refines ⊢
  obtain ⟨stored, mono, apart⟩ := refines
  refine ⟨(stored 2).1, by decide +kernel, ?_, mono 1 3 (by decide), ?_⟩
  · rcases (stored 2).2.2.2 with ⟨never, _⟩ | ⟨k, before, call, at_, opened, slot, _⟩
    · exact absurd never (by decide +kernel)
    · exact ⟨k, before, call, at_, opened, slot⟩
  · exact apart 0 2 (Sample.pays 1 150) (Sample.pays 10 251) (by decide) rfl rfl
      ⟨by decide +kernel, by decide +kernel, by decide +kernel⟩
        ⟨by decide +kernel, by decide +kernel, by decide +kernel⟩

/-- The call passes every check of the policy on these bytes, the action's own by opening a new window. -/
structure Restarts (loc : PolicyLocation) (actions : List ActionView) (action : ActionView) (data : Bytes)
    (call : Evaluation) : Prop where
  passes : checkPostActions data loc call.outflows call.slot.toNat actions = .ok ()
  spends : 0 < (assetOf data loc action).outflow call
  late : fieldAt data loc action 16 < call.slot.toNat - fieldAt data loc action 24

private theorem OpensWindow.restarts {loc : PolicyLocation} {data : Bytes} {actions : List ActionView}
    {action : ActionView}
    {created : Bytes} {call : Evaluation} (carries : Carries loc actions created data) (member : action ∈ actions)
    (opens : OpensWindow loc action data call) : Restarts loc actions action data call := by
  exact ⟨(opens.accepts.inv (isPresent_of_mem carries.parsed member) carries.parsed).1, opens.spends, opens.late⟩

/-- In a run where no call restarts the window less than its width after an earlier spend, any interval as
long as the window keeps the limit. -/
theorem recurring_rate_of_rested (loc : PolicyLocation) (data : Bytes) (actions : List ActionView)
    (action : ActionView) (valid : validateActionsBuffer (loc.slice data) = .ok ())
    (parsed : parseActions (loc.slice data) = .ok actions) (member : action ∈ actions)
    (recurring : action.actionType.isRecurring = true) (small : fieldAt data loc action 0 < maxU64)
    (calls : List Evaluation) (ordered : calls.Pairwise fun first second => first.slot.toNat ≤ second.slot.toNat)
    (rested : ∀ k l earlier call, k < l → calls[k]? = some earlier → calls[l]? = some call →
      0 < earlier.spent loc (assetOf data loc action) (Evaluation.dataAt loc data calls k) →
      Restarts loc actions action (Evaluation.dataAt loc data calls l) call →
      earlier.slot.toNat + fieldAt data loc action 16 ≤ call.slot.toNat) (start : ℕ) :
    spentWithin (Evaluation.spends loc (assetOf data loc action) data calls) start (fieldAt data loc action 16) ≤
      fieldAt data loc action 0 := by
  have created := Carries.of_validate valid parsed
  have fresh := (recurring_created valid parsed member recurring).1
  apply spentWithin_le
  · rintro l slot opens earlier before some_
    obtain ⟨call, at_, rfl, here⟩ := (opensAt_iff created member recurring fresh calls).mp opens
    obtain ⟨k, position⟩ := List.mem_iff_getElem?.mp before
    rw [List.getElem?_take] at position
    split at position
    · next early =>
      rw [Evaluation.getElem?_spends, Option.map_eq_some_iff] at position
      obtain ⟨spender, at', rfl⟩ := position
      exact rested k l spender call early at' at_ some_ (here.restarts (created.dataAt calls l) member)
    · cases position
  · apply List.pairwise_map.mp
    rw [Evaluation.spends_slots]
    exact List.pairwise_map.mpr ordered
  · intro i
    obtain ⟨stores, bounded⟩ := storesWindow_dataAt created member recurring fresh calls i
    have spent := stores.spent
    omega

theorem recurring_rate_of_rested_sample :
    spentWithin (Evaluation.spends ⟨0⟩ .sol Sample.recurringPolicy Sample.restedRun) 201 100 ≤ 10 := by
  have asset : assetOf Sample.recurringPolicy ⟨0⟩ ⟨.solRecurringLimit, 0, 11, 32⟩ = .sol := rfl
  have limit : fieldAt Sample.recurringPolicy ⟨0⟩ ⟨.solRecurringLimit, 0, 11, 32⟩ 0 = 10 := by decide +kernel
  have width : fieldAt Sample.recurringPolicy ⟨0⟩ ⟨.solRecurringLimit, 0, 11, 32⟩ 16 = 100 := by decide +kernel
  have rate := recurring_rate_of_rested ⟨0⟩ Sample.recurringPolicy [⟨.solRecurringLimit, 0, 11, 32⟩]
    ⟨.solRecurringLimit, 0, 11, 32⟩ (by decide +kernel) (by decide +kernel) (List.mem_singleton.mpr rfl) rfl
    (by decide +kernel) Sample.restedRun (by decide +kernel) (by
      intro k l earlier call before at_ at' _ restarts
      have late := restarts.late
      rw [width]
      match k, l with
      | 0, 1 =>
        cases at_
        cases at'
        exact absurd late (by decide +kernel)
      | 0, 2 | 1, 2 =>
        cases at_
        cases at'
        decide
      | _, l + 3 => cases at'
      | k + 2, 0 | k + 2, 1 | k + 2, 2 | 0, 0 | 1, 0 | 1, 1 => omega) 201
  rwa [asset, limit, width] at rate

/-- Nineteen lamports leave within two slots under a limit of ten per hundred. -/
theorem not_recurring_rate :
    ¬∀ (loc : PolicyLocation) (data : Bytes) (actions : List ActionView) (action : ActionView),
      validateActionsBuffer (loc.slice data) = .ok () → parseActions (loc.slice data) = .ok actions →
      action ∈ actions → action.actionType.isRecurring = true → fieldAt data loc action 0 < maxU64 →
      ∀ calls : List Evaluation, (calls.Pairwise fun first second => first.slot.toNat ≤ second.slot.toNat) →
      ∀ start, spentWithin (Evaluation.spends loc (assetOf data loc action) data calls) start
        (fieldAt data loc action 16) ≤ fieldAt data loc action 0 := by
  intro rate
  have bound := rate ⟨0⟩ Sample.recurringPolicy [⟨.solRecurringLimit, 0, 11, 32⟩] ⟨.solRecurringLimit, 0, 11, 32⟩
    (by decide +kernel) (by decide +kernel) (List.mem_singleton.mpr rfl) rfl (by decide +kernel) Sample.burst
    (by decide +kernel) 200
  revert bound
  decide +kernel

end LazorKit
