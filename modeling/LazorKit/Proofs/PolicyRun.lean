import LazorKit.Proofs.PolicyCommit
import LazorKit.ToMathlib.TumblingWindow

/-! # A policy evaluated again and again

A run evaluates the policy of one account with arbitrary arguments, one call after the other. Whatever the
calls are, the account keeps carrying the same actions, and everything in them but the running totals.
For each action the accepted calls charge what left of its asset: a lifetime limit loses it from what
remains, a limit per window enters it in a tumbling window.
-/

namespace LazorKit

open Solana TumblingWindow

/-- What a limit is about. -/
inductive Asset where
  | sol
  | token (mint : Bytes)
deriving DecidableEq, Repr

/-- What left of the asset, on balance. -/
def Asset.outflow (asset : Asset) (call : Evaluation) : ℕ :=
  match asset with
  | .sol => call.vaultLamportsBefore.toNat - call.vaultLamportsAfter.toNat
  | .token mint => mintOutflow call.mintFlows mint

/-- The asset an action names. -/
def assetOf (data : Bytes) (loc : PolicyLocation) (action : ActionView) : Asset :=
  if action.actionType.isToken then .token (mintNamed data loc action) else .sol

private theorem outflowOf_eq (data : Bytes) (loc : PolicyLocation) (call : Evaluation) (action : ActionView) :
    outflowOf data loc call.outflows action = (assetOf data loc action).outflow call := by
  rw [outflowOf, assetOf]
  split
  · rfl
  · rfl

namespace Evaluation

/-- The account's bytes after a call. -/
def step (loc : PolicyLocation) (data : Bytes) (call : Evaluation) : Bytes := (call.evaluate loc data).2

/-- What a call lets out of an asset; a rejected call lets out nothing. -/
def spent (loc : PolicyLocation) (asset : Asset) (data : Bytes) (call : Evaluation) : ℕ :=
  if call.Accepts loc data then asset.outflow call else 0

/-- The account's bytes in front of the `i`th call of a run. -/
def dataAt (loc : PolicyLocation) (data : Bytes) (calls : List Evaluation) (i : ℕ) : Bytes :=
  Run.stateAt (step loc) data calls i

/-- What each call of a run lets out of an asset. -/
def spends (loc : PolicyLocation) (asset : Asset) (data : Bytes) (calls : List Evaluation) : List Spend :=
  Run.observe (fun data call => ⟨call.slot.toNat, call.spent loc asset data⟩) (step loc) data calls

variable {loc : PolicyLocation} {data : Bytes} {actions : List ActionView} {call : Evaluation}

theorem getElem?_spends (loc : PolicyLocation) (asset : Asset) (data : Bytes) (calls : List Evaluation) (i : ℕ) :
    (spends loc asset data calls)[i]? =
      calls[i]?.map fun call => ⟨call.slot.toNat, call.spent loc asset (dataAt loc data calls i)⟩ :=
  Run.getElem?_observe i

theorem spends_slots (loc : PolicyLocation) (asset : Asset) (data : Bytes) (calls : List Evaluation) :
    (spends loc asset data calls).map Spend.slot = calls.map (·.slot.toNat) := Run.map_observe fun _ _ => rfl

/-- A call on a policy that does not parse is rejected. -/
theorem evaluate_of_not_parsed {e : ProgramError} (present : loc.isPresent data = true)
    (malformed : parseActions (loc.slice data) = .error e) : call.evaluate loc data = (.error e, data) := by
  rw [evaluate, evaluatePostActions, if_pos present]
  simp only [malformed]

theorem evaluate_of_absent (absent : loc.isPresent data = false) : call.evaluate loc data = (.ok (), data) := by
  rw [evaluate, evaluatePostActions, absent]
  rfl

/-- On well-sized actions the writes cannot fail, so a rejected call wrote nothing. -/
theorem step_of_rejected (parsed : parseActions (loc.slice data) = .ok actions) (sized : WellSized actions)
    (rejected : ¬call.Accepts loc data) : call.step loc data = data := by
  cases present : loc.isPresent data with
  | false => rw [step, evaluate_of_absent present]
  | true =>
    rw [Accepts, evaluate_eq present parsed] at rejected
    rw [step, evaluate_eq present parsed]
    cases check : checkPostActions data loc call.outflows call.slot.toNat actions with
    | error e => rfl
    | ok u =>
      rw [check] at rejected
      exact absurd (commitActions_of_inside (inside_of_parse parsed sized)) rejected

end Evaluation

theorem isPresent_of_mem {data : Bytes} {loc : PolicyLocation} {actions : List ActionView} {action : ActionView}
    (parsed : parseActions (loc.slice data) = .ok actions) (member : action ∈ actions) :
    loc.isPresent data = true := by
  have parses := (parseActions_eq_ok.mp parsed).1
  have fits := parses.fits member
  have behind := parses.le_dataOffset member
  simp only [PolicyLocation.slice, List.length_drop, actionHeaderSize] at fits behind
  rw [PolicyLocation.isPresent, decide_eq_true_eq]
  omega

/-- The account carries these well-sized actions, and only their running totals changed since. -/
structure Carries (loc : PolicyLocation) (actions : List ActionView) (created data : Bytes) : Prop where
  sized : WellSized actions
  parsed : parseActions (loc.slice data) = .ok actions
  same : SameButTotals loc.offset actions created data

namespace Carries

variable {loc : PolicyLocation} {actions : List ActionView} {created data : Bytes} {action : ActionView}

theorem start (sized : WellSized actions) (parsed : parseActions (loc.slice data) = .ok actions) :
    Carries loc actions data data :=
  ⟨sized, parsed, .refl _ _ _⟩

theorem inside (carries : Carries loc actions created data) (member : action ∈ actions) : Inside data loc action :=
  inside_of_parse carries.parsed carries.sized action member

theorem ordered (carries : Carries loc actions created data) :
    actions.Pairwise fun first second => first.dataOffset + first.dataLen ≤ second.dataOffset :=
  (parseActions_eq_ok.mp carries.parsed).1.pairwise

theorem rewritten {new : Bytes} (carries : Carries loc actions created data)
    (same : SameButTotals loc.offset actions data new) : Carries loc actions created new where
  sized := carries.sized
  parsed := parseActions_sameButTotals carries.parsed carries.sized same.drop
  same := carries.same.trans same

/-- A call keeps the actions. -/
theorem step (carries : Carries loc actions created data) (call : Evaluation) :
    Carries loc actions created (call.step loc data) := by
  by_cases accepts : call.Accepts loc data
  · cases present : loc.isPresent data with
    | false =>
      rw [Evaluation.step, Evaluation.evaluate_of_absent present]
      exact carries
    | true =>
      obtain ⟨_, commit⟩ := accepts.inv present carries.parsed
      exact carries.rewritten (sameButTotals_commitActions commit)
  · rw [Evaluation.step_of_rejected carries.parsed carries.sized accepts]
    exact carries

/-- A run keeps the actions. -/
theorem dataAt (carries : Carries loc actions created data) (calls : List Evaluation) (i : ℕ) :
    Carries loc actions created (Evaluation.dataAt loc data calls i) :=
  Run.invariant carries (fun _ call here => here.step call) i

/-- The data of an action but for its own running totals is what it was. -/
theorem slice_eq (carries : Carries loc actions created data) (member : action ∈ actions) {offset count : ℕ}
    (low : action.dataOffset ≤ offset) (high : offset + count ≤ action.dataOffset + action.dataLen)
    (fixed : ∀ field ∈ action.actionType.totals,
      offset + count ≤ action.dataOffset + field ∨ action.dataOffset + field + 8 ≤ offset) :
    data.slice (loc.abs offset) count = created.slice (loc.abs offset) count := by
  obtain ⟨left, right, rfl⟩ := List.append_of_mem member
  obtain ⟨before, after⟩ := apart_of_pairwise carries.ordered
  have apart (view) (here : view ∈ left ++ action :: right) : view = action ∨ Apart view action := by
    simp only [List.mem_append, List.mem_cons] at here
    rcases here with front | rfl | back
    · exact .inr (before view front)
    · exact .inl rfl
    · exact .inr (after view back)
  rw [PolicyLocation.abs]
  apply Bytes.slice_congr
  intro i above below
  apply carries.same.bytes
  intro view here j position total
  rcases apart view here with rfl | separate
  · obtain ⟨field, own, begins, ends⟩ := total
    have kept := fixed field own
    omega
  · have inside := total.inside (carries.sized view here)
    rw [Apart] at separate
    omega

/-- The asset an action names is what it was. -/
theorem assetOf_eq (carries : Carries loc actions created data) (member : action ∈ actions) :
    assetOf data loc action = assetOf created loc action := by
  rw [assetOf, assetOf]
  split
  · next token =>
    have size := carries.sized action member
    have fits := ActionType.token_fits token
    rw [mintNamed, mintNamed, carries.slice_eq member le_rfl (by omega)]
    intro field own
    have behind : 32 ≤ field := by
      cases kind : action.actionType <;> simp [kind, ActionType.totals, ActionType.isToken] at own token <;> omega
    omega
  · rfl

/-- The limit and the window of a limit per window are what they were. -/
theorem fieldAt_eq (carries : Carries loc actions created data) (member : action ∈ actions)
    (recurring : action.actionType.isRecurring = true) :
    fieldAt data loc action 0 = fieldAt created loc action 0 ∧
      fieldAt data loc action 16 = fieldAt created loc action 16 := by
  have size := carries.sized action member
  have fits := ActionType.recurring_fits recurring
  have kept (field : ℕ) (choice : field = 0 ∨ field = 16) :
      fieldAt data loc action field = fieldAt created loc action field := by
    apply congrArg Bytes.toNatLE
    have position : loc.abs action.dataOffset + action.actionType.fieldBase + field =
        loc.abs (action.dataOffset + action.actionType.fieldBase + field) := by
      simp only [PolicyLocation.abs]
      omega
    rw [position]
    apply carries.slice_eq member (by omega) (by omega)
    intro total own
    cases kind : action.actionType
    all_goals
      simp [kind, ActionType.totals, ActionType.isRecurring, ActionType.fieldBase, ActionType.isToken]
        at own recurring ⊢
    all_goals omega
  exact ⟨kept 0 (.inl rfl), kept 16 (.inr rfl)⟩

end Carries

section Charge

variable {loc : PolicyLocation} {actions : List ActionView} {created data : Bytes} {action : ActionView}

/-- An accepted call charges each action as if it were the only one. -/
theorem Evaluation.Accepts.charges {call : Evaluation} (accepts : call.Accepts loc data)
    (carries : Carries loc actions created data) (member : action ∈ actions) :
    (checkSolLimit data loc call.outflows call.slot.toNat action = .ok () ∧
      checkTokenLimit data loc call.outflows call.slot.toNat action = .ok ()) ∧
    ∃ middle written, Inside middle loc action ∧ SameData loc action data middle ∧
      commitAction loc call.outflows call.slot.toNat middle action = .ok written ∧
      SameData loc action written (call.step loc data) := by
  obtain ⟨check, commit⟩ := accepts.inv (isPresent_of_mem carries.parsed member) carries.parsed
  obtain ⟨middle, written, length, front, own, back⟩ :=
    commitActions_one carries.sized carries.ordered member commit
  refine ⟨Evaluation.Accepts.limits check member, middle, written, ?_, front, own, back⟩
  rw [Inside, length]
  exact carries.inside member

/-- A call lowers what remains of a lifetime limit by what it lets out, and lets out no more. -/
theorem remaining_step (carries : Carries loc actions created data) (member : action ∈ actions)
    (lifetime : action.actionType.isLifetime = true) (call : Evaluation) :
    call.spent loc (assetOf created loc action) data ≤ fieldAt data loc action 0 ∧
      fieldAt (call.step loc data) loc action 0 =
        fieldAt data loc action 0 - call.spent loc (assetOf created loc action) data := by
  by_cases accepts : call.Accepts loc data
  · have size := carries.sized action member
    have fits := ActionType.lifetime_fits lifetime
    obtain ⟨check, middle, written, inside, front, commit, back⟩ := accepts.charges carries member
    have within := capHolds_of_check lifetime (carries.inside member) check
    have written_ := commitAction_remaining lifetime inside commit
    rw [front.fieldAt (by omega), front.outflowOf size, ← back.fieldAt (by omega)] at written_
    rw [outflowOf_eq, carries.assetOf_eq member] at within written_
    rw [Evaluation.spent, if_pos accepts, written_]
    rcases within with nothing | ⟨live, bound⟩
    · simp [nothing]
    · rw [live]
      exact ⟨bound, rfl⟩
  · rw [Evaluation.step_of_rejected carries.parsed carries.sized accepts, Evaluation.spent, if_neg accepts]
    exact ⟨Nat.zero_le _, rfl⟩

/-- A limit per window stores this window: where it opened, and its total as far as a `u64` holds it. -/
structure StoresWindow (data : Bytes) (loc : PolicyLocation) (action : ActionView) (window : Window) : Prop where
  lastReset : fieldAt data loc action 24 = window.opened
  spent : fieldAt data loc action 8 = min window.total maxU64

/-- What an accepted call may let out under a limit per window. -/
theorem Evaluation.Accepts.window_room {call : Evaluation} (accepts : call.Accepts loc data)
    (carries : Carries loc actions created data) (member : action ∈ actions)
    (recurring : action.actionType.isRecurring = true) :
    (assetOf created loc action).outflow call = 0 ∨
      isExpired action call.slot.toNat = false ∧
        if fieldAt created loc action 16 < call.slot.toNat - fieldAt data loc action 24 then
          (assetOf created loc action).outflow call ≤ fieldAt created loc action 0
        else fieldAt data loc action 8 + (assetOf created loc action).outflow call ≤ fieldAt created loc action 0 ∨
          fieldAt created loc action 0 = maxU64 := by
  obtain ⟨limit, width⟩ := carries.fieldAt_eq member recurring
  have within := recurringHolds_of_check recurring (carries.inside member) (accepts.charges carries member).1
  rwa [outflowOf_eq, carries.assetOf_eq member, limit, width] at within

/-- What an accepted call writes under a limit per window. -/
theorem Evaluation.Accepts.window_eq {call : Evaluation} (accepts : call.Accepts loc data)
    (carries : Carries loc actions created data) (member : action ∈ actions)
    (recurring : action.actionType.isRecurring = true) :
    (fieldAt (call.step loc data) loc action 8, fieldAt (call.step loc data) loc action 24) =
      if (assetOf created loc action).outflow call = 0 then (fieldAt data loc action 8, fieldAt data loc action 24)
      else if fieldAt created loc action 16 < call.slot.toNat - fieldAt data loc action 24 then
        ((assetOf created loc action).outflow call, call.slot.toNat)
      else (saturatingAdd (fieldAt data loc action 8) ((assetOf created loc action).outflow call),
        fieldAt data loc action 24) := by
  have size := carries.sized action member
  have fits := ActionType.recurring_fits recurring
  have width := (carries.fieldAt_eq member recurring).2
  have room := accepts.window_room carries member recurring
  obtain ⟨_, middle, written, inside, front, commit, back⟩ := accepts.charges carries member
  have amount : outflowOf middle loc call.outflows action = (assetOf created loc action).outflow call := by
    rw [front.outflowOf size, outflowOf_eq, carries.assetOf_eq member]
  have before (field : ℕ) (small : field + 8 ≤ 32) : fieldAt middle loc action field = fieldAt data loc action field :=
    front.fieldAt (by omega)
  rw [back.fieldAt (by omega), back.fieldAt (by omega)]
  split
  · next nothing =>
    have idle : isCharged middle loc call.outflows call.slot.toNat action = false := by
      simp [isCharged, amount, nothing]
    rw [commitAction_of_not_charged inside idle] at commit
    cases commit
    rw [before 8 (by omega), before 24 (by omega)]
  · next something =>
    obtain ⟨live, room⟩ := room.resolve_left something
    have small : fieldAt middle loc action 16 < call.slot.toNat - fieldAt middle loc action 24 →
        outflowOf middle loc call.outflows action ≤ maxU64 := by
      intro late
      rw [before 16 (by omega), before 24 (by omega), width] at late
      rw [if_pos late] at room
      rw [amount]
      exact room.trans (storedU64_le created _)
    have clock : call.slot.toNat ≤ maxU64 := Nat.le_pred_of_lt call.slot.toNat_lt
    have totals := commitAction_window recurring inside live (by omega) small clock commit
    rwa [before 8 (by omega), before 16 (by omega), before 24 (by omega), amount, width] at totals

/-- A call enters what it lets out in the window. -/
theorem window_step {window : Window} (carries : Carries loc actions created data) (member : action ∈ actions)
    (recurring : action.actionType.isRecurring = true) (stores : StoresWindow data loc action window)
    (call : Evaluation) :
    StoresWindow (call.step loc data) loc action (charge (fieldAt created loc action 16) window
      ⟨call.slot.toNat, call.spent loc (assetOf created loc action) data⟩) := by
  by_cases accepts : call.Accepts loc data
  · have room := accepts.window_room carries member recurring
    have totals := accepts.window_eq carries member recurring
    rw [stores.lastReset, stores.spent] at totals
    rw [stores.lastReset] at room
    rw [Evaluation.spent, if_pos accepts]
    split at totals
    · next nothing =>
      obtain ⟨total, opened⟩ := Prod.mk.inj totals
      rw [charge_zero nothing]
      exact ⟨opened, total⟩
    · next something =>
      have room := (room.resolve_left something).2
      split at totals
      · next late =>
        obtain ⟨total, opened⟩ := Prod.mk.inj totals
        rw [if_pos late] at room
        have opens : Opens (fieldAt created loc action 16) window
            ⟨call.slot.toNat, (assetOf created loc action).outflow call⟩ := ⟨Nat.pos_of_ne_zero something, late⟩
        rw [charge_of_opens opens]
        exact ⟨opened, total.trans (Nat.min_eq_left (room.trans (storedU64_le created _))).symm⟩
      · next early =>
        obtain ⟨total, opened⟩ := Prod.mk.inj totals
        rw [charge_of_not_opens fun opens => early opens.2]
        refine ⟨opened, total.trans ?_⟩
        simp only [saturatingAdd, maxU64]
        omega
  · rw [Evaluation.step_of_rejected carries.parsed carries.sized accepts, Evaluation.spent, if_neg accepts,
      charge_zero rfl]
    exact stores

/-- A call keeps what was spent within the limit. -/
theorem window_bounded (carries : Carries loc actions created data) (member : action ∈ actions)
    (recurring : action.actionType.isRecurring = true)
    (bounded : fieldAt data loc action 8 ≤ fieldAt created loc action 0) (call : Evaluation) :
    fieldAt (call.step loc data) loc action 8 ≤ fieldAt created loc action 0 := by
  by_cases accepts : call.Accepts loc data
  · have room := accepts.window_room carries member recurring
    have totals := accepts.window_eq carries member recurring
    split at totals
    · next nothing =>
      rw [(Prod.mk.inj totals).1]
      exact bounded
    · next something =>
      have room := (room.resolve_left something).2
      split at totals
      · next late =>
        rw [if_pos late] at room
        rw [(Prod.mk.inj totals).1]
        exact room
      · next early =>
        rw [if_neg early] at room
        rw [(Prod.mk.inj totals).1, saturatingAdd, ← maxU64]
        omega
  · rw [Evaluation.step_of_rejected carries.parsed carries.sized accepts]
    exact bounded

end Charge

end LazorKit
