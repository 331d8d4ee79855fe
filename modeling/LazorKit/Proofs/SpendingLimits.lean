import LazorKit.Proofs.MintFlows
import LazorKit.Proofs.PolicyBuffer

/-! # What a policy allows

`PolicyAllows` says what a list of actions demands of the amounts that left. The read-only phases of
the evaluation accept exactly when it holds, and the commit phase that follows cannot fail: every total
it writes lies inside the buffer.
-/

namespace LazorKit

open Solana

/-- The number a policy stores at an offset. -/
def storedU64 (data : Bytes) (offset : ℕ) : ℕ := (data.slice offset 8).toNatLE

theorem storedU64_le (data : Bytes) (offset : ℕ) : storedU64 data offset ≤ maxU64 := by
  have bound : storedU64 data offset < 256 ^ 8 := Bytes.toNatLE_slice_lt
  rw [maxU64]
  omega

/-- What left the vault during one Execute: SOL on balance, SOL summed over the single inner
instructions, and each mint on balance. -/
structure Spent where
  sol : ℕ
  grossSol : ℕ
  ofMint : Bytes → ℕ

/-- A cap: nothing left, or the action is in force and no more left than the number at `offset`. -/
def CapHolds (data : Bytes) (offset : ℕ) (expired : Bool) (amount : ℕ) : Prop :=
  amount = 0 ∨ expired = false ∧ amount ≤ storedU64 data offset

/-- The cap on the gross outflow. The sum is kept in saturating `u64`, so the largest `u64` caps
nothing. -/
def GrossCapHolds (data : Bytes) (offset : ℕ) (expired : Bool) (amount : ℕ) : Prop :=
  amount = 0 ∨ expired = false ∧ (amount ≤ storedU64 data offset ∨ storedU64 data offset = maxU64)

/-- A cap per window, `limit spent window last_reset` from `offset` on. Once the window has run out the
whole limit is there again; within it the amount adds to what was spent, in saturating `u64`. -/
def RecurringHolds (data : Bytes) (offset : ℕ) (expired : Bool) (amount slot : ℕ) : Prop :=
  amount = 0 ∨ expired = false ∧
    if storedU64 data (offset + 16) < slot - storedU64 data (offset + 24) then amount ≤ storedU64 data offset
    else storedU64 data (offset + 8) + amount ≤ storedU64 data offset ∨ storedU64 data offset = maxU64

/-- What one action demands of the asset it names. -/
def ActionHolds (data : Bytes) (loc : PolicyLocation) (slot : ℕ) (spent : Spent) (action : ActionView) : Prop :=
  let offset := loc.abs action.dataOffset
  let expired := isExpired action slot
  match action.actionType with
  | .solMaxPerTx => GrossCapHolds data offset expired spent.grossSol
  | .solLimit => CapHolds data offset expired spent.sol
  | .solRecurringLimit => RecurringHolds data offset expired spent.sol slot
  | .tokenMaxPerTx | .tokenLimit => CapHolds data (offset + 32) expired (spent.ofMint (data.slice offset 32))
  | .tokenRecurringLimit => RecurringHolds data (offset + 32) expired (spent.ofMint (data.slice offset 32)) slot
  | .programWhitelist | .programBlacklist => True

/-- The policy allows these amounts: every action holds, and nothing left of an asset none names. -/
structure PolicyAllows (data : Bytes) (loc : PolicyLocation) (slot : ℕ) (actions : List ActionView) (spent : Spent) :
    Prop where
  limits : ∀ action ∈ actions, ActionHolds data loc slot spent action
  unnamedSol : (∀ action ∈ actions, action.actionType.isSol = false) → spent.sol = 0
  unnamedMint : ∀ mint, (∀ action ∈ actions, action.actionType.isToken = true →
    data.slice (loc.abs action.dataOffset) 32 ≠ mint) → spent.ofMint mint = 0

theorem readU64_of_fits {data : Bytes} {offset : ℕ} (fits : offset + 8 ≤ data.length) :
    readU64 data offset = .ok (storedU64 data offset) := by
  rw [readU64, Except.ensure_of fits]
  rfl

theorem readBytes32_of_fits {data : Bytes} {offset : ℕ} (fits : offset + 32 ≤ data.length) :
    readBytes32 data offset = .ok (data.slice offset 32) := by
  rw [readBytes32, Except.ensure_of fits]
  rfl

/-- The data of an action lies in the account. -/
def Inside (data : Bytes) (loc : PolicyLocation) (action : ActionView) : Prop :=
  loc.abs action.dataOffset + action.actionType.expectedDataSize ≤ data.length

/-- The data of the actions a buffer parses to lies in it. -/
theorem Parses.fits {buf : Bytes} {cursor : ℕ} {views : List ActionView} (parses : Parses buf cursor views)
    {view : ActionView} (member : view ∈ views) : view.dataOffset + view.dataLen ≤ buf.length := by
  induction views generalizing cursor with
  | nil => cases member
  | cons first rest ih =>
    obtain ⟨_, _, _, _, _, fits, tail⟩ := parses
    cases member with
    | head => exact fits
    | tail _ later => exact ih tail later

theorem inside_of_parse {data : Bytes} {loc : PolicyLocation} {views : List ActionView}
    (parsed : parseActions (loc.slice data) = .ok views) (sized : WellSized views) :
    ∀ view ∈ views, Inside data loc view := by
  intro view member
  have parses := (parseActions_eq_ok.mp parsed).1
  have fits := parses.fits member
  have behind := parses.le_dataOffset member
  rw [sized view member, PolicyLocation.slice, List.length_drop] at fits
  rw [Inside, PolicyLocation.abs]
  simp only [actionHeaderSize] at behind
  omega

theorem checkCap_eq_ok {data : Bytes} {offset amount : ℕ} {expired : Bool} {exceeded : AuthError}
    (fits : offset + 8 ≤ data.length) :
    checkCap data offset expired amount exceeded = .ok () ↔ CapHolds data offset expired amount := by
  rw [checkCap, CapHolds]
  split
  · next some_ =>
    rw [readU64_of_fits fits]
    simp only [Except.bind_eq_ok, Except.ensure_eq_ok, exists_const, Except.ok.injEq, exists_eq_left']
    exact ⟨.inr, fun holds => holds.resolve_left (by omega)⟩
  · next none_ => exact iff_of_true rfl (.inl (by omega))

/-- The cap over a sum kept in saturating `u64`. -/
theorem capHolds_min {data : Bytes} {offset total : ℕ} {expired : Bool} :
    CapHolds data offset expired (min total maxU64) ↔ GrossCapHolds data offset expired total := by
  have bound := storedU64_le data offset
  have zero : min total maxU64 = 0 ↔ total = 0 := by
    rw [maxU64]
    omega
  have within : min total maxU64 ≤ storedU64 data offset ↔
      total ≤ storedU64 data offset ∨ storedU64 data offset = maxU64 := by
    omega
  rw [CapHolds, GrossCapHolds, zero, within]

theorem checkRecurring_eq_ok {data : Bytes} {offset amount slot : ℕ} {expired : Bool} {exceeded : AuthError}
    (fits : offset + 32 ≤ data.length) :
    checkRecurring data offset expired amount slot exceeded = .ok () ↔
      RecurringHolds data offset expired amount slot := by
  have bound := storedU64_le data offset
  rw [checkRecurring, RecurringHolds]
  split
  · next some_ =>
    rw [readU64_of_fits (by omega), readU64_of_fits (by omega), readU64_of_fits (by omega), readU64_of_fits (by omega)]
    have nonzero : amount ≠ 0 := by omega
    simp only [nonzero, false_or]
    simp only [Except.bind_eq_ok, Except.ensure_eq_ok, exists_const, Except.ok.injEq, exists_eq_left']
    apply and_congr_right
    intro _
    split
    · simp only [Except.bind_eq_ok, Except.ensure_eq_ok, exists_const, Except.ok.injEq, saturatingAdd,
        maxU64] at bound ⊢
      constructor
      · rintro ⟨_, ⟨within, _⟩, _⟩
        exact within
      · intro within
        exact ⟨0, ⟨within, rfl⟩, by omega⟩
    · simp only [Except.ok.injEq, exists_eq_left', saturatingAdd, maxU64] at bound ⊢
      omega
  · next none_ => exact iff_of_true rfl (.inl (by omega))

theorem tokenSpent_of_fits {data : Bytes} {loc : PolicyLocation} {out : Outflows} {action : ActionView}
    (fits : loc.abs action.dataOffset + 32 ≤ data.length) :
    tokenSpent data loc out action = .ok (mintOutflow out.flows (data.slice (loc.abs action.dataOffset) 32)) := by
  rw [tokenSpent, readBytes32_of_fits fits]
  rfl

/-- The outflows the code measured are these amounts, the gross one kept in saturating `u64`. -/
structure Measures (out : Outflows) (spent : Spent) : Prop where
  sol : out.solSpent = spent.sol
  gross : out.grossOut = min spent.grossSol maxU64
  ofMint : ∀ mint, mintOutflow out.flows mint = spent.ofMint mint
  distinct : (out.flows.map (·.mint)).Nodup

section Checks

variable {data : Bytes} {loc : PolicyLocation} {slot : ℕ} {out : Outflows} {spent : Spent}

/-- The two loops over the limits check one action each time. -/
theorem checkLimits_eq_ok {action : ActionView} (measures : Measures out spent) (inside : Inside data loc action) :
    (checkSolLimit data loc out slot action = .ok () ∧ checkTokenLimit data loc out slot action = .ok ()) ↔
      ActionHolds data loc slot spent action := by
  obtain ⟨kind, expiresAt, dataOffset, dataLen⟩ := action
  simp only [Inside] at inside
  cases kind with
  | solMaxPerTx =>
    simp only [ActionType.expectedDataSize] at inside
    simp only [checkSolLimit, checkTokenLimit, and_true, ActionHolds, measures.gross]
    exact (checkCap_eq_ok inside).trans capHolds_min
  | solLimit =>
    simp only [ActionType.expectedDataSize] at inside
    simp only [checkSolLimit, checkTokenLimit, and_true, ActionHolds, measures.sol]
    exact checkCap_eq_ok inside
  | solRecurringLimit =>
    simp only [ActionType.expectedDataSize] at inside
    simp only [checkSolLimit, checkTokenLimit, and_true, ActionHolds, measures.sol]
    exact checkRecurring_eq_ok inside
  | tokenMaxPerTx | tokenLimit =>
    simp only [ActionType.expectedDataSize] at inside
    simp only [checkSolLimit, checkTokenLimit, true_and, ActionHolds]
    rw [tokenSpent_of_fits (show loc.abs dataOffset + 32 ≤ data.length by omega)]
    simp only [Except.bind_eq_ok, Except.ok.injEq, exists_eq_left', measures.ofMint]
    exact checkCap_eq_ok (by omega)
  | tokenRecurringLimit =>
    simp only [ActionType.expectedDataSize] at inside
    simp only [checkSolLimit, checkTokenLimit, true_and, ActionHolds]
    rw [tokenSpent_of_fits (show loc.abs dataOffset + 32 ≤ data.length by omega)]
    simp only [Except.bind_eq_ok, Except.ok.injEq, exists_eq_left', measures.ofMint]
    exact checkRecurring_eq_ok (by omega)
  | programWhitelist | programBlacklist => exact iff_of_true ⟨rfl, rfl⟩ trivial

/-- Whether a token action names the mint is decided by the mints the actions carry. -/
theorem namesMint_eq_ok (mint : Bytes) {actions : List ActionView}
    (inside : ∀ action ∈ actions, Inside data loc action) :
    ∃ named, namesMint data loc mint actions = .ok named ∧
      (named = true ↔ ∃ action ∈ actions, action.actionType.isToken = true ∧
        data.slice (loc.abs action.dataOffset) 32 = mint) := by
  induction actions with
  | nil => exact ⟨false, rfl, by simp⟩
  | cons action rest ih =>
    rw [List.forall_mem_cons] at inside
    obtain ⟨named, later, meaning⟩ := ih inside.2
    rw [namesMint]
    split
    · next token =>
      have size : 32 ≤ action.actionType.expectedDataSize := by
        cases kind : action.actionType <;> simp_all [ActionType.isToken, ActionType.expectedDataSize]
      have fits : loc.abs action.dataOffset + 32 ≤ data.length := by
        have own := inside.1
        rw [Inside] at own
        omega
      rw [readBytes32_of_fits fits]
      simp only [Except.bind_eq_ok, Except.ok.injEq, exists_eq_left']
      split
      · next own => exact ⟨true, rfl, iff_of_true rfl ⟨action, List.mem_cons_self .., token, own⟩⟩
      · next other =>
        refine ⟨named, later, meaning.trans ?_⟩
        simp [token, other]
    · next plain =>
      refine ⟨named, later, meaning.trans ?_⟩
      simp [plain]

private theorem checkListedMint_eq_ok {actions : List ActionView} (inside : ∀ action ∈ actions, Inside data loc action)
    {flow : MintFlow} :
    checkListedMint data loc actions flow = .ok () ↔
      (0 < flow.outflow → ∃ action ∈ actions, action.actionType.isToken = true ∧
        data.slice (loc.abs action.dataOffset) 32 = flow.mint) := by
  obtain ⟨named, result, meaning⟩ := namesMint_eq_ok flow.mint inside
  rw [checkListedMint, result, ← meaning]
  split
  · next fell =>
    simp only [Except.bind_eq_ok, Except.ensure_eq_ok, Except.ok.injEq, exists_eq_left', fell, true_implies]
  · next kept => exact iff_of_true rfl fun fell => absurd fell kept

/-- The read-only phases accept exactly what the policy allows. -/
theorem checkPostActions_eq_ok {actions : List ActionView} (measures : Measures out spent)
    (inside : ∀ action ∈ actions, Inside data loc action) :
    checkPostActions data loc out slot actions = .ok () ↔ PolicyAllows data loc slot actions spent := by
  have unnamedSol : ¬(actions.any (·.actionType.isSol) = false ∧ 0 < out.solSpent) ↔
      ((∀ action ∈ actions, action.actionType.isSol = false) → spent.sol = 0) := by
    rw [measures.sol, List.any_eq_false, not_and, Nat.not_lt, Nat.le_zero]
    simp only [Bool.not_eq_true]
  have unnamedMint : (∀ flow ∈ out.flows, checkListedMint data loc actions flow = .ok ()) ↔
      ∀ mint, (∀ action ∈ actions, action.actionType.isToken = true →
        data.slice (loc.abs action.dataOffset) 32 ≠ mint) → spent.ofMint mint = 0 := by
    simp only [checkListedMint_eq_ok inside]
    rw [forall_flow_iff measures.distinct fun mint => ∃ action ∈ actions,
      action.actionType.isToken = true ∧ data.slice (loc.abs action.dataOffset) 32 = mint]
    apply forall_congr'
    intro mint
    rw [measures.ofMint, ← not_imp_not, Nat.not_lt, Nat.le_zero]
    simp only [not_exists, not_and, ne_eq]
  simp only [checkPostActions, Except.bind_eq_ok, Except.ensure_eq_ok, exists_const, unnamedSol]
  constructor
  · rintro ⟨_, sol, _, token, named, mints⟩
    refine ⟨fun action member => ?_, named, unnamedMint.mp (Except.forM_eq_ok.mp mints)⟩
    exact (checkLimits_eq_ok measures (inside action member)).mp
      ⟨Except.forM_eq_ok.mp sol action member, Except.forM_eq_ok.mp token action member⟩
  · rintro ⟨limits, named, mints⟩
    have checks (action) (member : action ∈ actions) :=
      (checkLimits_eq_ok measures (inside action member)).mpr (limits action member)
    exact ⟨(), Except.forM_eq_ok.mpr fun action member => (checks action member).1, (),
      Except.forM_eq_ok.mpr fun action member => (checks action member).2, named,
      Except.forM_eq_ok.mpr (unnamedMint.mpr mints)⟩

end Checks

section Commit

variable {data : Bytes} {loc : PolicyLocation} {slot : ℕ} {out : Outflows}

theorem writeU64_of_fits {offset value : ℕ} (fits : offset + 8 ≤ data.length) :
    writeU64 data offset value = .ok (data.splice offset (Bytes.ofNatLE 8 value)) := by
  rw [writeU64, Except.ensure_of fits]
  rfl

private theorem commitCap_of_fits {offset amount : ℕ} (fits : offset + 8 ≤ data.length) :
    ∃ written, commitCap data offset amount = .ok written := by
  rw [commitCap]
  split
  · rw [readU64_of_fits fits]
    exact ⟨_, writeU64_of_fits fits⟩
  · exact ⟨_, rfl⟩

private theorem commitRecurring_of_fits {offset amount : ℕ} (fits : offset + 32 ≤ data.length) :
    ∃ written, commitRecurring data offset amount slot = .ok written := by
  rw [commitRecurring]
  split
  · have middle (value : ℕ) : (data.splice (offset + 8) (Bytes.ofNatLE 8 value)).length = data.length :=
      Bytes.length_splice (by rw [Bytes.length_ofNatLE]; omega)
    rw [readU64_of_fits (by omega), readU64_of_fits (by omega), readU64_of_fits (by omega)]
    simp only [Except.bind_eq_ok, Except.ok.injEq, exists_eq_left']
    exact ⟨_, _, writeU64_of_fits (by omega), writeU64_of_fits (by rw [middle]; omega)⟩
  · exact ⟨_, rfl⟩

/-- Committing one action whose data lies in the account cannot fail. -/
theorem commitAction_of_inside (out : Outflows) (slot : ℕ) {action : ActionView} (inside : Inside data loc action) :
    ∃ written, commitAction loc out slot data action = .ok written := by
  obtain ⟨kind, expiresAt, dataOffset, dataLen⟩ := action
  simp only [Inside] at inside
  simp only [commitAction]
  split
  · exact ⟨_, rfl⟩
  · cases kind with
    | solLimit =>
      simp only [ActionType.expectedDataSize] at inside
      exact commitCap_of_fits inside
    | solRecurringLimit =>
      simp only [ActionType.expectedDataSize] at inside
      exact commitRecurring_of_fits inside
    | tokenLimit =>
      simp only [ActionType.expectedDataSize] at inside
      rw [tokenSpent_of_fits (show loc.abs dataOffset + 32 ≤ data.length by omega)]
      exact commitCap_of_fits (by omega)
    | tokenRecurringLimit =>
      simp only [ActionType.expectedDataSize] at inside
      rw [tokenSpent_of_fits (show loc.abs dataOffset + 32 ≤ data.length by omega)]
      exact commitRecurring_of_fits (by omega)
    | solMaxPerTx | tokenMaxPerTx | programWhitelist | programBlacklist => exact ⟨_, rfl⟩

/-- The commit phase cannot fail. -/
theorem commitActions_of_inside {actions : List ActionView} (inside : ∀ action ∈ actions, Inside data loc action) :
    (commitActions loc out slot actions data).1 = .ok () := by
  induction actions generalizing data with
  | nil => rfl
  | cons action rest ih =>
    rw [List.forall_mem_cons] at inside
    obtain ⟨written, commit⟩ := commitAction_of_inside out slot inside.1
    rw [commitActions, commit]
    apply ih
    intro later member
    rw [Inside, (sameButTotals_commitAction commit).length]
    exact inside.2 later member

end Commit

/-- The evaluation accepts exactly what the policy allows. -/
theorem evaluatePostActions_accepts (slot : ℕ) {data : Bytes} {loc : PolicyLocation} {before after gross : ℕ}
    {flows : List MintFlow} {spent : Spent} {actions : List ActionView} (present : loc.isPresent data = true)
    (parsed : parseActions (loc.slice data) = .ok actions) (sized : WellSized actions)
    (measures : Measures ⟨before - after, gross, flows⟩ spent) :
    (evaluatePostActions data loc before after gross flows slot).1 = .ok () ↔
      PolicyAllows data loc slot actions spent := by
  have inside := inside_of_parse parsed sized
  rw [← checkPostActions_eq_ok measures inside, evaluatePostActions, if_pos present]
  simp only [parsed]
  cases check : checkPostActions data loc ⟨before - after, gross, flows⟩ slot actions with
  | error e => exact iff_of_false Except.error_ne_ok Except.error_ne_ok
  | ok u => exact iff_of_true (commitActions_of_inside inside) rfl

end LazorKit
