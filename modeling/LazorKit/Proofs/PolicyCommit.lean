import LazorKit.Proofs.SpendingLimits

/-! # What one evaluation does to one action

The actions of a buffer lie behind one another, so committing one leaves the data of every other alone.
Hence an accepted evaluation changes the totals of each action exactly as if it were the only one, and a
rejected evaluation changes nothing.
-/

namespace LazorKit

open Solana

/-- Each action's data ends where the next one's header begins, or earlier. -/
theorem Parses.pairwise {buf : Bytes} {cursor : ℕ} {views : List ActionView} (parses : Parses buf cursor views) :
    views.Pairwise fun first second => first.dataOffset + first.dataLen ≤ second.dataOffset := by
  induction views generalizing cursor with
  | nil => exact .nil
  | cons view rest ih =>
    obtain ⟨_, _, _, _, _, _, tail⟩ := parses
    refine List.pairwise_cons.mpr ⟨fun later member => ?_, ih tail⟩
    have behind := tail.le_dataOffset member
    omega

/-- Two actions whose data do not overlap. -/
def Apart (first second : ActionView) : Prop :=
  first.dataOffset + first.dataLen ≤ second.dataOffset ∨ second.dataOffset + second.dataLen ≤ first.dataOffset

/-- Rewriting the totals of actions apart from this one leaves its data. -/
theorem SameButTotals.slice_apart {start : ℕ} {views : List ActionView} {old new : Bytes} {action : ActionView}
    (same : SameButTotals start views old new) (sized : WellSized views) (apart : ∀ view ∈ views, Apart view action)
    {offset count : ℕ} (low : start + action.dataOffset ≤ offset)
    (high : offset + count ≤ start + action.dataOffset + action.dataLen) :
    new.slice offset count = old.slice offset count := by
  apply Bytes.slice_congr
  intro i above below
  apply same.bytes
  intro view member j position total
  have inside := total.inside (sized view member)
  rcases apart view member with before | after
  · omega
  · omega

/-- Where an action's numbers begin in its data: behind the mint, for a token action. -/
def ActionType.fieldBase (kind : ActionType) : ℕ := if kind.isToken then 32 else 0

/-- One of an action's numbers. -/
def fieldAt (data : Bytes) (loc : PolicyLocation) (action : ActionView) (field : ℕ) : ℕ :=
  storedU64 data (loc.abs action.dataOffset + action.actionType.fieldBase + field)

/-- The mint a token action names. -/
def mintNamed (data : Bytes) (loc : PolicyLocation) (action : ActionView) : Bytes :=
  data.slice (loc.abs action.dataOffset) 32

/-- What left of the asset an action names. -/
def outflowOf (data : Bytes) (loc : PolicyLocation) (out : Outflows) (action : ActionView) : ℕ :=
  if action.actionType.isToken then mintOutflow out.flows (mintNamed data loc action) else out.solSpent

/-- The lifetime limits. -/
def ActionType.isLifetime : ActionType → Bool
  | .solLimit | .tokenLimit => true
  | _ => false

/-- The limits per window. -/
def ActionType.isRecurring : ActionType → Bool
  | .solRecurringLimit | .tokenRecurringLimit => true
  | _ => false

/-- An action that an evaluation writes: in force, and something left of its asset. -/
def isCharged (data : Bytes) (loc : PolicyLocation) (out : Outflows) (slot : ℕ) (action : ActionView) : Bool :=
  isExpired action slot = false ∧ 0 < outflowOf data loc out action

private theorem commitCap_zero (data : Bytes) (offset : ℕ) : commitCap data offset 0 = .ok data := by
  rw [commitCap, if_neg (Nat.lt_irrefl 0)]

private theorem commitRecurring_zero (data : Bytes) (offset slot : ℕ) :
    commitRecurring data offset 0 slot = .ok data := by
  rw [commitRecurring, if_neg (Nat.lt_irrefl 0)]

theorem length_splice_u64 {data : Bytes} {offset : ℕ} (fits : offset + 8 ≤ data.length) (value : ℕ) :
    (data.splice offset (Bytes.ofNatLE 8 value)).length = data.length :=
  Bytes.length_splice (by rwa [Bytes.length_ofNatLE])

private theorem storedU64_splice_self {data : Bytes} {offset value : ℕ} (fits : offset + 8 ≤ data.length)
    (small : value ≤ maxU64) : storedU64 (data.splice offset (Bytes.ofNatLE 8 value)) offset = value := by
  rw [storedU64, Bytes.slice_splice_self (by rwa [Bytes.length_ofNatLE]) (by simp), Bytes.toNatLE_ofNatLE_of_lt]
  rw [maxU64] at small
  omega

private theorem storedU64_splice_of_disjoint {data : Bytes} {offset other value : ℕ} (fits : offset + 8 ≤ data.length)
    (disjoint : other + 8 ≤ offset ∨ offset + 8 ≤ other) :
    storedU64 (data.splice offset (Bytes.ofNatLE 8 value)) other = storedU64 data other := by
  rw [storedU64, Bytes.slice_splice_of_disjoint (by rwa [Bytes.length_ofNatLE]) (by rwa [Bytes.length_ofNatLE]),
    storedU64]

section One

variable {data written : Bytes} {loc : PolicyLocation} {out : Outflows} {slot : ℕ} {action : ActionView}

/-- The commit of a lifetime limit, whichever asset it names. -/
theorem commitAction_lifetime (kind : action.actionType.isLifetime = true) (inside : Inside data loc action)
    (live : isExpired action slot = false) :
    commitAction loc out slot data action =
      commitCap data (loc.abs action.dataOffset + action.actionType.fieldBase) (outflowOf data loc out action) := by
  obtain ⟨type, expiresAt, dataOffset, dataLen⟩ := action
  rw [commitAction, live]
  cases type with
  | solLimit => rfl
  | tokenLimit =>
    simp only [Inside, ActionType.expectedDataSize] at inside
    simp only [Bool.false_eq_true, if_false]
    rw [tokenSpent_of_fits (show loc.abs dataOffset + 32 ≤ data.length by omega)]
    rfl
  | _ => cases kind

/-- The commit of a limit per window, whichever asset it names. -/
theorem commitAction_recurring (kind : action.actionType.isRecurring = true) (inside : Inside data loc action)
    (live : isExpired action slot = false) :
    commitAction loc out slot data action =
      commitRecurring data (loc.abs action.dataOffset + action.actionType.fieldBase) (outflowOf data loc out action)
        slot := by
  obtain ⟨type, expiresAt, dataOffset, dataLen⟩ := action
  rw [commitAction, live]
  cases type with
  | solRecurringLimit => rfl
  | tokenRecurringLimit =>
    simp only [Inside, ActionType.expectedDataSize] at inside
    simp only [Bool.false_eq_true, if_false]
    rw [tokenSpent_of_fits (show loc.abs dataOffset + 32 ≤ data.length by omega)]
    rfl
  | _ => cases kind

private theorem commitAction_expired (expired : isExpired action slot = true) :
    commitAction loc out slot data action = .ok data := by
  rw [commitAction, expired]
  rfl

/-- An action that is not charged is not written. -/
theorem commitAction_of_not_charged (inside : Inside data loc action)
    (idle : isCharged data loc out slot action = false) : commitAction loc out slot data action = .ok data := by
  cases expired : isExpired action slot with
  | true => exact commitAction_expired expired
  | false =>
    have nothing : outflowOf data loc out action = 0 := by simpa [isCharged, expired] using idle
    cases kind : action.actionType with
    | solLimit | tokenLimit =>
      rw [commitAction_lifetime (by rw [kind]; rfl) inside expired, nothing, commitCap_zero]
    | solRecurringLimit | tokenRecurringLimit =>
      rw [commitAction_recurring (by rw [kind]; rfl) inside expired, nothing, commitRecurring_zero]
    | solMaxPerTx | tokenMaxPerTx | programWhitelist | programBlacklist => simp [commitAction, expired, kind]

theorem ActionType.lifetime_fits {kind : ActionType} (lifetime : kind.isLifetime = true) :
    kind.fieldBase + 8 = kind.expectedDataSize := by
  cases kind <;> first | rfl | cases lifetime

theorem ActionType.recurring_fits {kind : ActionType} (recurring : kind.isRecurring = true) :
    kind.fieldBase + 32 = kind.expectedDataSize := by
  cases kind <;> first | rfl | cases recurring

/-- Committing a lifetime limit lowers what remains by what left. -/
theorem commitAction_remaining (kind : action.actionType.isLifetime = true) (inside : Inside data loc action)
    (commit : commitAction loc out slot data action = .ok written) :
    fieldAt written loc action 0 =
      fieldAt data loc action 0 - if isExpired action slot then 0 else outflowOf data loc out action := by
  have size := ActionType.lifetime_fits kind
  have fits : loc.abs action.dataOffset + action.actionType.fieldBase + 8 ≤ data.length := by
    rw [Inside] at inside
    omega
  cases expired : isExpired action slot with
  | true =>
    rw [commitAction_expired expired] at commit
    cases commit
    simp
  | false =>
    rw [commitAction_lifetime kind inside expired, commitCap] at commit
    split at commit
    · rw [readU64_of_fits fits] at commit
      simp only [Except.bind_eq_ok, Except.ok.injEq, exists_eq_left'] at commit
      rw [writeU64_of_fits fits] at commit
      cases commit
      have bound := storedU64_le data (loc.abs action.dataOffset + action.actionType.fieldBase)
      rw [fieldAt, Nat.add_zero, storedU64_splice_self fits (by omega)]
      rfl
    · next nothing =>
      cases commit
      simp only [Bool.false_eq_true, if_false]
      omega

/-- Committing a limit per window adds to what was spent, or opens a window with the amount. -/
theorem commitAction_window (kind : action.actionType.isRecurring = true) (inside : Inside data loc action)
    (live : isExpired action slot = false) (some_ : 0 < outflowOf data loc out action)
    (small : fieldAt data loc action 16 < slot - fieldAt data loc action 24 → outflowOf data loc out action ≤ maxU64)
    (clock : slot ≤ maxU64) (commit : commitAction loc out slot data action = .ok written) :
    (fieldAt written loc action 8, fieldAt written loc action 24) =
      if fieldAt data loc action 16 < slot - fieldAt data loc action 24 then (outflowOf data loc out action, slot)
      else (saturatingAdd (fieldAt data loc action 8) (outflowOf data loc out action), fieldAt data loc action 24) := by
  have size := ActionType.recurring_fits kind
  have fits : loc.abs action.dataOffset + action.actionType.fieldBase + 32 ≤ data.length := by
    rw [Inside] at inside
    omega
  rw [commitAction_recurring kind inside live, commitRecurring, if_pos some_, readU64_of_fits (by omega),
    readU64_of_fits (by omega), readU64_of_fits (by omega)] at commit
  simp only [Except.bind_eq_ok, Except.ok.injEq, exists_eq_left'] at commit
  obtain ⟨middle, first, second⟩ := commit
  rw [writeU64_of_fits (by omega)] at first
  cases first
  have width (value : ℕ) : (data.splice (loc.abs action.dataOffset + action.actionType.fieldBase + 8)
      (Bytes.ofNatLE 8 value)).length = data.length := length_splice_u64 (by omega) value
  rw [writeU64_of_fits (by rw [width]; omega)] at second
  cases second
  have last := storedU64_le data (loc.abs action.dataOffset + action.actionType.fieldBase + 24)
  rw [fieldAt, fieldAt, storedU64_splice_of_disjoint (by rw [width]; omega) (by omega),
    storedU64_splice_self (by omega), storedU64_splice_self (by rw [width]; omega)]
  · change (_, _) = if storedU64 data _ < slot - storedU64 data _ then _ else _
    split <;> rfl
  · split <;> omega
  · split
    · next late => exact small late
    · exact Nat.min_le_right ..

end One

/-- The data of an action is the same in both. -/
def SameData (loc : PolicyLocation) (action : ActionView) (old new : Bytes) : Prop :=
  ∀ offset count, loc.abs action.dataOffset ≤ offset →
    offset + count ≤ loc.abs action.dataOffset + action.dataLen → new.slice offset count = old.slice offset count

section Data

variable {loc : PolicyLocation} {action : ActionView} {old new : Bytes}

theorem SameData.refl (loc : PolicyLocation) (action : ActionView) (data : Bytes) : SameData loc action data data :=
  fun _ _ _ _ => rfl

theorem SameButTotals.sameData {views : List ActionView} (same : SameButTotals loc.offset views old new)
    (sized : WellSized views) (apart : ∀ view ∈ views, Apart view action) : SameData loc action old new :=
  fun _ _ low high => same.slice_apart sized apart low high

theorem SameData.fieldAt (same : SameData loc action old new) {field : ℕ}
    (fits : action.actionType.fieldBase + field + 8 ≤ action.dataLen) :
    fieldAt new loc action field = fieldAt old loc action field :=
  congrArg Bytes.toNatLE (same _ _ (by omega) (by omega))

theorem SameData.mintNamed (same : SameData loc action old new) (fits : 32 ≤ action.dataLen) :
    mintNamed new loc action = mintNamed old loc action := same _ _ le_rfl (by omega)

theorem ActionType.token_fits {kind : ActionType} (token : kind.isToken = true) : 32 ≤ kind.expectedDataSize := by
  cases kind <;> simp_all [ActionType.isToken, ActionType.expectedDataSize]

theorem SameData.outflowOf (same : SameData loc action old new)
    (sized : action.dataLen = action.actionType.expectedDataSize) (out : Outflows) :
    outflowOf new loc out action = outflowOf old loc out action := by
  rw [LazorKit.outflowOf, LazorKit.outflowOf]
  split
  · next token =>
    have fits := ActionType.token_fits token
    rw [same.mintNamed (by omega)]
  · rfl

end Data

/-- Among actions that lie behind one another, each is apart from those in front of it and behind it. -/
theorem apart_of_pairwise {left right : List ActionView} {action : ActionView}
    (order : (left ++ action :: right).Pairwise
      fun first second => first.dataOffset + first.dataLen ≤ second.dataOffset) :
    (∀ view ∈ left, Apart view action) ∧ ∀ view ∈ right, Apart view action := by
  obtain ⟨_, tail, across⟩ := List.pairwise_append.mp order
  refine ⟨fun view member => .inl (across view member action (List.mem_cons_self ..)), fun view member => .inr ?_⟩
  exact (List.pairwise_cons.mp tail).1 view member

/-- A successful commit of a list is a commit of its parts in order. -/
theorem commitActions_append {loc : PolicyLocation} {out : Outflows} {slot : ℕ} {left right : List ActionView}
    {data new : Bytes} (success : commitActions loc out slot (left ++ right) data = (.ok (), new)) :
    ∃ middle, commitActions loc out slot left data = (.ok (), middle) ∧
      commitActions loc out slot right middle = (.ok (), new) := by
  induction left generalizing data with
  | nil => exact ⟨data, rfl, success⟩
  | cons view rest ih =>
    rw [List.cons_append, commitActions] at success
    rw [commitActions]
    split at success
    · cases success
    · next written commit =>
      obtain ⟨middle, first, second⟩ := ih success
      exact ⟨middle, first, second⟩

/-- Each action is committed as if it were the only one. -/
theorem commitActions_one {loc : PolicyLocation} {out : Outflows} {slot : ℕ} {views : List ActionView}
    {data new : Bytes} (sized : WellSized views)
    (order : views.Pairwise fun first second => first.dataOffset + first.dataLen ≤ second.dataOffset)
    {action : ActionView} (member : action ∈ views)
    (success : commitActions loc out slot views data = (.ok (), new)) :
    ∃ middle written, middle.length = data.length ∧ SameData loc action data middle ∧
      commitAction loc out slot middle action = .ok written ∧ SameData loc action written new := by
  obtain ⟨left, right, rfl⟩ := List.append_of_mem member
  obtain ⟨apartLeft, apartRight⟩ := apart_of_pairwise order
  obtain ⟨middle, before, rest⟩ := commitActions_append success
  have front := sameButTotals_commitActions before
  rw [commitActions] at rest
  split at rest
  · cases rest
  · next written commit =>
    have back := sameButTotals_commitActions rest
    exact ⟨middle, written, front.length, front.sameData (fun view here => sized view (by simp [here])) apartLeft,
      commit, back.sameData (fun view here => sized view (by simp [here])) apartRight⟩

/-- The arguments of one evaluation. -/
structure Evaluation where
  vaultLamportsBefore : UInt64
  vaultLamportsAfter : UInt64
  vaultLamportsGrossOut : UInt64
  mintFlows : List MintFlow
  slot : UInt64

namespace Evaluation

/-- What left, as the evaluation counts it: SOL on balance, SOL gross, and the mints. -/
def outflows (call : Evaluation) : Outflows :=
  ⟨call.vaultLamportsBefore.toNat - call.vaultLamportsAfter.toNat, call.vaultLamportsGrossOut.toNat, call.mintFlows⟩

/-- Evaluate the policy of an account: the verdict, and the account's bytes afterwards. -/
def evaluate (loc : PolicyLocation) (data : Bytes) (call : Evaluation) : Except ProgramError Unit × Bytes :=
  evaluatePostActions data loc call.vaultLamportsBefore.toNat call.vaultLamportsAfter.toNat
    call.vaultLamportsGrossOut.toNat call.mintFlows call.slot.toNat

/-- The evaluation accepts. -/
def Accepts (loc : PolicyLocation) (data : Bytes) (call : Evaluation) : Prop := (call.evaluate loc data).1 = .ok ()

instance (loc : PolicyLocation) (data : Bytes) (call : Evaluation) : Decidable (call.Accepts loc data) :=
  inferInstanceAs (Decidable ((call.evaluate loc data).1 = .ok ()))

variable {loc : PolicyLocation} {data : Bytes} {actions : List ActionView} {call : Evaluation}

theorem evaluate_eq (present : loc.isPresent data = true) (parsed : parseActions (loc.slice data) = .ok actions) :
    call.evaluate loc data =
      match checkPostActions data loc call.outflows call.slot.toNat actions with
      | .error e => (.error e, data)
      | .ok _ => commitActions loc call.outflows call.slot.toNat actions data := by
  rw [evaluate, evaluatePostActions, if_pos present]
  simp only [parsed]
  rfl

/-- An accepted evaluation passed every check and committed every action. -/
theorem Accepts.inv (present : loc.isPresent data = true) (parsed : parseActions (loc.slice data) = .ok actions)
    (accepts : call.Accepts loc data) :
    checkPostActions data loc call.outflows call.slot.toNat actions = .ok () ∧
      commitActions loc call.outflows call.slot.toNat actions data = (.ok (), (call.evaluate loc data).2) := by
  rw [Accepts, evaluate_eq present parsed] at accepts
  rw [evaluate_eq present parsed]
  cases check : checkPostActions data loc call.outflows call.slot.toNat actions with
  | error e =>
    rw [check] at accepts
    cases accepts
  | ok u =>
    rw [check] at accepts
    exact ⟨rfl, Prod.ext accepts rfl⟩

/-- What the checks of an accepted evaluation say about one action. -/
theorem Accepts.limits (accepted : checkPostActions data loc call.outflows call.slot.toNat actions = .ok ())
    {action : ActionView} (member : action ∈ actions) :
    checkSolLimit data loc call.outflows call.slot.toNat action = .ok () ∧
      checkTokenLimit data loc call.outflows call.slot.toNat action = .ok () := by
  simp only [checkPostActions, Except.bind_eq_ok, Except.ensure_eq_ok, exists_const] at accepted
  obtain ⟨_, sol, _, token, _, _⟩ := accepted
  exact ⟨Except.forM_eq_ok.mp sol action member, Except.forM_eq_ok.mp token action member⟩

end Evaluation

/-- A passed check of a lifetime limit. -/
theorem capHolds_of_check {data : Bytes} {loc : PolicyLocation} {out : Outflows} {slot : ℕ} {action : ActionView}
    (kind : action.actionType.isLifetime = true) (inside : Inside data loc action)
    (check : checkSolLimit data loc out slot action = .ok () ∧ checkTokenLimit data loc out slot action = .ok ()) :
    outflowOf data loc out action = 0 ∨
      isExpired action slot = false ∧ outflowOf data loc out action ≤ fieldAt data loc action 0 := by
  obtain ⟨type, expiresAt, dataOffset, dataLen⟩ := action
  simp only [Inside] at inside
  cases type with
  | solLimit => exact (checkCap_eq_ok inside).mp check.1
  | tokenLimit =>
    simp only [ActionType.expectedDataSize] at inside
    have token := check.2
    simp only [checkTokenLimit] at token
    rw [tokenSpent_of_fits (show loc.abs dataOffset + 32 ≤ data.length by omega)] at token
    exact (checkCap_eq_ok (show loc.abs dataOffset + 32 + 8 ≤ data.length by omega)).mp token
  | _ => cases kind

/-- A passed check of a limit per window. -/
theorem recurringHolds_of_check {data : Bytes} {loc : PolicyLocation} {out : Outflows} {slot : ℕ} {action : ActionView}
    (kind : action.actionType.isRecurring = true) (inside : Inside data loc action)
    (check : checkSolLimit data loc out slot action = .ok () ∧ checkTokenLimit data loc out slot action = .ok ()) :
    outflowOf data loc out action = 0 ∨
      isExpired action slot = false ∧
        if fieldAt data loc action 16 < slot - fieldAt data loc action 24 then
          outflowOf data loc out action ≤ fieldAt data loc action 0
        else fieldAt data loc action 8 + outflowOf data loc out action ≤ fieldAt data loc action 0 ∨
          fieldAt data loc action 0 = maxU64 := by
  obtain ⟨type, expiresAt, dataOffset, dataLen⟩ := action
  simp only [Inside] at inside
  cases type with
  | solRecurringLimit => exact (checkRecurring_eq_ok inside).mp check.1
  | tokenRecurringLimit =>
    simp only [ActionType.expectedDataSize] at inside
    have token := check.2
    simp only [checkTokenLimit] at token
    rw [tokenSpent_of_fits (show loc.abs dataOffset + 32 ≤ data.length by omega)] at token
    exact (checkRecurring_eq_ok (show loc.abs dataOffset + 32 + 32 ≤ data.length by omega)).mp token
  | _ => cases kind

end LazorKit
