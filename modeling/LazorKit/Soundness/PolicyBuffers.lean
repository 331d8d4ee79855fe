import LazorKit.Proofs.PolicyGrammar
import LazorKit.Soundness.PolicyVerdict

/-! # Policies that pass the gate stay readable

The gate runs once, when a session or a Delegate is created; afterwards the engine reads the policy at
fixed offsets and rewrites its running totals. Here a run is any sequence of evaluations before and after
inner instructions, with any arguments, accepted or not. Every call of such a run parses the policy, and
none reads or writes outside the account.
-/

namespace LazorKit

open Solana

/-- One use of the policy engine on an account. -/
inductive PolicyCall where
  | pre (ixs : List CompactInstruction) (accounts : List AccountInfo) (slot : UInt64)
  | post (call : Evaluation)

namespace PolicyCall

/-- The verdict of a call. -/
def outcome (loc : PolicyLocation) (data : Bytes) : PolicyCall → Except ProgramError Unit
  | .pre ixs accounts slot => evaluatePreActions data loc ixs accounts slot.toNat
  | .post call => (call.evaluate loc data).1

/-- The account's bytes behind a call. -/
def after (loc : PolicyLocation) (data : Bytes) : PolicyCall → Bytes
  | .pre .. => data
  | .post call => (call.evaluate loc data).2

end PolicyCall

section Calm

variable {data : Bytes} {loc : PolicyLocation} {slot : ℕ} {out : Outflows}

/-- The error of an out-of-range slice or index. -/
abbrev outOfRange : ProgramError := .runtime .programPanicked

private theorem authError_ne_outOfRange (e : AuthError) : (e : ProgramError) ≠ outOfRange := by
  intro same
  cases same

theorem ActionType.subject_fits {kind : ActionType}
    (names : kind.isToken = true ∨ kind = .programWhitelist ∨ kind = .programBlacklist) :
      32 ≤ kind.expectedDataSize := by
  rcases names with token | rfl | rfl
  · exact token_fits token
  · exact le_rfl
  · exact le_rfl

/-- Looking a program up among the actions of a list type stays inside the account. -/
theorem namesProgram_of_inside {views : List ActionView} {kind : ActionType} (program : Pubkey) (slot : ℕ)
    (list : kind = .programWhitelist ∨ kind = .programBlacklist)
    (inside : ∀ view ∈ views, view.dataOffset + view.actionType.expectedDataSize ≤ data.length) :
    ∃ named, namesProgram data kind program slot views = .ok named := by
  induction views with
  | nil => exact ⟨false, rfl⟩
  | cons view rest ih =>
    rw [List.forall_mem_cons] at inside
    obtain ⟨named, later⟩ := ih inside.2
    rw [namesProgram]
    split
    · next own =>
      have size := ActionType.subject_fits (.inr list)
      rw [← own.1] at size
      rw [readBytes32_of_fits (by omega)]
      simp only [Except.bind_eq_ok, Except.ok.injEq, exists_eq_left']
      split
      · exact ⟨true, rfl⟩
      · exact ⟨named, later⟩
    · exact ⟨named, later⟩

private theorem checkProgram_ne_error {views : List ActionView} {accounts : List AccountInfo} {ix : CompactInstruction}
    (inside : ∀ view ∈ views, view.dataOffset + view.actionType.expectedDataSize ≤ data.length) :
    checkProgram views data accounts slot ix ≠ .error outOfRange := by
  rw [checkProgram]
  refine Except.bind_ne_error ?_ fun target _ => ?_
  · rw [accountByIndex]
    cases accounts[ix.programIdIndex.toNat]? with
    | none =>
      intro same
      cases same
    | some target => exact Except.ok_ne_error
  · obtain ⟨listed, white⟩ := namesProgram_of_inside target.key slot (.inl rfl) inside
    obtain ⟨banned, black⟩ := namesProgram_of_inside target.key slot (.inr rfl) inside
    rw [white, black]
    refine Except.bind_ne_error ?_ fun _ _ => ?_
    · split
      · exact Except.bind_ne_error Except.ok_ne_error fun _ _ => Except.ensure_ne_error (authError_ne_outOfRange _)
      · exact Except.ok_ne_error
    · exact Except.bind_ne_error Except.ok_ne_error fun _ _ => Except.ensure_ne_error (authError_ne_outOfRange _)

private theorem checkCap_ne_error {offset amount : ℕ} {expired : Bool} {exceeded : AuthError}
    (fits : offset + 8 ≤ data.length) : checkCap data offset expired amount exceeded ≠ .error outOfRange := by
  rw [checkCap]
  split
  · rw [readU64_of_fits fits]
    apply Except.bind_ne_error (Except.ensure_ne_error (authError_ne_outOfRange _))
    intro _ _
    exact Except.bind_ne_error Except.ok_ne_error fun _ _ => Except.ensure_ne_error (authError_ne_outOfRange _)
  · exact Except.ok_ne_error

private theorem checkRecurring_ne_error {offset amount : ℕ} {expired : Bool} {exceeded : AuthError}
    (fits : offset + 32 ≤ data.length) :
    checkRecurring data offset expired amount slot exceeded ≠ .error outOfRange := by
  have refuse {p : Prop} [Decidable p] : Except.ensure p (exceeded : ProgramError) ≠ .error outOfRange :=
    Except.ensure_ne_error (authError_ne_outOfRange _)
  rw [checkRecurring]
  split
  · rw [readU64_of_fits (by omega), readU64_of_fits (by omega), readU64_of_fits (by omega), readU64_of_fits (by omega)]
    apply Except.bind_ne_error refuse
    intro _ _
    refine Except.bind_ne_error Except.ok_ne_error fun _ _ => Except.bind_ne_error Except.ok_ne_error fun _ _ => ?_
    refine Except.bind_ne_error Except.ok_ne_error fun _ _ => Except.bind_ne_error Except.ok_ne_error fun _ _ => ?_
    refine Except.bind_ne_error ?_ fun _ _ => refuse
    split
    · exact Except.bind_ne_error refuse fun _ _ => Except.ok_ne_error
    · exact Except.ok_ne_error
  · exact Except.ok_ne_error

private theorem checkSolLimit_ne_error {action : ActionView} (inside : Inside data loc action) :
    checkSolLimit data loc out slot action ≠ .error outOfRange := by
  obtain ⟨kind, expiresAt, dataOffset, dataLen⟩ := action
  simp only [Inside] at inside
  cases kind with
  | solMaxPerTx | solLimit => exact checkCap_ne_error inside
  | solRecurringLimit => exact checkRecurring_ne_error inside
  | tokenMaxPerTx | tokenLimit | tokenRecurringLimit | programWhitelist | programBlacklist => exact Except.ok_ne_error

private theorem checkTokenLimit_ne_error {action : ActionView} (inside : Inside data loc action) :
    checkTokenLimit data loc out slot action ≠ .error outOfRange := by
  obtain ⟨kind, expiresAt, dataOffset, dataLen⟩ := action
  simp only [Inside] at inside
  cases kind with
  | tokenMaxPerTx | tokenLimit =>
    simp only [ActionType.expectedDataSize] at inside
    simp only [checkTokenLimit]
    rw [tokenSpent_of_fits (show loc.abs dataOffset + 32 ≤ data.length by omega)]
    exact Except.bind_ne_error Except.ok_ne_error fun _ _ => checkCap_ne_error (by omega)
  | tokenRecurringLimit =>
    simp only [ActionType.expectedDataSize] at inside
    simp only [checkTokenLimit]
    rw [tokenSpent_of_fits (show loc.abs dataOffset + 32 ≤ data.length by omega)]
    exact Except.bind_ne_error Except.ok_ne_error fun _ _ => checkRecurring_ne_error (by omega)
  | solMaxPerTx | solLimit | solRecurringLimit | programWhitelist | programBlacklist => exact Except.ok_ne_error

private theorem checkPostActions_ne_error {actions : List ActionView}
    (inside : ∀ action ∈ actions, Inside data loc action) :
    checkPostActions data loc out slot actions ≠ .error outOfRange := by
  rw [checkPostActions]
  refine Except.bind_ne_error (Except.forM_ne_error fun action member => checkSolLimit_ne_error (inside action member))
    fun _ _ => ?_
  refine Except.bind_ne_error (Except.forM_ne_error fun action member =>
    checkTokenLimit_ne_error (inside action member))
    fun _ _ => ?_
  apply Except.bind_ne_error (Except.ensure_ne_error (authError_ne_outOfRange _))
  intro _ _
  apply Except.forM_ne_error
  intro flow _
  obtain ⟨named, looked, _⟩ := namesMint_eq_ok flow.mint inside
  rw [checkListedMint, looked]
  split
  · exact Except.bind_ne_error Except.ok_ne_error fun _ _ => Except.ensure_ne_error (authError_ne_outOfRange _)
  · exact Except.ok_ne_error

end Calm

section Runs

variable {loc : PolicyLocation} {data : Bytes} {actions : List ActionView}

/-- An evaluation of a stored policy is refused by a check and writes nothing, or it is accepted. -/
theorem Evaluation.evaluate_cases (call : Evaluation) (present : loc.isPresent data = true)
    (stored : StoredPolicy (loc.slice data) actions) :
    (∃ e, checkPostActions data loc call.outflows call.slot.toNat actions = .error e ∧
        call.evaluate loc data = (.error e, data)) ∨
      ∃ new, call.evaluate loc data = (.ok (), new) := by
  rw [evaluate_eq present stored.parsed]
  cases checkPostActions data loc call.outflows call.slot.toNat actions with
  | error e => exact .inl ⟨e, rfl, rfl⟩
  | ok u =>
    have committed : (commitActions loc call.outflows call.slot.toNat actions data).1 = .ok () :=
      commitActions_of_inside (inside_of_parse stored.parsed stored.wellSized)
    exact .inr ⟨_, Prod.ext committed rfl⟩

theorem Evaluation.evaluate_absent (call : Evaluation) (absent : loc.isPresent data = false) :
    call.evaluate loc data = (.ok (), data) := by
  rw [evaluate, evaluatePostActions, absent]
  rfl

/-- A call on a stored policy reads and writes inside the account. -/
theorem PolicyCall.outcome_ne_error (call : PolicyCall) (stored : StoredPolicy (loc.slice data) actions) :
    call.outcome loc data ≠ .error outOfRange := by
  cases call with
  | pre ixs accounts slot =>
    rw [outcome, evaluatePreActions, stored.parsed]
    split
    · refine Except.bind_ne_error Except.ok_ne_error fun found parsed => Except.forM_ne_error fun ix _ =>
        checkProgram_ne_error ?_
      cases Except.ok.inj parsed
      intro view member
      have fits := (parseActions_eq_ok.mp stored.parsed).1.fits member
      rwa [stored.wellSized view member] at fits
    · exact Except.ok_ne_error
  | post call =>
    rw [outcome]
    cases present : loc.isPresent data with
    | false =>
      rw [call.evaluate_absent present]
      exact Except.ok_ne_error
    | true =>
      rcases call.evaluate_cases present stored with ⟨e, check, refused⟩ | ⟨new, accepted⟩
      · rw [refused, ← check]
        exact checkPostActions_ne_error (inside_of_parse stored.parsed stored.wellSized)
      · rw [accepted]
        exact Except.ok_ne_error

/-- A stored policy is still stored behind a call. -/
theorem PolicyCall.stored_after (call : PolicyCall) (stored : StoredPolicy (loc.slice data) actions) :
    StoredPolicy (loc.slice (call.after loc data)) actions := by
  cases call with
  | pre ixs accounts slot => exact stored
  | post call =>
    rw [after]
    cases present : loc.isPresent data with
    | false => rwa [call.evaluate_absent present]
    | true =>
      rcases call.evaluate_cases present stored with ⟨e, check, refused⟩ | ⟨new, accepted⟩
      · rwa [refused]
      · rw [accepted]
        exact stored.evaluated present accepted

/-- Over a whole run. -/
theorem stored_foldl (calls : List PolicyCall) (stored : StoredPolicy (loc.slice data) actions) :
    StoredPolicy (loc.slice (calls.foldl (PolicyCall.after loc) data)) actions := by
  induction calls generalizing data with
  | nil => exact stored
  | cons call rest ih => exact ih (call.stored_after stored)

end Runs

/-- The gate accepts exactly the encodings of well-formed lists of actions, and such a policy is parsed
and read in range by every call of every run of the engine. -/
structure PolicyBuffers : Prop where
  accepted : ∀ buf, validateActionsBuffer buf = .ok () ↔
    ∃ actions, PolicyAction.WellFormed actions ∧ buf = PolicyAction.encode actions
  parsed : ∀ (loc : PolicyLocation) (data : Bytes) (actions : List PolicyAction), PolicyAction.WellFormed actions →
    loc.slice data = PolicyAction.encode actions → ∀ calls : List PolicyCall,
      parseActions (loc.slice (calls.foldl (PolicyCall.after loc) data)) = .ok (PolicyAction.views 0 actions)
  inRange : ∀ (loc : PolicyLocation) (data : Bytes) (actions : List PolicyAction), PolicyAction.WellFormed actions →
    loc.slice data = PolicyAction.encode actions → ∀ (calls : List PolicyCall) (call : PolicyCall),
      call.outcome loc (calls.foldl (PolicyCall.after loc) data) ≠ .error outOfRange

theorem PolicyAction.WellFormed.stored {actions : List PolicyAction} (form : PolicyAction.WellFormed actions) :
    StoredPolicy (PolicyAction.encode actions) (PolicyAction.views 0 actions) :=
  .of_validate (PolicyAction.validateActionsBuffer_eq_ok.mpr ⟨actions, form, rfl⟩)
    (PolicyAction.parseActions_wellSized.mpr ⟨actions, form.count, rfl, rfl⟩).1

theorem policy_buffers : PolicyBuffers where
  accepted _ := PolicyAction.validateActionsBuffer_eq_ok
  parsed _ _ _ form tail calls := (stored_foldl calls (tail ▸ form.stored)).parsed
  inRange _ _ _ form tail calls call := call.outcome_ne_error (stored_foldl calls (tail ▸ form.stored))

namespace Sample

/-- Only the System program may be invoked. -/
def systemOnly : PolicyAction := ⟨.programWhitelist, 0, systemProgram.bytes, by decide⟩

/-- At most 10 lamports per 100 slots until slot 2000, through the System program only. -/
def gatedActions : List PolicyAction :=
  [⟨.solRecurringLimit, 2000, Bytes.ofNatLE 8 10 ++ Bytes.ofNatLE 8 0 ++ Bytes.ofNatLE 8 100 ++
    Bytes.ofNatLE 8 0, by decide⟩, systemOnly]

/-- Three bytes in front of the policy. -/
def gatedAccount : Bytes := [9, 9, 9] ++ PolicyAction.encode gatedActions

/-- An allowed program is called, 5 lamports leave, and then too many want to. -/
def gatedCalls : List PolicyCall :=
  [.pre [⟨0, [], []⟩] [readonly systemProgram] 150, .post ⟨1000, 995, 5, [], 150⟩, .post ⟨995, 900, 95, [], 151⟩]

end Sample

/-- The gate accepts the policy, which the calls change, and the next call reads it whole. -/
theorem policy_buffers_sample :
    validateActionsBuffer (PolicyAction.encode Sample.gatedActions) = .ok () ∧
      Sample.gatedCalls.foldl (PolicyCall.after ⟨3⟩) Sample.gatedAccount ≠ Sample.gatedAccount ∧
      parseActions (PolicyLocation.slice ⟨3⟩ (Sample.gatedCalls.foldl (PolicyCall.after ⟨3⟩) Sample.gatedAccount)) =
        .ok (PolicyAction.views 0 Sample.gatedActions) ∧
      (PolicyCall.post ⟨995, 994, 1, [], 260⟩).outcome ⟨3⟩
        (Sample.gatedCalls.foldl (PolicyCall.after ⟨3⟩) Sample.gatedAccount) ≠ .error outOfRange := by
  have form : PolicyAction.WellFormed Sample.gatedActions := by
    refine ⟨by decide, ?_, ?_, ?_, ?_⟩
    · decide +kernel
    · decide +kernel
    · decide +kernel
    · unfold PolicyAction.Fresh
      decide +kernel
  have behind : PolicyLocation.slice ⟨3⟩ Sample.gatedAccount = PolicyAction.encode Sample.gatedActions := rfl
  exact ⟨(policy_buffers.accepted _).mpr ⟨_, form, rfl⟩, by decide +kernel,
    policy_buffers.parsed _ _ _ form behind _, policy_buffers.inRange _ _ _ form behind _ _⟩

end LazorKit
