import LazorKit.Proofs.PolicySettle
import LazorKit.Soundness.PolicyBuffers
import LazorKit.Soundness.ProgramLists

/-! # The order of a policy's actions

The engine walks the actions several times, looks mints and programs up by the first match and writes
while it walks. None of it depends on the order: the verdict is a statement about the set of actions and
the outflow of each mint, and every action is settled by itself. So a policy and a reordering of it accept
the same evaluations and end in the same state action by action, and they let the same programs through.
-/

namespace LazorKit

open Solana

private theorem mintOutflow_perm {flows flows' : List MintFlow} (perm : flows.Perm flows')
    (distinct : (flows.map (·.mint)).Nodup) (mint : Bytes) : mintOutflow flows mint = mintOutflow flows' mint := by
  have distinct' : (flows'.map (·.mint)).Nodup := (perm.map _).nodup_iff.mp distinct
  by_cases listed : mint ∈ flows.map (·.mint)
  · obtain ⟨flow, member, rfl⟩ := List.mem_map.mp listed
    rw [mintOutflow_of_mem distinct member, mintOutflow_of_mem distinct' (perm.mem_iff.mp member)]
  · have unlisted : mint ∉ flows'.map (·.mint) := fun member => listed ((perm.map _).mem_iff.mpr member)
    have none_ {flows : List MintFlow} (absent : mint ∉ flows.map (·.mint)) : flows.find? (·.mint = mint) = none := by
      rw [List.find?_eq_none]
      intro flow member same
      exact absent (List.mem_map.mpr ⟨flow, member, by simpa using same⟩)
    rw [mintOutflow, mintOutflow, none_ listed, none_ unlisted]

/-- A commit looks at the SOL that left and at each mint's outflow, not at the list of flows. -/
theorem commitAction_congr {loc : PolicyLocation} {out out' : Outflows} (sol : out.solSpent = out'.solSpent)
    (mints : ∀ mint, mintOutflow out.flows mint = mintOutflow out'.flows mint) (slot : ℕ) (data : Bytes)
    (view : ActionView) : commitAction loc out slot data view = commitAction loc out' slot data view := by
  simp only [commitAction, tokenSpent, sol, mints]

namespace PolicyAction

private theorem settle_congr {out out' : Outflows} (sol : out.solSpent = out'.solSpent)
    (mints : ∀ mint, mintOutflow out.flows mint = mintOutflow out'.flows mint) (slot : ℕ) (action : PolicyAction) :
    action.settle out slot = action.settle out' slot := by
  simp only [settle, commitAction_congr sol mints]

/-- The actions allow these amounts. -/
structure Allows (slot : ℕ) (actions : List PolicyAction) (spent : Spent) : Prop where
  limits : ∀ action ∈ actions, ActionHolds action.data ⟨0⟩ slot spent action.own
  unnamedSol : (∀ action ∈ actions, action.kind.isSol = false) → spent.sol = 0
  unnamedMint : ∀ mint, (∀ action ∈ actions, action.kind.isToken = true → action.subject ≠ mint) →
    spent.ofMint mint = 0

theorem Allows.perm {slot : ℕ} {actions actions' : List PolicyAction} {spent : Spent} (perm : actions.Perm actions')
    (allows : Allows slot actions spent) : Allows slot actions' spent where
  limits action member := allows.limits action (perm.mem_iff.mpr member)
  unnamedSol none_ := allows.unnamedSol fun action member => none_ action (perm.mem_iff.mp member)
  unnamedMint mint none_ := allows.unnamedMint mint fun action member => none_ action (perm.mem_iff.mp member)

/-- An unexpired action of the type names the program. -/
def NamesProgram (slot : ℕ) (actions : List PolicyAction) (kind : ActionType) (program : Pubkey) : Prop :=
  ∃ action ∈ actions, action.kind = kind ∧ isExpired action.own slot = false ∧ action.subject = program.bytes

/-- The lists among the actions allow the program. -/
structure AllowsProgram (slot : ℕ) (actions : List PolicyAction) (program : Pubkey) : Prop where
  whitelisted : (∃ action ∈ actions, action.kind = .programWhitelist) →
    NamesProgram slot actions .programWhitelist program
  notBlacklisted : ¬NamesProgram slot actions .programBlacklist program

private theorem namesProgram_perm {slot : ℕ} {actions actions' : List PolicyAction} {kind : ActionType}
    {program : Pubkey} (perm : actions.Perm actions') (names : NamesProgram slot actions kind program) :
    NamesProgram slot actions' kind program := by
  obtain ⟨action, member, named⟩ := names
  exact ⟨action, perm.mem_iff.mp member, named⟩

theorem AllowsProgram.perm {slot : ℕ} {actions actions' : List PolicyAction} {program : Pubkey}
    (perm : actions.Perm actions') (allows : AllowsProgram slot actions program) :
    AllowsProgram slot actions' program where
  whitelisted := by
    rintro ⟨action, member, list⟩
    exact namesProgram_perm perm (allows.whitelisted ⟨action, perm.mem_iff.mpr member, list⟩)
  notBlacklisted named := allows.notBlacklisted (namesProgram_perm perm.symm named)

section Policy

variable {data : Bytes} {loc : PolicyLocation} {actions : List PolicyAction} {slot : ℕ}

/-- Of the views of a policy and of its actions the same can be said. -/
theorem forall_views {cursor : ℕ} {P : ActionView → Prop} {Q : PolicyAction → Prop}
    (same : ∀ place ∈ placed cursor actions, P (viewAt place.1 place.2) ↔ Q place.2) :
    (∀ view ∈ views cursor actions, P view) ↔ ∀ action ∈ actions, Q action := by
  rw [views, List.forall_mem_map]
  constructor
  · intro each action member
    obtain ⟨place, written, rfl⟩ := (mem_iff_placed cursor).mp member
    exact (same place written).mp (each place written)
  · intro each place written
    exact (same place written).mpr (each _ ((mem_iff_placed cursor).mpr ⟨place, written, rfl⟩))

private theorem policyAllows_iff (tail : loc.slice data = encode actions) {spent : Spent} :
    PolicyAllows data loc slot (views 0 actions) spent ↔ Allows slot actions spent := by
  have limits : (∀ view ∈ views 0 actions, ActionHolds data loc slot spent view) ↔
      ∀ action ∈ actions, ActionHolds action.data ⟨0⟩ slot spent action.own :=
    forall_views fun place member => (standsAt_placed tail member).actionHolds
  have unnamedSol : (∀ view ∈ views 0 actions, view.actionType.isSol = false) ↔
      ∀ action ∈ actions, action.kind.isSol = false := forall_views fun _ _ => Iff.rfl
  have unnamedMint (mint : Bytes) : (∀ view ∈ views 0 actions, view.actionType.isToken = true →
      data.slice (loc.abs view.dataOffset) 32 ≠ mint) ↔
        ∀ action ∈ actions, action.kind.isToken = true → action.subject ≠ mint := by
    refine forall_views fun place member => forall_congr' fun token => ?_
    have fits := ActionType.token_fits token
    rw [(standsAt_placed tail member).subject (by rw [place.2.sized]; exact fits)]
  constructor
  · intro allows
    exact ⟨limits.mp allows.limits, fun none_ => allows.unnamedSol (unnamedSol.mpr none_),
      fun mint none_ => allows.unnamedMint mint ((unnamedMint mint).mpr none_)⟩
  · intro allows
    exact ⟨limits.mpr allows.limits, fun none_ => allows.unnamedSol (unnamedSol.mp none_),
      fun mint none_ => allows.unnamedMint mint ((unnamedMint mint).mp none_)⟩

private theorem names_iff {kind : ActionType} (list : kind = .programWhitelist ∨ kind = .programBlacklist)
    {program : Pubkey} :
    Names (encode actions) (views 0 actions) kind slot program ↔ NamesProgram slot actions kind program := by
  have same {place : ℕ × PolicyAction} (written : place ∈ placed 0 actions) (own : place.2.kind = kind) :
      (encode actions).slice (viewAt place.1 place.2).dataOffset 32 = place.2.subject := by
    have size := ActionType.subject_fits (.inr list)
    have inside : 0 + 32 ≤ place.2.data.length := by
      rw [place.2.sized, own]
      omega
    exact slice_placed_inside [] written inside
  constructor
  · rintro ⟨view, member, type, live, named⟩
    obtain ⟨place, written, rfl⟩ := List.mem_map.mp member
    rw [same written type] at named
    exact ⟨place.2, (mem_iff_placed 0).mpr ⟨place, written, rfl⟩, type, live, named⟩
  · rintro ⟨action, member, type, live, named⟩
    obtain ⟨place, written, rfl⟩ := (mem_iff_placed 0).mp member
    rw [← same written type] at named
    exact ⟨viewAt place.1 place.2, List.mem_map_of_mem written, type, live, named⟩

/-- One instruction passes the lists exactly when its program is there and allowed. -/
theorem checkProgram_iff {accounts : List AccountInfo} {ix : CompactInstruction} :
    checkProgram (views 0 actions) (encode actions) accounts slot ix = .ok () ↔
      ∃ target, accounts[ix.programIdIndex.toNat]? = some target ∧ AllowsProgram slot actions target.key := by
  have inside : ∀ view ∈ views 0 actions,
      view.dataOffset + view.actionType.expectedDataSize ≤ (encode actions).length := by
    intro view member
    have fits := (parses_encode [] actions).fits member
    rwa [wellSized_views 0 actions view member] at fits
  simp only [checkProgram, accountByIndex, Except.bind_eq_ok, Except.ofOption_eq_ok]
  refine exists_congr fun target => and_congr_right fun _ => ?_
  obtain ⟨listed, white⟩ := namesProgram_of_inside target.key slot (.inl rfl) inside
  obtain ⟨banned, black⟩ := namesProgram_of_inside target.key slot (.inr rfl) inside
  have whiteNamed := (namesProgram_eq_ok white).trans (names_iff (.inl rfl))
  have blackNamed := (namesProgram_eq_ok black).trans (names_iff (.inr rfl))
  have gate : (if (views 0 actions).any (·.actionType = .programWhitelist) = true then
        Except.ensure (listed = true) (AuthError.actionProgramNotWhitelisted : ProgramError) else .ok ()) = .ok () ↔
      ((∃ action ∈ actions, action.kind = .programWhitelist) →
        NamesProgram slot actions .programWhitelist target.key) := by
    rw [← whiteNamed, ← any_views 0]
    split
    · next some_ => rw [Except.ensure_eq_ok, imp_iff_right some_]
    · next none_ => exact iff_of_true rfl fun some_ => absurd some_ none_
  simp only [white, black, Except.ok.injEq, exists_eq_left', Except.ensure_eq_ok]
  constructor
  · rintro ⟨_, listedOk, bannedOk⟩
    refine ⟨gate.mp listedOk, fun named => ?_⟩
    rw [blackNamed.mpr named] at bannedOk
    cases bannedOk
  · intro allowed
    have open_ : banned = false := by
      rw [← Bool.not_eq_true, blackNamed]
      exact allowed.notBlacklisted
    exact ⟨(), gate.mpr allowed.whitelisted, open_⟩

private theorem isPresent_iff (tail : loc.slice data = encode actions) : loc.isPresent data = true ↔ actions ≠ [] := by
  have empty : encode actions = [] ↔ actions = [] := by
    cases actions with
    | nil => exact iff_of_true rfl rfl
    | cons action rest => simp [encode_cons, toBytes]
  rw [ne_eq, ← empty, ← tail, PolicyLocation.isPresent, PolicyLocation.slice, List.drop_eq_nil_iff, decide_eq_true_eq,
    Nat.not_le]

private theorem evaluatePreActions_iff (count : actions.length ≤ maxActions) (tail : loc.slice data = encode actions)
    {ixs : List CompactInstruction} {accounts : List AccountInfo} :
    evaluatePreActions data loc ixs accounts slot = .ok () ↔
      (actions ≠ [] → ∀ ix ∈ ixs, ∃ target, accounts[ix.programIdIndex.toNat]? = some target ∧
        AllowsProgram slot actions target.key) := by
  have parsed := (parseActions_wellSized.mpr ⟨actions, count, rfl, rfl⟩).1
  rw [← isPresent_iff tail, evaluatePreActions, tail, parsed]
  split
  · next present =>
    rw [imp_iff_right present]
    apply Except.forM_eq_ok.trans
    exact forall₂_congr fun ix _ => checkProgram_iff
  · next absent => exact iff_of_true rfl fun present => absurd present absent

private theorem accepts_iff (count : actions.length ≤ maxActions) (tail : loc.slice data = encode actions)
    (call : Evaluation) (distinct : (call.mintFlows.map (·.mint)).Nodup) :
    call.Accepts loc data ↔ (actions ≠ [] → Allows call.slot.toNat actions
      ⟨call.outflows.solSpent, call.vaultLamportsGrossOut.toNat, mintOutflow call.mintFlows⟩) := by
  rw [← isPresent_iff tail]
  cases present : loc.isPresent data with
  | false =>
    refine iff_of_true ?_ nofun
    rw [Evaluation.Accepts, call.evaluate_absent present]
  | true =>
    obtain ⟨parsed, sized⟩ := parseActions_wellSized.mpr ⟨actions, count, rfl, rfl⟩
    rw [← tail] at parsed
    have gross : call.vaultLamportsGrossOut.toNat = min call.vaultLamportsGrossOut.toNat maxU64 :=
      (Nat.min_eq_left (Nat.le_pred_of_lt call.vaultLamportsGrossOut.toNat_lt)).symm
    rw [imp_iff_right rfl, ← policyAllows_iff tail]
    exact evaluatePostActions_accepts call.slot.toNat present parsed sized ⟨rfl, gross, fun _ => rfl, distinct⟩

/-- An accepted evaluation leaves the policy of the settled actions. -/
theorem slice_evaluate (count : actions.length ≤ maxActions) (tail : loc.slice data = encode actions)
    {call : Evaluation} (accepts : call.Accepts loc data) :
    loc.slice (call.evaluate loc data).2 = encode (actions.map (settle call.outflows call.slot.toNat)) := by
  cases present : loc.isPresent data with
  | false =>
    have none_ : actions = [] := by
      by_contra some_
      rw [(isPresent_iff tail).mpr some_] at present
      cases present
    rw [call.evaluate_absent present, tail, none_]
    rfl
  | true =>
    have parsed := (parseActions_wellSized.mpr ⟨actions, count, rfl, rfl⟩).1
    rw [← tail] at parsed
    exact encode_settle tail (accepts.inv present parsed).2

end Policy

end PolicyAction

/-- Two accounts that carry one policy, its actions in one order and in another. -/
structure Reordered (actions actions' : List PolicyAction) (loc loc' : PolicyLocation) (data data' : Bytes) : Prop where
  count : actions.length ≤ maxActions
  perm : actions.Perm actions'
  policy : loc.slice data = PolicyAction.encode actions
  policy' : loc'.slice data' = PolicyAction.encode actions'

/-- Reordering a policy, and the flows it is evaluated on, changes neither the verdicts nor what becomes
of an action. -/
theorem policy_order (actions actions' : List PolicyAction) (loc loc' : PolicyLocation) (data data' : Bytes)
    (call : Evaluation) (flows' : List MintFlow) (reordered : Reordered actions actions' loc loc' data data')
    (sameFlows : call.mintFlows.Perm flows') (distinct : (call.mintFlows.map (·.mint)).Nodup) :
    (call.Accepts loc data ↔ Evaluation.Accepts loc' data' { call with mintFlows := flows' }) ∧
      (call.Accepts loc data → ∃ settled : PolicyAction → PolicyAction,
        loc.slice (call.evaluate loc data).2 = PolicyAction.encode (actions.map settled) ∧
          loc'.slice (Evaluation.evaluate loc' data' { call with mintFlows := flows' }).2 =
            PolicyAction.encode (actions'.map settled)) ∧
      ∀ (ixs : List CompactInstruction) (accounts : List AccountInfo) (slot : UInt64),
        evaluatePreActions data loc ixs accounts slot.toNat = .ok () ↔
          evaluatePreActions data' loc' ixs accounts slot.toNat = .ok () := by
  obtain ⟨count, perm, policy, policy'⟩ := reordered
  have count' : actions'.length ≤ maxActions := by rwa [← perm.length_eq]
  have flowsEq := mintOutflow_perm sameFlows distinct
  have distinct' : (flows'.map (·.mint)).Nodup := (sameFlows.map _).nodup_iff.mp distinct
  have empty : actions = [] ↔ actions' = [] :=
    ⟨fun none_ => (none_ ▸ perm).nil_eq.symm, fun none_ => (none_ ▸ perm).eq_nil⟩
  have verdict : call.Accepts loc data ↔ Evaluation.Accepts loc' data' { call with mintFlows := flows' } := by
    rw [PolicyAction.accepts_iff count policy call distinct, PolicyAction.accepts_iff count' policy' _ distinct',
      ne_eq, ne_eq, empty, funext flowsEq]
    exact imp_congr_right fun _ => ⟨fun allows => allows.perm perm, fun allows => allows.perm perm.symm⟩
  refine ⟨verdict, fun accepts => ?_, fun ixs accounts slot => ?_⟩
  · refine ⟨PolicyAction.settle call.outflows call.slot.toNat, PolicyAction.slice_evaluate count policy accepts, ?_⟩
    have same : PolicyAction.settle (Evaluation.outflows { call with mintFlows := flows' }) call.slot.toNat =
        PolicyAction.settle call.outflows call.slot.toNat := by
      funext action
      apply PolicyAction.settle_congr
      · rfl
      · exact fun mint => (flowsEq mint).symm
    rw [PolicyAction.slice_evaluate count' policy' (verdict.mp accepts), same]
  · rw [PolicyAction.evaluatePreActions_iff count policy, PolicyAction.evaluatePreActions_iff count' policy', ne_eq,
      ne_eq, empty]
    refine imp_congr_right fun _ => forall₂_congr fun ix _ => exists_congr fun target => and_congr_right fun _ => ?_
    exact ⟨fun allows => allows.perm perm, fun allows => allows.perm perm.symm⟩

namespace Sample

/-- A lifetime limit of 5000 lamports. -/
def solAction : PolicyAction := ⟨.solLimit, 0, Bytes.ofNatLE 8 5000, rfl⟩

/-- A lifetime limit of 100 tokens of the mint. -/
def tokenAction : PolicyAction := ⟨.tokenLimit, 0, mint.bytes ++ Bytes.ofNatLE 8 100, by decide⟩

/-- A session's account with a policy. -/
def carrying (actions : List PolicyAction) : Bytes := List.replicate sessionHeaderSize 0 ++ PolicyAction.encode actions

/-- 60 of the tokens and 2000 lamports leave; another mint comes in. -/
def spending : Evaluation := ⟨9000, 7000, 2000, [⟨mint.bytes, 500, 440⟩, ⟨List.replicate 32 7, 0, 5⟩], 1004⟩

end Sample

/-- The policy in either order accepts the spending, is left with 3000 lamports and 40 tokens, and refuses to have
another program invoked. -/
theorem policy_order_sample :
    Evaluation.Accepts ⟨sessionHeaderSize⟩ (Sample.carrying [Sample.systemOnly, Sample.tokenAction, Sample.solAction])
        { Sample.spending with mintFlows := Sample.spending.mintFlows.reverse } ∧
      (∃ settled : PolicyAction → PolicyAction,
        PolicyAction.encode ([Sample.solAction, Sample.tokenAction, Sample.systemOnly].map settled) =
            PolicyAction.encode [⟨.solLimit, 0, Bytes.ofNatLE 8 3000, rfl⟩,
              ⟨.tokenLimit, 0, Sample.mint.bytes ++ Bytes.ofNatLE 8 40, by decide⟩, Sample.systemOnly] ∧
          PolicyLocation.slice ⟨sessionHeaderSize⟩ (Evaluation.evaluate ⟨sessionHeaderSize⟩
              (Sample.carrying [Sample.systemOnly, Sample.tokenAction, Sample.solAction])
              { Sample.spending with mintFlows := Sample.spending.mintFlows.reverse }).2 =
            PolicyAction.encode ([Sample.systemOnly, Sample.tokenAction, Sample.solAction].map settled)) ∧
      evaluatePreActions (Sample.carrying [Sample.systemOnly, Sample.tokenAction, Sample.solAction])
        ⟨sessionHeaderSize⟩ [⟨0, [], []⟩] [Sample.readonly splTokenProgram] 1004 ≠ .ok () := by
  have reordered : Reordered [Sample.solAction, Sample.tokenAction, Sample.systemOnly]
      [Sample.systemOnly, Sample.tokenAction, Sample.solAction] ⟨sessionHeaderSize⟩ ⟨sessionHeaderSize⟩
      (Sample.carrying [Sample.solAction, Sample.tokenAction, Sample.systemOnly])
      (Sample.carrying [Sample.systemOnly, Sample.tokenAction, Sample.solAction]) := by
    refine ⟨by decide, ?_, by decide +kernel, by decide +kernel⟩
    exact (List.reverse_perm [Sample.systemOnly, Sample.tokenAction, Sample.solAction])
  obtain ⟨verdict, settles, invoked⟩ :=
    policy_order _ _ _ _ _ _ Sample.spending _ reordered (List.reverse_perm _).symm (by decide)
  have accepted : Sample.spending.Accepts ⟨sessionHeaderSize⟩
      (Sample.carrying [Sample.solAction, Sample.tokenAction, Sample.systemOnly]) := by decide +kernel
  obtain ⟨settled, inOrder, inOtherOrder⟩ := settles accepted
  refine ⟨verdict.mp accepted, ⟨settled, inOrder.symm.trans (by decide +kernel), inOtherOrder⟩, ?_⟩
  intro allowed
  exact absurd ((invoked [⟨0, [], []⟩] [Sample.readonly splTokenProgram] 1004).mpr allowed) (by decide +kernel)

end LazorKit
