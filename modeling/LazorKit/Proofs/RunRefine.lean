import LazorKit.Proofs.AuthorityRefine
import LazorKit.Proofs.ProtocolRefine
import LazorKit.Proofs.SessionRefine
import LazorKit.ToMathlib.Runs

/-! # Runs refine the protocol

Every successful call is one transition of the registry, and nothing else that can happen to the
ledger moves it. Whole runs are therefore runs of the transition system, from any ledger in which
live records are funded; a ledger without records is one.
-/

namespace LazorKit

open Solana

variable {dep : Deployment} {ledger : Ledger}

namespace Call

def discriminator (call : Call) : UInt8 := call.data.byte 0

/-- The data behind the discriminator. -/
def arguments (call : Call) : Bytes := call.data.drop 1

/-- The accounts the processor sees: where a fee is due, without the four trailing fee accounts. -/
def processorAccounts (call : Call) : List AccountInfo :=
  if isFeeEligible call.discriminator then call.accounts.infos.take (call.accounts.infos.length - 4)
  else call.accounts.infos

def slot (call : Call) : ℕ := call.frame.slot.toNat

end Call

private theorem dispatch_refines {fr : Frame} {discriminator : UInt8} {processorAccounts accounts : List AccountInfo}
    {data : Bytes} {m m' : Machine Approval}
    (same : isFeeEligible discriminator = false → accounts = processorAccounts)
    (success : dispatch dep fr discriminator processorAccounts accounts data m = .ok m') :
    Refines dep fr processorAccounts data discriminator m m' := by
  unfold dispatch at success
  split at success
  · exact processCreateWallet_refines success
  · exact processAddAuthority_refines success
  · exact processRemoveAuthority_refines success
  · exact processTransferOwnership_refines success
  · exact processExecute_refines success
  · exact processCreateSession_refines success
  · exact processAuthorize_refines success
  · exact processExecuteDeferred_refines success
  · exact processReclaimDeferred_refines success
  · exact processRevokeSession_refines success
  · exact (processInitializeProtocol_quiet success).refines (by decide)
  · exact (processUpdateProtocol_quiet success).refines (by decide)
  · exact (processRegisterIntegrator_quiet success).refines (by decide)
  · exact (processWithdrawTreasury_quiet success).refines (by decide)
  · exact (processInitializeTreasuryShard_quiet success).refines (by decide)
  · exact (processProposeProtocolAdmin_quiet success).refines (by decide)
  · exact (processAcceptProtocolAdmin_quiet success).refines (by decide)
  · rw [same rfl] at success
    exact processMigrateWallet_refines success
  · exact processCloseExpiredSession_refines success
  · cases success

/-- The machine the processor starts from: after the fee where one is due, else as it was. -/
def Collected (dep : Deployment) (call : Call) (m collected : Machine Approval) : Prop :=
  if isFeeEligible call.discriminator then
    tryCollectFee dep call.frame call.discriminator call.accounts.infos m = .ok (collected, call.processorAccounts)
  else collected = m

theorem Collected.quiet {call : Call} {m collected : Machine Approval} (start : Collected dep call m collected) :
    Quiet dep m collected := by
  unfold Collected at start
  split at start
  · exact (tryCollectFee_eq_ok start).1
  · subst start
    exact .refl dep collected

/-- A successful instruction collects its fee and then runs its processor. -/
theorem processInstruction_eq_ok {call : Call} {m m' : Machine Approval}
    (success : processInstruction dep call.frame call.accounts.infos call.data m = .ok m') :
    ∃ collected, Collected dep call m collected ∧
      dispatch dep call.frame call.discriminator call.processorAccounts call.accounts.infos call.arguments
        collected = .ok m' := by
  simp only [processInstruction, Except.bind_eq_ok, Except.ensure_eq_ok, exists_const] at success
  obtain ⟨_, success⟩ := success
  split at success
  · cases success
  · next discriminator data cons =>
    simp only [Except.bind_eq_ok, Except.ensure_eq_ok, exists_const] at success
    obtain ⟨_, ⟨collected, rest⟩, collect, dispatched⟩ := success
    have disc : call.discriminator = discriminator := by rw [Call.discriminator, cons]; rfl
    have args : call.arguments = data := by rw [Call.arguments, cons]; rfl
    simp only [Collected, disc, args, Call.processorAccounts]
    split at collect
    · next eligible =>
      have rest_eq := (tryCollectFee_eq_ok collect).2
      simp only [if_pos eligible, ← rest_eq]
      exact ⟨collected, collect, dispatched⟩
    · next free =>
      cases collect
      simp only [if_neg free]
      exact ⟨m, rfl, dispatched⟩

/-- A successful call starts from the collected machine and is accepted as it is. -/
theorem Call.execute_eq_ok {call : Call} {m : Machine Approval} (success : call.execute dep ledger = .ok m) :
    ∃ collected, Collected dep call (Machine.start ledger) collected ∧
      dispatch dep call.frame call.discriminator call.processorAccounts call.accounts.infos call.arguments
        collected = .ok m := by
  simp only [Call.execute, Except.bind_eq_ok, Except.ensure_eq_ok, exists_const] at success
  obtain ⟨final, processed, _, result⟩ := success
  cases Except.ok.inj result
  exact processInstruction_eq_ok processed

/-- A successful call is one transition of the registry with the approvals it recorded. -/
theorem Call.execute_refines {call : Call} {m : Machine Approval} (success : call.execute dep ledger = .ok m) :
    Transition dep call.frame call.processorAccounts call.arguments (registry dep ledger) call.discriminator
        m.approved (registry dep m.ledger) ∧
      (Funded dep ledger → Funded dep m.ledger) := by
  obtain ⟨collected, start, dispatched⟩ := Call.execute_eq_ok success
  have quiet := start.quiet
  have same : isFeeEligible call.discriminator = false → call.accounts.infos = call.processorAccounts := by
    intro free
    rw [Call.processorAccounts, if_neg (by rw [free]; decide)]
  obtain ⟨approvals, transition, approved, funded⟩ := dispatch_refines same dispatched
  rw [quiet.registry] at transition
  rw [quiet.approved, show (Machine.start ledger).approved = ([] : List Approval) from rfl,
    List.nil_append] at approved
  rw [approved]
  exact ⟨transition, funded ∘ quiet.funded⟩

/-- What one event does to the registry of a funded ledger. -/
inductive StepKind (dep : Deployment) (ledger : Ledger) (event : Event) : Prop
  /-- No call succeeded. -/
  | idle (same : registry dep (step dep ledger event) = registry dep ledger)
      (failed : ∀ call m, event = .call call → call.execute dep ledger ≠ .ok m)
  | acts {call : Call} {m : Machine Approval} (isCall : event = .call call)
      (success : call.execute dep ledger = .ok m) (result : step dep ledger event = m.ledger)
      (transition : Transition dep call.frame call.processorAccounts call.arguments (registry dep ledger)
        call.discriminator m.approved (registry dep (step dep ledger event)))

private theorem registry_purge {key : Pubkey} (funded : Funded dep ledger) (empty : (ledger key).lamports = 0) :
    registry dep (ledger.set key default) = registry dep ledger := by
  have unrecorded : registry dep ledger key = none := by
    by_contra live
    have positive := funded key live
    omega
  have none : recordOf dep default = none := if_neg dep.programId_ne_system.symm
  rw [registry_set, none, ← unrecorded, Function.update_eq_self]

private theorem step_kind (funded : Funded dep ledger) (event : Event) : StepKind dep ledger event := by
  cases event with
  | call call =>
    cases outcome : call.execute dep ledger with
    | error e =>
      refine .idle (by rw [step, outcome]) fun other m same => ?_
      cases same
      rw [outcome]
      exact fun absurd => by cases absurd
    | ok m =>
      have result : step dep ledger (.call call) = m.ledger := by rw [step, outcome]
      exact .acts rfl outcome result (by rw [result]; exact (Call.execute_refines outcome).1)
  | foreign key account =>
    refine .idle ?_ fun _ _ same => by cases same
    rw [step]
    split
    · next allowed => exact registry_respects (Machine.Respects.set allowed)
    · rfl
  | purge key =>
    refine .idle ?_ fun _ _ same => by cases same
    rw [step]
    split
    · next empty => exact registry_purge funded empty
    · rfl

private theorem step_funded (event : Event) (funded : Funded dep ledger) : Funded dep (step dep ledger event) := by
  cases event with
  | call call =>
    rw [step]
    split
    · next m outcome => exact (Call.execute_refines outcome).2 funded
    · exact funded
  | foreign key account =>
    rw [step]
    split
    · next allowed => exact funded_respects (Machine.Respects.set allowed) funded
    · exact funded
  | purge key =>
    rw [step]
    split
    · next empty =>
      intro other live
      rw [registry_purge funded empty] at live
      have ne : other ≠ key := by
        rintro rfl
        have positive := funded other live
        omega
      rw [Ledger.set_of_ne ne]
      exact funded other live
    · exact funded

/-- No record exists yet; the empty ledger is such a start, whatever else other programs own. -/
def Genesis (dep : Deployment) (ledger : Ledger) : Prop := ∀ key, registry dep ledger key = none

theorem genesis_empty (dep : Deployment) : Genesis dep Ledger.empty :=
  fun _ => registry_of_not_owned dep.programId_ne_system.symm

theorem Genesis.funded (genesis : Genesis dep ledger) : Funded dep ledger :=
  fun key live => absurd (genesis key) live

section Runs

variable {events : List Event}

theorem ledgerAt_eq (dep : Deployment) (ledger : Ledger) (events : List Event) (i : ℕ) :
    ledgerAt dep ledger events i = Run.stateAt (step dep) ledger events i := rfl

theorem run_eq_ledgerAt (dep : Deployment) (ledger : Ledger) (events : List Event) :
    run dep ledger events = ledgerAt dep ledger events events.length := by
  rw [ledgerAt, List.take_length]

theorem funded_ledgerAt (events : List Event) (funded : Funded dep ledger) (i : ℕ) :
    Funded dep (ledgerAt dep ledger events i) :=
  Run.invariant funded (fun _ event => step_funded event) i

/-- The registry in front of the `i`th event. -/
def registryAt (dep : Deployment) (ledger : Ledger) (events : List Event) (i : ℕ) : Registry :=
  registry dep (ledgerAt dep ledger events i)

/-- A property of registries that every transition preserves holds all along a run. -/
theorem registry_invariant {P : Registry → Prop} (funded : Funded dep ledger) (initial : P (registry dep ledger))
    (preserved : ∀ {fr accounts data reg discriminator approvals reg'},
      Transition dep fr accounts data reg discriminator approvals reg' → P reg → P reg') (i : ℕ) :
    P (registryAt dep ledger events i) := by
  have both : Funded dep (Run.stateAt (step dep) ledger events i) ∧
      P (registry dep (Run.stateAt (step dep) ledger events i)) := by
    refine Run.invariant (P := fun l => Funded dep l ∧ P (registry dep l)) ⟨funded, initial⟩ ?_ i
    rintro l event ⟨funded, holds⟩
    refine ⟨step_funded event funded, ?_⟩
    cases step_kind funded event with
    | idle same _ => rwa [same]
    | acts _ _ _ transition => exact preserved transition holds
  exact both.2

theorem SucceedsAt.ledgerAt_succ {i : ℕ} {call : Call} {m : Machine Approval}
    (success : SucceedsAt dep ledger events i call m) : ledgerAt dep ledger events (i + 1) = m.ledger := by
  rw [ledgerAt_eq, Run.stateAt_succ success.1, step, ← ledgerAt_eq, success.2]

theorem SucceedsAt.unique {i : ℕ} {call call' : Call} {m m' : Machine Approval}
    (success : SucceedsAt dep ledger events i call m) (success' : SucceedsAt dep ledger events i call' m') :
    call = call' ∧ m = m' := by
  have at_ : call = call' := by simpa using success.1.symm.trans success'.1
  subst at_
  exact ⟨rfl, Except.ok.inj (success.2.symm.trans success'.2)⟩

/-- Later calls see later clocks. -/
def SlotsNondecreasing (events : List Event) : Prop :=
  ∀ (i j : ℕ) (first second : Call), i ≤ j → events[i]? = some (.call first) →
    events[j]? = some (.call second) → first.slot ≤ second.slot

/-- A call that succeeds somewhere in a run takes the registry there one transition further. -/
theorem SucceedsAt.transition {i : ℕ} {call : Call} {m : Machine Approval}
    (success : SucceedsAt dep ledger events i call m) :
    Transition dep call.frame call.processorAccounts call.arguments (registryAt dep ledger events i)
        call.discriminator m.approved (registryAt dep ledger events (i + 1)) := by
  rw [registryAt, registryAt, success.ledgerAt_succ]
  exact (Call.execute_refines success.2).1

/-- From one position of a run to the next, the registry stays or a call succeeds. -/
theorem registryAt_succ (events : List Event) (funded : Funded dep ledger) (i : ℕ) :
    (registryAt dep ledger events (i + 1) = registryAt dep ledger events i ∧
        ∀ call m, ¬SucceedsAt dep ledger events i call m) ∨
      ∃ call m, SucceedsAt dep ledger events i call m := by
  cases at_ : events[i]? with
  | none =>
    refine .inl ⟨?_, fun call m success => ?_⟩
    · rw [registryAt, registryAt, ledgerAt_eq, ledgerAt_eq, Run.stateAt_succ_of_none at_]
    · rw [success.1] at at_
      cases at_
  | some event =>
    have here := funded_ledgerAt events funded i
    cases step_kind here event with
    | idle same failed =>
      refine .inl ⟨?_, fun call m success => ?_⟩
      · rw [registryAt, registryAt, ledgerAt_eq, Run.stateAt_succ at_]
        exact same
      · rw [success.1] at at_
        exact failed call m (Option.some.inj at_).symm success.2
    | acts isCall success _ _ =>
      subst isCall
      exact .inr ⟨_, _, at_, success⟩

/-- What the successful calls between two positions preserve, the run between them preserves. -/
theorem registry_invariant_between {P : Registry → Prop} {i j : ℕ} (funded : Funded dep ledger) (le : i ≤ j)
    (initial : P (registryAt dep ledger events i))
    (preserved : ∀ k call m, i ≤ k → k < j → SucceedsAt dep ledger events k call m →
      P (registryAt dep ledger events k) → P (registryAt dep ledger events (k + 1))) :
    P (registryAt dep ledger events j) := by
  change P (registry dep (Run.stateAt (step dep) ledger events j))
  refine Run.invariant_between (P := fun l => P (registry dep l)) le initial ?_
  intro k event low high at_ here
  have next : registry dep (step dep (Run.stateAt (step dep) ledger events k) event) =
      registryAt dep ledger events (k + 1) := by
    rw [registryAt, ledgerAt_eq, Run.stateAt_succ at_]
  rw [next]
  rcases registryAt_succ events funded k with ⟨same, _⟩ | ⟨call, m, success⟩
  · rw [same]
    exact here
  · exact preserved k call m low high success here

/-- A property of registries that fails at one position and holds at a later one was established by
a successful call in between and held from then on. -/
theorem exists_establishing_call {P : Registry → Prop} {i j : ℕ} (funded : Funded dep ledger) (le : i ≤ j)
    (before : ¬P (registryAt dep ledger events i)) (now : P (registryAt dep ledger events j)) :
    ∃ k call m, i ≤ k ∧ k < j ∧ SucceedsAt dep ledger events k call m ∧
      ¬P (registryAt dep ledger events k) ∧
      ∀ l, k < l → l ≤ j → P (registryAt dep ledger events l) := by
  change P (registry dep (Run.stateAt (step dep) ledger events j)) at now
  change ¬P (registry dep (Run.stateAt (step dep) ledger events i)) at before
  obtain ⟨k, event, low, high, at_, fails, _, since⟩ := Run.exists_establishing_event
    (P := fun l => P (registry dep l)) le before now
  rcases registryAt_succ events funded k with ⟨same, _⟩ | ⟨call, m, success⟩
  · have next : P (registryAt dep ledger events (k + 1)) := since (k + 1) (by omega) (by omega)
    rw [same] at next
    exact absurd next fails
  · exact ⟨k, call, m, low, high, success, fails, since⟩

end Runs

end LazorKit
