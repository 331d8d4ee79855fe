import LazorKit.Proofs.Acceptance
import LazorKit.Proofs.ConcreteRun
import LazorKit.Proofs.Outcome

/-! # What a signature pins down

Two calls accepted over one challenge preimage agree in everything the preimage is made of and in
every argument they parse, whichever deployment, ledger and account list each ran with. From one
ledger at one slot they leave the same ledger, unless the instruction hands control to other programs.
-/

namespace LazorKit

open Solana

/-- A successful call, the passkey account that approved it and the assertion it accepted. -/
structure AssertedCall (dep : Deployment) (ledger : Ledger) where
  call : Call
  result : Machine Approval
  authority : Pubkey
  assertion : Assertion
  success : call.execute dep ledger = .ok result
  approved : Approval.authority authority call.discriminator (some assertion) ∈ result.approved

namespace AssertedCall

variable {dep : Deployment} {ledger : Ledger}

/-- The bytes whose hash the passkey signed. -/
def preimage (asserted : AssertedCall dep ledger) : Bytes :=
  asserted.assertion.preimage asserted.call.discriminator dep.programId

/-- The counter stored in the authority when the call began. -/
def storedCounter (asserted : AssertedCall dep ledger) : ℕ :=
  (AuthorityAccountHeader.read (ledger asserted.authority).data).counter

/-- The arguments the call parsed, with the payload it had signed. -/
def arguments (asserted : AssertedCall dep ledger) : Except ProgramError (SignedArguments × Bytes) :=
  signedArguments dep.toRuntime asserted.call.discriminator asserted.call.processorAccounts asserted.call.arguments

theorem verified (asserted : AssertedCall dep ledger) :
    KeyAt asserted.call.processorAccounts 1 asserted.assertion.wallet ∧
      KeyAt asserted.call.processorAccounts 2 asserted.authority ∧
      ∃ authPayload signedPayload, Verified dep asserted.call.frame asserted.call.processorAccounts
        (ledger asserted.authority).data authPayload signedPayload asserted.call.discriminator asserted.assertion := by
  obtain ⟨_, _, _, walletAt, authorityAt, verified⟩ := Call.execute_verified asserted.success asserted.approved
  exact ⟨walletAt, authorityAt, verified⟩

theorem payerAt (asserted : AssertedCall dep ledger) :
    KeyAt asserted.call.processorAccounts 0 asserted.assertion.payer := by
  obtain ⟨_, _, _, _, verified⟩ := asserted.verified
  obtain ⟨acc, found, _, same⟩ := verified.payer
  exact ⟨acc, found, same.symm⟩

theorem arguments_eq_ok (asserted : AssertedCall dep ledger) :
    ∃ args, asserted.arguments = .ok (args, asserted.assertion.signedPayload) :=
  (Call.execute_refines asserted.success).1.signedArguments asserted.approved

private theorem leaves (asserted : AssertedCall dep ledger) (notExecute : asserted.call.discriminator ≠ 4)
    (notMigrate : asserted.call.discriminator ≠ 17) :
    Leaves dep asserted.call.frame asserted.call.processorAccounts asserted.call.arguments
      asserted.call.discriminator (Machine.start ledger) asserted.result := by
  obtain ⟨args, parsed⟩ := asserted.arguments_eq_ok
  obtain ⟨collected, collect, dispatched⟩ := Call.execute_eq_ok asserted.success
  have which := (signedArguments_discriminator parsed).resolve_right (by simp [notExecute, notMigrate])
  have free : isFeeEligible asserted.call.discriminator = false := by
    rcases which with which | which | which | which | which | which <;> rw [which] <;> decide
  rw [Collected, free, if_neg (by decide)] at collect
  subst collect
  exact dispatch_leaves which dispatched

end AssertedCall

section TwoCalls

variable {dep₁ dep₂ : Deployment} {ledger₁ ledger₂ : Ledger}

/-- Everything two calls over one preimage have in common. -/
structure SameScope (first : AssertedCall dep₁ ledger₁) (second : AssertedCall dep₂ ledger₂) : Prop where
  discriminator : first.call.discriminator = second.call.discriminator
  authPrefix : first.assertion.authPrefix = second.assertion.authPrefix ∧ first.assertion.authPrefix.length = 14
  payer : ∃ payer, KeyAt first.call.processorAccounts 0 payer ∧ KeyAt second.call.processorAccounts 0 payer
  wallet : ∃ wallet, KeyAt first.call.processorAccounts 1 wallet ∧ KeyAt second.call.processorAccounts 1 wallet
  counter : first.storedCounter = second.storedCounter
  programId : dep₁.programId = dep₂.programId
  arguments : ∃ args payload, first.arguments = .ok (args, payload) ∧ second.arguments = .ok (args, payload)

private theorem sameScope_of_preimage (first : AssertedCall dep₁ ledger₁) (second : AssertedCall dep₂ ledger₂)
    (same : first.preimage = second.preimage) : SameScope first second := by
  obtain ⟨walletAt, _, _, _, verified⟩ := first.verified
  obtain ⟨walletAt', _, _, _, verified'⟩ := second.verified
  have parts := sameChallenge_of_preimage verified verified' same
  obtain ⟨args, parsed⟩ := first.arguments_eq_ok
  obtain ⟨args', parsed'⟩ := second.arguments_eq_ok
  have counters := parts.counter
  rw [verified.counter, verified'.counter] at counters
  have payload := parts.signedPayload
  have argsSame : args = args' := by
    rw [AssertedCall.arguments] at parsed parsed'
    rw [← parts.discriminator, ← payload] at parsed'
    exact signedArguments_inj parsed parsed'
  exact {
    discriminator := parts.discriminator
    authPrefix := ⟨parts.authPrefix, verified.authPrefix_length⟩
    payer := ⟨_, first.payerAt, parts.payer ▸ second.payerAt⟩
    wallet := ⟨_, walletAt, parts.wallet ▸ walletAt'⟩
    counter := Nat.succ.inj counters
    programId := parts.program
    arguments := ⟨args, _, parsed, by rw [parsed', argsSame, payload]⟩ }

end TwoCalls

/-- From one ledger at one slot, two calls over one preimage by one authority leave the same ledger. -/
theorem ledger_eq_of_preimage {dep : Deployment} {ledger : Ledger} (first second : AssertedCall dep ledger)
    (same : first.preimage = second.preimage) (authority : first.authority = second.authority)
    (slot : first.call.slot = second.call.slot) (notExecute : first.call.discriminator ≠ 4)
    (notMigrate : first.call.discriminator ≠ 17) : first.result.ledger = second.result.ledger := by
  have scope := sameScope_of_preimage first second same
  obtain ⟨_, authorityAt, _⟩ := first.verified
  obtain ⟨_, authorityAt', _⟩ := second.verified
  obtain ⟨payer, payerAt, payerAt'⟩ := scope.payer
  obtain ⟨wallet, walletAt, walletAt'⟩ := scope.wallet
  obtain ⟨args, _, parsed, parsed'⟩ := scope.arguments
  obtain ⟨_, _, _, _, _, payerIs, walletIs, authorityIs, argsAre, outcome⟩ := first.leaves notExecute notMigrate
  obtain ⟨_, _, _, _, _, payerIs', walletIs', authorityIs', argsAre', outcome'⟩ :=
    second.leaves (scope.discriminator ▸ notExecute) (scope.discriminator ▸ notMigrate)
  cases payerIs.unique payerAt
  cases payerIs'.unique payerAt'
  cases walletIs.unique walletAt
  cases walletIs'.unique walletAt'
  cases Except.ok.inj (argsAre.symm.trans parsed)
  cases Except.ok.inj (argsAre'.symm.trans parsed')
  rw [authorityIs.unique authorityAt] at outcome
  rw [authorityIs'.unique authorityAt', ← authority, show second.call.frame.slot.toNat = first.call.frame.slot.toNat
    from slot.symm] at outcome'
  exact outcome.unique outcome'

/-- A signature pins down every argument of its call, and the call's effect on the ledger. -/
theorem signature_scope :
    (∀ {dep₁ dep₂ : Deployment} {ledger₁ ledger₂ : Ledger} (first : AssertedCall dep₁ ledger₁)
      (second : AssertedCall dep₂ ledger₂), first.preimage = second.preimage → SameScope first second) ∧
    (∀ {dep : Deployment} {ledger : Ledger} (first second : AssertedCall dep ledger),
      first.preimage = second.preimage → first.authority = second.authority → first.call.slot = second.call.slot →
      first.call.discriminator ≠ 4 → first.call.discriminator ≠ 17 →
      first.result.ledger = second.result.ledger) :=
  ⟨sameScope_of_preimage, ledger_eq_of_preimage⟩

section Sample

/-- At a position of a run an authority accepts an assertion for a call. -/
def AcceptsAt (dep : Deployment) (events : List Event) (i : ℕ) (call : Call) (authority : Pubkey)
    (assertion : Assertion) : Prop :=
  (call.execute dep (ledgerAt dep Ledger.empty events i)).succeeded = true ∧
    Approval.authority authority call.discriminator (some assertion) ∈
      (resultAt dep Ledger.empty events i call).approved

instance (dep : Deployment) (events : List Event) (i : ℕ) (call : Call) (authority : Pubkey) (assertion : Assertion) :
    Decidable (AcceptsAt dep events i call authority assertion) :=
  inferInstanceAs (Decidable (_ ∧ _))

namespace AcceptsAt

variable {dep : Deployment} {events : List Event} {i : ℕ} {call : Call} {authority : Pubkey} {assertion : Assertion}

def asserted (accepts : AcceptsAt dep events i call authority assertion) :
    AssertedCall dep (ledgerAt dep Ledger.empty events i) where
  call := call
  result := resultAt dep Ledger.empty events i call
  authority := authority
  assertion := assertion
  success := Except.eq_ok_getD accepts.1
  approved := accepts.2

variable (accepts : AcceptsAt dep events i call authority assertion)

@[simp] theorem asserted_call : accepts.asserted.call = call := rfl
@[simp] theorem asserted_authority : accepts.asserted.authority = authority := rfl
@[simp] theorem asserted_assertion : accepts.asserted.assertion = assertion := rfl

private theorem asserted_preimage :
    accepts.asserted.preimage = assertion.preimage call.discriminator dep.programId := rfl

end AcceptsAt

/-- The same authorization on a longer account list. -/
def Sample.authorizeCrowded : Call :=
  { Sample.authorize with
    accounts := ⟨Sample.authorize.accounts.infos ++ [Sample.readonly (.fill 16)], by decide, by decide +kernel⟩ }

private theorem sample_accepts :
    (AcceptsAt Sample.deployment Sample.events 5 Sample.executeA Sample.authorityA Sample.executeAssertion ∧
        AcceptsAt Sample.deployment Sample.events 6 Sample.executeB Sample.authorityB Sample.executeAssertion) ∧
      AcceptsAt Sample.deployment Sample.events 7 Sample.authorize Sample.authorityB Sample.authorizeAssertion ∧
      AcceptsAt Sample.deployment Sample.events 7 Sample.authorizeCrowded Sample.authorityB
        Sample.authorizeAssertion := by
  decide +kernel

def sampleExecuteA : AssertedCall Sample.deployment (ledgerAt Sample.deployment Ledger.empty Sample.events 5) :=
  sample_accepts.1.1.asserted

def sampleExecuteB : AssertedCall Sample.deployment (ledgerAt Sample.deployment Ledger.empty Sample.events 6) :=
  sample_accepts.1.2.asserted

def sampleAuthorize : AssertedCall Sample.deployment (ledgerAt Sample.deployment Ledger.empty Sample.events 7) :=
  sample_accepts.2.1.asserted

def sampleAuthorizeCrowded : AssertedCall Sample.deployment (ledgerAt Sample.deployment Ledger.empty Sample.events 7) :=
  sample_accepts.2.2.asserted

/-- Two authorities accept one assertion, and one authority accepts one on two account lists. -/
theorem signature_scope_sample :
    SameScope sampleExecuteA sampleExecuteB ∧
      sampleAuthorize.call.accounts.infos ≠ sampleAuthorizeCrowded.call.accounts.infos ∧
      sampleAuthorize.result.ledger = sampleAuthorizeCrowded.result.ledger := by
  have same : sampleExecuteA.preimage = sampleExecuteB.preimage := by
    rw [sampleExecuteA, sampleExecuteB, AcceptsAt.asserted_preimage, AcceptsAt.asserted_preimage]
    rfl
  have crowded : sampleAuthorize.preimage = sampleAuthorizeCrowded.preimage := by
    rw [sampleAuthorize, sampleAuthorizeCrowded, AcceptsAt.asserted_preimage, AcceptsAt.asserted_preimage]
    rfl
  refine ⟨signature_scope.1 sampleExecuteA sampleExecuteB same, ?_, ?_⟩
  · simp only [sampleAuthorize, sampleAuthorizeCrowded, AcceptsAt.asserted_call]
    decide
  · apply signature_scope.2 sampleAuthorize sampleAuthorizeCrowded crowded
    all_goals simp only [sampleAuthorize, sampleAuthorizeCrowded, AcceptsAt.asserted_authority, AcceptsAt.asserted_call]
    · rfl
    · decide
    · decide

end Sample

end LazorKit
