import LazorKit.Proofs.ClientData
import LazorKit.Proofs.SignedArguments

/-! # Accepted assertions of calls and runs

An assertion recorded by a successful call was checked against the bytes its account held when the
call began, whether a live authority approved or, in a migration, a v1 one.
-/

namespace LazorKit

open Solana

variable {dep : Deployment} {ledger start : Ledger} {events : List Event} {call : Call} {m : Machine Approval}
  {key : Pubkey} {used : UInt8} {assertion : Assertion}

private theorem dispatch_migrate (success : call.execute dep ledger = .ok m) (which : call.discriminator = 17) :
    processMigrateWallet dep call.frame call.processorAccounts call.arguments (Machine.start ledger) = .ok m := by
  obtain ⟨collected, collect, dispatched⟩ := Call.execute_eq_ok success
  have free : isFeeEligible call.discriminator = false := by rw [which]; decide
  rw [Collected, free, if_neg (by decide)] at collect
  subst collect
  rw [which] at dispatched
  rw [Call.processorAccounts, free, if_neg (by decide)]
  exact dispatched

/-- What stands behind an assertion that a call accepted. -/
theorem Call.execute_verified (success : call.execute dep ledger = .ok m)
    (member : Approval.authority key used (some assertion) ∈ m.approved) :
    m.approved = [.authority key used (some assertion)] ∧ used = call.discriminator ∧
      (AuthorityAccountHeader.read (ledger key).data).authorityType = 1 ∧
      KeyAt call.processorAccounts 1 assertion.wallet ∧ KeyAt call.processorAccounts 2 key ∧
      ∃ authPayload signedPayload, Verified dep call.frame call.processorAccounts (ledger key).data authPayload
        signedPayload used assertion := by
  obtain ⟨only, same, authPayload, signedPayload, old, new, recorded, step⟩ :=
    (Call.execute_refines success).1.approved_inv member
  refine ⟨only, same, ?_⟩
  subst same
  rcases recorded with ⟨recorded, _, walletAt, authorityAt⟩ | ⟨migration, _⟩
  · obtain ⟨_, rfl, _⟩ := registry_eq_some.mp recorded
    obtain ⟨kind, verified⟩ := step.verified
    exact ⟨kind, verified.wallet ▸ walletAt, authorityAt, _, _, verified⟩
  · obtain ⟨_, _, _, _, approval, _, authorityAt, walletAt, step, _, quiet⟩ :=
      processMigrateWallet_eq_ok (dispatch_migrate success migration)
    rw [quiet.approved] at member
    obtain ⟨rfl, kind, verified⟩ := step.assertion member
    rw [migration]
    exact ⟨kind, verified.wallet ▸ walletAt, authorityAt, _, _, verified⟩

/-- The `i`th event of a run is a successful instruction that this account approved with this
assertion. -/
def AssertedAt (dep : Deployment) (start : Ledger) (events : List Event) (i : ℕ) (key : Pubkey)
    (discriminator : UInt8) (assertion : Assertion) : Prop :=
  ∃ call m, SucceedsAt dep start events i call m ∧
    Approval.authority key discriminator (some assertion) ∈ m.approved

/-- The challenge preimages of all assertions a run accepts. -/
def challengePreimages (dep : Deployment) (start : Ledger) (events : List Event) : Set Bytes :=
  {preimage | ∃ i key discriminator assertion, AssertedAt dep start events i key discriminator assertion ∧
    preimage = assertion.preimage discriminator dep.programId}

end LazorKit
