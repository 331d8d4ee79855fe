import LazorKit.Proofs.Acceptance
import LazorKit.Proofs.ConcreteRun

/-! # What an assertion is bound to

The challenge inside the client data is the hash of a preimage that names the wallet, the payer, the
counter, the instruction and its arguments, but not the authority account. So an assertion accepted
twice was accepted for one wallet, by accounts that share the relying party and stood at the same
counter; nothing keeps two authorities of one wallet with the same passkey apart.
-/

namespace LazorKit

open Solana

/-- What the authenticator returned: the data, the client data and the signature. -/
structure SameAssertion (first second : Assertion) : Prop where
  authenticatorData : first.authenticatorData = second.authenticatorData
  clientDataJson : first.clientDataJson = second.clientDataJson
  signature : first.signature = second.signature

/-- The header of the authority at an address in front of the `i`th event. -/
def authorityAt (dep : Deployment) (start : Ledger) (events : List Event) (i : ℕ) (key : Pubkey) :
    AuthorityAccountHeader := AuthorityAccountHeader.read (ledgerAt dep start events i key).data

/-- The relying party hash of the authority at an address in front of the `i`th event. -/
def rpIdHashAt (dep : Deployment) (start : Ledger) (events : List Event) (i : ℕ) (key : Pubkey) : Bytes :=
  (ledgerAt dep start events i key).data.slice 113 32

/-- How two acceptances of one assertion are related. -/
structure BoundAlike (dep : Deployment) (start : Ledger) (events : List Event) (i j : ℕ) (first second : Pubkey)
    (d₁ d₂ : UInt8) (a₁ a₂ : Assertion) : Prop where
  wallet : (authorityAt dep start events i first).wallet = (authorityAt dep start events j second).wallet
  counter : (authorityAt dep start events i first).counter = (authorityAt dep start events j second).counter
  rpIdHash : rpIdHashAt dep start events i first = rpIdHashAt dep start events j second
  discriminator : d₁ = d₂
  signedPayload : a₁.signedPayload = a₂.signedPayload
  payer : a₁.payer = a₂.payer

variable {dep : Deployment} {start : Ledger} {events : List Event}

/-- An assertion is only ever accepted for authorities of one wallet, with one relying party and at
one counter, and for one instruction with one set of arguments and one payer. -/
theorem assertion_binds_wallet (injective : Set.InjOn dep.sha256 (challengePreimages dep start events)) {i j : ℕ}
    {first second : Pubkey} {d₁ d₂ : UInt8} {a₁ a₂ : Assertion}
    (one : AssertedAt dep start events i first d₁ a₁) (two : AssertedAt dep start events j second d₂ a₂)
    (same : SameAssertion a₁ a₂) : BoundAlike dep start events i j first second d₁ d₂ a₁ a₂ := by
  obtain ⟨call₁, m₁, success₁, member₁⟩ := one
  obtain ⟨call₂, m₂, success₂, member₂⟩ := two
  obtain ⟨_, _, _, _, _, _, _, verified₁⟩ := Call.execute_verified success₁.2 member₁
  obtain ⟨_, _, _, _, _, _, _, verified₂⟩ := Call.execute_verified success₂.2 member₂
  have passes₁ := verified₁.clientData
  rw [same.clientDataJson] at passes₁
  have preimages := injective ⟨i, first, d₁, a₁, ⟨call₁, m₁, success₁, member₁⟩, rfl⟩
    ⟨j, second, d₂, a₂, ⟨call₂, m₂, success₂, member₂⟩, rfl⟩ (checkClientData_injective passes₁ verified₂.clientData)
  have parts := sameChallenge_of_preimage verified₁ verified₂ preimages
  have counters := parts.counter
  rw [verified₁.counter, verified₂.counter] at counters
  refine ⟨?_, Nat.succ.inj counters, ?_, parts.discriminator, parts.signedPayload, parts.payer⟩
  · rw [authorityAt, authorityAt, ← verified₁.wallet, ← verified₂.wallet, parts.wallet]
  · rw [rpIdHashAt, rpIdHashAt, ← verified₁.rpIdHash, ← verified₂.rpIdHash, same.authenticatorData]

section Sample

private theorem assertedA :
    AssertedAt Sample.deployment Ledger.empty Sample.events 5 Sample.authorityA 4 Sample.executeAssertion :=
  ⟨Sample.executeA, _, succeedsAt_resultAt rfl (by decide +kernel), by decide +kernel⟩

private theorem assertedB :
    AssertedAt Sample.deployment Ledger.empty Sample.events 6 Sample.authorityB 4 Sample.executeAssertion :=
  ⟨Sample.executeB, _, succeedsAt_resultAt rfl (by decide +kernel), by decide +kernel⟩

private theorem sample_injective :
    Set.InjOn Sample.deployment.sha256 (challengePreimages Sample.deployment Ledger.empty Sample.events) :=
  injOn_challengePreimages (by decide +kernel)

theorem assertion_binds_wallet_sample :
    BoundAlike Sample.deployment Ledger.empty Sample.events 5 6 Sample.authorityA Sample.authorityB 4 4
      Sample.executeAssertion Sample.executeAssertion :=
  assertion_binds_wallet sample_injective assertedA assertedB ⟨rfl, rfl, rfl⟩

/-- Nothing binds an assertion to the account: two authorities of one wallet with one passkey both
accept it. -/
theorem not_assertion_binds_authority :
    ¬∀ (dep : Deployment) (start : Ledger) (events : List Event), Genesis dep start →
      Set.InjOn dep.sha256 (challengePreimages dep start events) →
      ∀ (i j : ℕ) (first second : Pubkey) (d₁ d₂ : UInt8) (a₁ a₂ : Assertion),
        AssertedAt dep start events i first d₁ a₁ →
        AssertedAt dep start events j second d₂ a₂ → SameAssertion a₁ a₂ → first = second := by
  intro claim
  have same := claim Sample.deployment Ledger.empty Sample.events (genesis_empty _) sample_injective 5 6
    Sample.authorityA Sample.authorityB 4 4 Sample.executeAssertion Sample.executeAssertion assertedA assertedB
    ⟨rfl, rfl, rfl⟩
  exact absurd same (by decide +kernel)

end Sample

end LazorKit
