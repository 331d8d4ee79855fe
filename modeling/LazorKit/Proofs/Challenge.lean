import LazorKit.Proofs.Fate

/-! # The challenge and what its acceptance says

The challenge preimage is an undelimited concatenation, but every part other than the signed payload
has a fixed width, so it determines all of its parts. An approval recorded by an instruction comes
from one authentication, whose checks are recovered here from the transition.
-/

namespace LazorKit

open Solana

theorem ofNatLE_injective {width first second : ℕ} (firstBound : first < 256 ^ width)
    (secondBound : second < 256 ^ width) (same : Bytes.ofNatLE width first = Bytes.ofNatLE width second) :
    first = second := by
  rw [← Bytes.toNatLE_ofNatLE_of_lt firstBound, same, Bytes.toNatLE_ofNatLE_of_lt secondBound]

/-- Everything a challenge preimage is made of. -/
structure SameChallenge (d₁ d₂ : UInt8) (front₁ front₂ payload₁ payload₂ : Bytes)
    (payer₁ payer₂ wallet₁ wallet₂ : Pubkey) (counter₁ counter₂ : ℕ) (program₁ program₂ : Pubkey) : Prop where
  discriminator : d₁ = d₂
  authPrefix : front₁ = front₂
  signedPayload : payload₁ = payload₂
  payer : payer₁ = payer₂
  wallet : wallet₁ = wallet₂
  counter : counter₁ = counter₂
  program : program₁ = program₂

/-- The preimage determines all of its parts. -/
theorem challengePreimage_injective {d₁ d₂ : UInt8} {front₁ front₂ payload₁ payload₂ : Bytes}
    {payer₁ payer₂ wallet₁ wallet₂ program₁ program₂ : Pubkey} {counter₁ counter₂ : ℕ}
    (width : front₁.length = front₂.length) (bound₁ : counter₁ < 2 ^ 32) (bound₂ : counter₂ < 2 ^ 32)
    (same : challengePreimage d₁ front₁ payload₁ payer₁ wallet₁ counter₁ program₁ =
      challengePreimage d₂ front₂ payload₂ payer₂ wallet₂ counter₂ program₂) :
    SameChallenge d₁ d₂ front₁ front₂ payload₁ payload₂ payer₁ payer₂ wallet₁ wallet₂ counter₁ counter₂ program₁
      program₂ := by
  have widths (a b : Pubkey) : a.bytes.length = b.bytes.length := by rw [a.length_bytes, b.length_bytes]
  obtain ⟨same, program⟩ := List.append_inj' same (widths _ _)
  obtain ⟨same, counter⟩ := List.append_inj' same (by simp)
  obtain ⟨same, wallet⟩ := List.append_inj' same (widths _ _)
  obtain ⟨same, payer⟩ := List.append_inj' same (widths _ _)
  obtain ⟨same, payload⟩ := List.append_inj same (by simp [width])
  obtain ⟨discriminator, authPrefix⟩ := List.append_inj same rfl
  exact ⟨List.head_eq_of_cons_eq discriminator, authPrefix, payload, BytesN.ext_bytes payer,
    BytesN.ext_bytes wallet, ofNatLE_injective (by simpa using bound₁) (by simpa using bound₂) counter,
    BytesN.ext_bytes program⟩

section Acceptance

variable {dep : Deployment} {fr : Frame} {accounts : List AccountInfo} {data : Bytes} {reg reg' : Registry}
  {discriminator : UInt8} {approvals : List Approval}

/-- The authentication behind an approval: of a live authority listed behind its wallet, or of a v1
authority in a migration. -/
theorem Transition.approved_inv {key : Pubkey} {used : UInt8} {assertion : Option Assertion}
    (transition : Transition dep fr accounts data reg discriminator approvals reg')
    (member : Approval.authority key used assertion ∈ approvals) :
    approvals = [.authority key used assertion] ∧ used = discriminator ∧
      ∃ authPayload signedPayload old new,
        ((reg key = some old ∧ AuthorityAccountHeader.check old = .ok () ∧
            KeyAt accounts 1 (AuthorityAccountHeader.read old).wallet ∧ KeyAt accounts 2 key) ∨
          (discriminator = 17 ∧ reg key = none)) ∧
        AuthStep dep fr accounts key authPayload signedPayload discriminator old new
          (.authority key used assertion) := by
  have live {wallet authority : Pubkey} {authPayload signedPayload old new : Bytes} {approval : Approval}
      (acting : Acting dep fr accounts reg wallet authority authPayload signedPayload discriminator old new approval)
      (member : Approval.authority key used assertion ∈ [approval]) :
      [approval] = [.authority key used assertion] ∧ used = discriminator ∧
        ∃ authPayload signedPayload old new,
          ((reg key = some old ∧ AuthorityAccountHeader.check old = .ok () ∧
              KeyAt accounts 1 (AuthorityAccountHeader.read old).wallet ∧ KeyAt accounts 2 key) ∨
            (discriminator = 17 ∧ reg key = none)) ∧
          AuthStep dep fr accounts key authPayload signedPayload discriminator old new
            (.authority key used assertion) := by
    have same := List.mem_singleton.mp member
    obtain ⟨_, isAuthority⟩ := acting.step.approval_eq
    have parts := same.trans isAuthority
    cases parts
    subst same
    exact ⟨rfl, rfl, _, _, _, _, .inl ⟨acting.recorded, acting.checked, by rw [acting.ofWallet]; exact acting.walletAt,
      acting.authorityAt⟩, acting.step⟩
  cases transition with
  | protocol | reclaimLegacy | closeLegacy | createWallet | executeDeferred | reclaimDeferred
  | closeExpiredSession | executeSession => simp at member
  | migrate unrecorded step =>
    have same := List.mem_singleton.mp member
    obtain ⟨_, isAuthority⟩ := step.approval_eq
    have parts := same.trans isAuthority
    cases parts
    subst same
    exact ⟨rfl, rfl, _, _, _, _, .inr ⟨rfl, unrecorded⟩, step⟩
  | addAuthority _ _ acting | removeAuthority _ acting | transferOwnership _ _ acting | execute _ acting
  | createSession _ _ acting | authorize _ _ acting | revokeSession _ acting => exact live acting member

theorem AuthStep.verified {key : Pubkey} {used : UInt8} {authPayload signedPayload old new : Bytes}
    {assertion : Assertion}
    (step : AuthStep dep fr accounts key authPayload signedPayload discriminator old new
      (.authority key used (some assertion))) :
    (AuthorityAccountHeader.read old).authorityType = 1 ∧
      Verified dep fr accounts old authPayload signedPayload discriminator assertion := by
  cases step with
  | secp256r1 kind verified => exact ⟨kind, verified⟩

/-- An accepted assertion was signed at most 149 slots ago and not in the future. -/
theorem Verified.window {authData authPayload signedPayload : Bytes} {assertion : Assertion}
    (verified : Verified dep fr accounts authData authPayload signedPayload discriminator assertion) :
    signedSlot assertion.authPrefix ≤ fr.slot.toNat ∧ fr.slot.toNat ≤ signedSlot assertion.authPrefix + 149 := by
  have slot : signedSlot assertion.authPrefix = (authPayload.slice 0 8).toNatLE := by
    have front : (authPayload.slice 0 14).slice 0 8 = authPayload.slice 0 8 := by
      simp [Bytes.slice, List.take_take]
    rw [signedSlot, verified.authPrefix, front]
  have past := verified.notFuture
  have fresh : fr.slot.toNat - (authPayload.slice 0 8).toNatLE < 150 := verified.fresh
  omega

theorem Verified.authPrefix_length {authData authPayload signedPayload : Bytes} {assertion : Assertion}
    (verified : Verified dep fr accounts authData authPayload signedPayload discriminator assertion) :
    assertion.authPrefix.length = 14 := by
  have long := verified.payloadLength
  rw [verified.authPrefix, Bytes.length_slice_of_le (by omega)]

end Acceptance

/-- Two accepted assertions with one preimage agree in everything the preimage is made of. -/
theorem sameChallenge_of_preimage {dep dep' : Deployment} {fr fr' : Frame} {accounts accounts' : List AccountInfo}
    {authData authData' authPayload authPayload' signedPayload signedPayload' : Bytes} {d d' : UInt8}
    {assertion assertion' : Assertion}
    (verified : Verified dep fr accounts authData authPayload signedPayload d assertion)
    (verified' : Verified dep' fr' accounts' authData' authPayload' signedPayload' d' assertion')
    (same : assertion.preimage d dep.programId = assertion'.preimage d' dep'.programId) :
    SameChallenge d d' assertion.authPrefix assertion'.authPrefix assertion.signedPayload assertion'.signedPayload
      assertion.payer assertion'.payer assertion.wallet assertion'.wallet assertion.counter assertion'.counter
      dep.programId dep'.programId :=
  challengePreimage_injective (verified.authPrefix_length.trans verified'.authPrefix_length.symm) verified.counterBound
    verified'.counterBound same

end LazorKit
