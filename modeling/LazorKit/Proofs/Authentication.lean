import LazorKit.Model.Authenticate
import LazorKit.Proofs.Registry

/-! # What a successful authentication says

`Verified` lists what the passkey authenticator checked. `AuthStep` is authentication seen from the
authority's bytes: an Ed25519 approval leaves them alone, and a passkey's advances the counter by
one and touches nothing else.
-/

namespace LazorKit

open Solana

theorem accountAt_eq_ok {accounts : List AccountInfo} {i : ℕ} {acc : AccountInfo} :
    accountAt accounts i = .ok acc ↔ accounts[i]? = some acc := Except.ofOption_eq_ok

/-- The slot an auth payload was signed at. -/
def signedSlot (authPrefix : Bytes) : ℕ := (authPrefix.slice 0 8).toNatLE

/-- Everything the passkey authenticator established before accepting an assertion. -/
structure Verified (dep : Deployment) (fr : Frame) (accounts : List AccountInfo)
    (authData authPayload signedPayload : Bytes) (discriminator : UInt8) (assertion : Assertion) : Prop where
  payloadLength : 18 ≤ authPayload.length
  topLevel : fr.stackHeight ≤ 1
  notFuture : (authPayload.slice 0 8).toNatLE ≤ fr.slot.toNat
  fresh : fr.slot.toNat - (authPayload.slice 0 8).toNatLE < maxSlotAge
  dataLength : 145 ≤ authData.length
  counter : assertion.counter = (AuthorityAccountHeader.read authData).counter + 1
  counterBound : assertion.counter < 2 ^ 32
  submitted : (authPayload.slice 8 4).toNatLE = assertion.counter
  authPrefix : assertion.authPrefix = authPayload.slice 0 14
  signedPayload : assertion.signedPayload = signedPayload
  payer : ∃ acc, accounts[0]? = some acc ∧ acc.isSigner = true ∧ assertion.payer = acc.key
  wallet : assertion.wallet = (AuthorityAccountHeader.read authData).wallet
  parsed : Secp256r1Authenticator.parsePayload authPayload =
    .ok (assertion.authenticatorData, assertion.clientDataJson)
  clientData : Secp256r1Authenticator.checkClientData assertion.clientDataJson
    (dep.sha256 (assertion.preimage discriminator dep.programId)) = .ok ()
  rpIdHash : assertion.authenticatorData.slice 0 32 = authData.slice 113 32
  precompile : ∃ secpData, Secp256r1Authenticator.precompileData fr accounts (authPayload.byte 12).toNat =
      .ok secpData ∧
    verifySecp256r1InstructionData secpData (authData.slice 80 33) assertion.authenticatorData
      (dep.sha256 assertion.clientDataJson) = .ok () ∧
    assertion.signature = secpData.slice signatureDataOffset 64

theorem nextCounter_eq_ok {counter next : ℕ} :
    nextCounter counter = .ok next ↔ next = counter + 1 ∧ next < 2 ^ 32 := by
  simp only [nextCounter, Except.bind_eq_ok, Except.ensure_eq_ok, exists_const, Except.ok.injEq]
  constructor
  · rintro ⟨bound, rfl⟩
    exact ⟨rfl, bound⟩
  · rintro ⟨rfl, bound⟩
    exact ⟨bound, rfl⟩

private theorem AuthDataParser.data_of_new {data : Bytes} {parser : AuthDataParser}
    (success : AuthDataParser.new data = .ok parser) : parser.data = data := by
  unfold AuthDataParser.new at success
  split at success
  · cases success
    rfl
  · cases success

theorem verify_eq_ok {dep : Deployment} {fr : Frame} {accounts : List AccountInfo}
    {authData authPayload signedPayload : Bytes} {discriminator : UInt8} {assertion : Assertion}
    (success : Secp256r1Authenticator.verify dep fr accounts authData authPayload signedPayload
      discriminator = .ok assertion) :
    Verified dep fr accounts authData authPayload signedPayload discriminator assertion := by
  simp only [Secp256r1Authenticator.verify, Except.bind_eq_ok, Except.ensure_eq_ok, exists_const,
    nextCounter_eq_ok, accountAt_eq_ok] at success
  obtain ⟨long, top, past, fresh, _, counter, ⟨next, bound⟩, submitted, full, payer, found, signer,
    ⟨authenticatorData, clientDataJson⟩, parsed, _, clientData, parser, new, _, rpId, secpData, precompile,
    _, verified, result⟩ := success
  cases Except.ok.inj result
  rw [AuthDataParser.rpIdHash, AuthDataParser.data_of_new new] at rpId
  exact ⟨long, top, past, fresh, full, next, bound, submitted, rfl, rfl, ⟨payer, found, signer, rfl⟩, rfl,
    parsed, clientData, rpId, secpData, precompile, verified, rfl⟩

/-- The bytes of an authority account before and after it approved an instruction, with what was
recorded of the approval. -/
inductive AuthStep (dep : Deployment) (fr : Frame) (accounts : List AccountInfo) (key : Pubkey)
    (authPayload signedPayload : Bytes) (discriminator : UInt8) (old : Bytes) :
    Bytes → Approval → Prop
  | ed25519 (kind : (AuthorityAccountHeader.read old).authorityType = 0)
      (signed : Ed25519Authenticator.authenticate fr accounts old = .ok ()) :
      AuthStep dep fr accounts key authPayload signedPayload discriminator old old
        (.authority key discriminator none)
  | secp256r1 {assertion : Assertion} (kind : (AuthorityAccountHeader.read old).authorityType = 1)
      (verified : Verified dep fr accounts old authPayload signedPayload discriminator assertion) :
      AuthStep dep fr accounts key authPayload signedPayload discriminator old
        (AuthorityAccountHeader.write old
          { AuthorityAccountHeader.read old with counter := assertion.counter })
        (.authority key discriminator (some assertion))

namespace AuthStep

variable {dep : Deployment} {fr : Frame} {accounts : List AccountInfo} {key : Pubkey}
  {authPayload signedPayload : Bytes} {discriminator : UInt8} {old new : Bytes} {approval : Approval}

theorem size_le {assertion : Assertion}
    (verified : Verified dep fr accounts old authPayload signedPayload discriminator assertion) :
    AuthorityAccountHeader.size ≤ old.length :=
  le_trans (by decide) verified.dataLength

theorem length_eq (step : AuthStep dep fr accounts key authPayload signedPayload discriminator old new approval) :
    new.length = old.length := by
  cases step with
  | ed25519 => rfl
  | secp256r1 _ verified => exact AuthorityAccountHeader.length_write_counter (size_le verified)

/-- Authentication leaves every byte outside the counter alone. -/
theorem getElem?_eq (step : AuthStep dep fr accounts key authPayload signedPayload discriminator old new approval)
    {i : ℕ} (outside : i < 8 ∨ 12 ≤ i) : new[i]? = old[i]? := by
  cases step with
  | ed25519 => rfl
  | secp256r1 _ verified => exact AuthorityAccountHeader.getElem?_write_counter (size_le verified) outside

theorem read_eq (step : AuthStep dep fr accounts key authPayload signedPayload discriminator old new approval) :
    AuthorityAccountHeader.read new =
      { AuthorityAccountHeader.read old with counter := (AuthorityAccountHeader.read new).counter } := by
  cases step with
  | ed25519 => rfl
  | secp256r1 _ verified =>
    rw [AuthorityAccountHeader.read_write_counter (size_le verified) verified.counterBound]

theorem byte_eq (step : AuthStep dep fr accounts key authPayload signedPayload discriminator old new approval)
    {i : ℕ} (outside : i < 8 ∨ 12 ≤ i) : new.byte i = old.byte i := by
  simp only [Bytes.byte, List.getD_eq_getElem?_getD, step.getElem?_eq outside]

theorem check_eq (step : AuthStep dep fr accounts key authPayload signedPayload discriminator old new approval)
    (checked : AuthorityAccountHeader.check old = .ok ()) : AuthorityAccountHeader.check new = .ok () := by
  obtain ⟨fits, tag, version⟩ := AuthorityAccountHeader.check_eq_ok.mp checked
  exact AuthorityAccountHeader.check_eq_ok.mpr ⟨by rwa [step.length_eq],
    by rwa [step.byte_eq (.inl (by decide))], by rwa [step.byte_eq (.inl (by decide))]⟩

/-- The approval recorded is this account's, for this instruction. -/
theorem approval_eq (step : AuthStep dep fr accounts key authPayload signedPayload discriminator old new approval) :
    ∃ assertion, approval = .authority key discriminator assertion := by
  cases step with
  | ed25519 => exact ⟨none, rfl⟩
  | secp256r1 => exact ⟨some _, rfl⟩

end AuthStep

theorem authenticate_eq_ok {dep : Deployment} {fr : Frame} {accounts : List AccountInfo}
    {m m' : Machine Approval} {authority : AccountInfo} {kind discriminator : UInt8}
    {authPayload signedPayload : Bytes}
    (success : authenticate dep fr accounts m authority kind authPayload signedPayload discriminator = .ok m')
    (type : kind = (AuthorityAccountHeader.read (m.data authority.key)).authorityType) :
    ∃ new approval, AuthStep dep fr accounts authority.key authPayload signedPayload discriminator
        (m.data authority.key) new approval ∧
      Stored m m' authority.key new ∧ m'.approved = m.approved ++ [approval] ∧ m'.invoked = m.invoked := by
  unfold authenticate at success
  split at success
  · simp only [Except.bind_eq_ok] at success
    obtain ⟨_, signed, result⟩ := success
    cases Except.ok.inj result
    refine ⟨m.data authority.key, _, .ed25519 type.symm signed, ⟨fun other => ?_, fun _ => rfl, fun _ => rfl⟩,
      rfl, rfl⟩
    split
    · next same => rw [same]; rfl
    · rfl
  · simp only [Except.bind_eq_ok, Secp256r1Authenticator.authenticate] at success
    obtain ⟨assertion, outcome, written, store, result⟩ := success
    split at outcome
    · cases outcome
    · next verified check =>
      cases outcome
      cases Except.ok.inj result
      rw [check] at store
      obtain ⟨stored, approved, invoked⟩ := writeData_eq_ok store
      exact ⟨_, _, .secp256r1 type.symm (verify_eq_ok check), ⟨stored.data, stored.owner, stored.lamports⟩,
        by rw [Machine.approved_approve, approved], invoked⟩
  · cases success

end LazorKit
