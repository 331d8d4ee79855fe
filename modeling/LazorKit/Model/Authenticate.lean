import LazorKit.Model.Program
import LazorKit.Model.Webauthn

/-! # Authentication

An Ed25519 authority approves by its key being among the signers of a top-level transaction. A
Secp256r1 authority approves by a passkey assertion over a challenge the program rebuilds, whose
signature the precompile instruction just before this one verified.
-/

namespace LazorKit

open Solana

/-- `Secp256r1SigVerify1111111111111111111111111`. -/
def secp256r1Program : Pubkey :=
  .ofBytes [6, 146, 13, 236, 47, 234, 113, 181, 183, 35, 129, 77, 116, 45, 169, 3, 28, 131, 231, 95,
    219, 121, 93, 86, 142, 117, 71, 128, 32, 0, 0, 0]

def signatureDataOffset : ℕ := 16
def pubkeyDataOffset : ℕ := 80
def messageDataOffset : ℕ := 114

/-- Where the precompile looks for the signature, the key and the message. -/
structure Secp256r1SignatureOffsets where
  signatureOffset : ℕ
  signatureInstructionIndex : ℕ
  publicKeyOffset : ℕ
  publicKeyInstructionIndex : ℕ
  messageDataOffset : ℕ
  messageDataSize : ℕ
  messageInstructionIndex : ℕ

def Secp256r1SignatureOffsets.fromBytes (bytes : Bytes) :
    Except ProgramError Secp256r1SignatureOffsets := do
  Except.ensure (bytes.length = 14) ↑AuthError.invalidInstruction
  .ok {
    signatureOffset := (bytes.slice 0 2).toNatLE
    signatureInstructionIndex := (bytes.slice 2 2).toNatLE
    publicKeyOffset := (bytes.slice 4 2).toNatLE
    publicKeyInstructionIndex := (bytes.slice 6 2).toNatLE
    messageDataOffset := (bytes.slice 8 2).toNatLE
    messageDataSize := (bytes.slice 10 2).toNatLE
    messageInstructionIndex := (bytes.slice 12 2).toNatLE }

/-- The precompile checked one signature, in its own data, of the expected key over
`authData ++ clientDataHash`, all at the fixed offsets. -/
def verifySecp256r1InstructionData (data expectedPubkey authData : Bytes) (clientDataHash : Bytes32) :
    Except ProgramError Unit := do
  Except.ensure (16 ≤ data.length) ↑AuthError.invalidInstruction
  Except.ensure (data.byte 0 = 1) ↑AuthError.invalidInstruction
  Except.ensure (messageDataOffset + 32 ≤ data.length) ↑AuthError.invalidInstruction
  let offsets ← Secp256r1SignatureOffsets.fromBytes (data.slice 2 14)
  Except.ensure (offsets.signatureInstructionIndex = 0xFFFF) ↑AuthError.invalidInstruction
  Except.ensure (offsets.publicKeyInstructionIndex = 0xFFFF) ↑AuthError.invalidInstruction
  Except.ensure (offsets.messageInstructionIndex = 0xFFFF) ↑AuthError.invalidInstruction
  Except.ensure (offsets.signatureOffset = signatureDataOffset) ↑AuthError.invalidInstruction
  Except.ensure (offsets.publicKeyOffset = pubkeyDataOffset) ↑AuthError.invalidInstruction
  Except.ensure (offsets.messageDataOffset = messageDataOffset) ↑AuthError.invalidInstruction
  Except.ensure (offsets.messageDataSize = authData.length + 32) ↑AuthError.invalidInstruction
  Except.ensure (messageDataOffset + (authData.length + 32) ≤ data.length) ↑AuthError.invalidInstruction
  Except.ensure (data.slice pubkeyDataOffset 33 = expectedPubkey) ↑AuthError.invalidPubkey
  Except.ensure (data.slice messageDataOffset authData.length = authData) ↑AuthError.invalidMessageHash
  Except.ensure (data.slice (messageDataOffset + authData.length) 32 = clientDataHash.bytes)
    ↑AuthError.invalidMessageHash

/-- How many slots a signature stays acceptable. -/
def maxSlotAge : ℕ := 150

/-- The counter an assertion must carry next; it never wraps. -/
def nextCounter (counter : ℕ) : Except ProgramError ℕ := do
  Except.ensure (counter + 1 < 2 ^ 32) .arithmeticOverflow
  .ok (counter + 1)

/-- What the passkey signs:
`discriminator ‖ auth_payload[..14] ‖ signed_payload ‖ payer ‖ wallet ‖ counter ‖ program_id`. -/
def challengePreimage (discriminator : UInt8) (authPrefix signedPayload : Bytes)
    (payer wallet : Pubkey) (counter : ℕ) (programId : Pubkey) : Bytes :=
  [discriminator] ++ authPrefix ++ signedPayload ++ payer.bytes ++ wallet.bytes ++
    Bytes.ofNatLE 4 counter ++ programId.bytes

def Assertion.preimage (assertion : Assertion) (discriminator : UInt8) (programId : Pubkey) : Bytes :=
  challengePreimage discriminator assertion.authPrefix assertion.signedPayload assertion.payer
    assertion.wallet assertion.counter programId

namespace Secp256r1Authenticator

/-- Authenticator data and client data JSON, each behind a two-byte length, with nothing after. -/
def parsePayload (authPayload : Bytes) : Except ProgramError (Bytes × Bytes) := do
  let authDataLen := (authPayload.slice 14 2).toNatLE
  Except.ensure (16 + authDataLen + 2 ≤ authPayload.length) ↑AuthError.invalidAuthorityPayload
  let cdjLen := (authPayload.slice (16 + authDataLen) 2).toNatLE
  let cdjOffset := 16 + authDataLen + 2
  Except.ensure (cdjLen ≠ 0 ∧ authPayload.length = cdjOffset + cdjLen) ↑AuthError.invalidAuthorityPayload
  .ok (authPayload.slice 16 authDataLen, authPayload.slice cdjOffset cdjLen)

/-- The client data is an assertion over the expected challenge. -/
def checkClientData (clientDataJson : Bytes) (challenge : Bytes32) : Except ProgramError Unit := do
  let typeValue ← extractTopLevelStringField clientDataJson typeField
  Except.ensure (typeValue = webauthnGet) ↑AuthError.invalidAuthenticationKind
  let challengeValue ← extractTopLevelStringField clientDataJson challengeField
  Except.ensure (ctEq challengeValue (base64urlEncodeNoPad challenge.bytes) = true)
    ↑AuthError.invalidMessageHash

/-- The data of the instruction just before the current one, which must be the precompile's. -/
def precompileData (fr : Frame) (accounts : List AccountInfo) (sysvarIxIndex : ℕ) :
    Except ProgramError Bytes := do
  let sysvar ← Except.ofOption ↑AuthError.invalidAuthorityPayload accounts[sysvarIxIndex]?
  Except.ensure (sysvar.key = instructionsSysvar) ↑AuthError.invalidInstruction
  Except.ensure (fr.currentIndex ≠ 0) ↑AuthError.invalidInstruction
  let secpIx ← Except.ofOption (.runtime .programPanicked) fr.instructions[fr.currentIndex - 1]?
  Except.ensure (secpIx.1 = secp256r1Program) ↑AuthError.invalidInstruction
  .ok secpIx.2

/-- Every check of the authenticator, in order; the account's bytes are only read. -/
def verify (dep : Deployment) (fr : Frame) (accounts : List AccountInfo)
    (authData authPayload signedPayload : Bytes) (discriminator : UInt8) :
    Except ProgramError Assertion := do
  Except.ensure (18 ≤ authPayload.length) ↑AuthError.invalidAuthorityPayload
  let slot := (authPayload.slice 0 8).toNatLE
  let submittedCounter := (authPayload.slice 8 4).toNatLE
  let sysvarIxIndex := (authPayload.byte 12).toNat
  Except.ensure (fr.stackHeight ≤ 1) ↑AuthError.permissionDenied
  Except.ensure (slot ≤ fr.slot.toNat) ↑AuthError.invalidSignatureAge
  Except.ensure (fr.slot.toNat - slot < maxSlotAge) ↑AuthError.invalidSignatureAge
  Except.ensure (AuthorityAccountHeader.size ≤ authData.length) ↑AuthError.invalidAuthorityPayload
  let header := AuthorityAccountHeader.read authData
  let expectedCounter ← nextCounter header.counter
  Except.ensure (submittedCounter = expectedCounter) ↑AuthError.signatureReused
  Except.ensure (113 + 32 ≤ authData.length) ↑AuthError.invalidAuthorityPayload
  let payer ← accountAt accounts 0
  Except.ensure (payer.isSigner = true) .missingRequiredSignature
  let challenge := dep.sha256 (challengePreimage discriminator (authPayload.slice 0 14) signedPayload
    payer.key header.wallet expectedCounter dep.programId)
  let parsed ← parsePayload authPayload
  checkClientData parsed.2 challenge
  let parser ← AuthDataParser.new parsed.1
  Except.ensure (parser.isUserPresent = true) ↑AuthError.permissionDenied
  Except.ensure (parser.rpIdHash = authData.slice 113 32) ↑AuthError.invalidPubkey
  let secpData ← precompileData fr accounts sysvarIxIndex
  verifySecp256r1InstructionData secpData (authData.slice 80 33) parsed.1 (dep.sha256 parsed.2)
  .ok {
    authPrefix := authPayload.slice 0 14
    signedPayload := signedPayload
    payer := payer.key
    wallet := header.wallet
    counter := expectedCounter
    authenticatorData := parsed.1
    clientDataJson := parsed.2
    signature := secpData.slice signatureDataOffset 64 }

/-- Run every check, then commit the counter: the outcome, and the account's bytes afterwards. -/
def authenticate (dep : Deployment) (fr : Frame) (accounts : List AccountInfo)
    (authData authPayload signedPayload : Bytes) (discriminator : UInt8) :
    Except ProgramError Assertion × Bytes :=
  match verify dep fr accounts authData authPayload signedPayload discriminator with
  | .error e => (.error e, authData)
  | .ok assertion =>
    (.ok assertion, AuthorityAccountHeader.write authData
      { AuthorityAccountHeader.read authData with counter := assertion.counter })

end Secp256r1Authenticator

namespace Ed25519Authenticator

def authenticate (fr : Frame) (accounts : List AccountInfo) (authorityData : Bytes) :
    Except ProgramError Unit := do
  Except.ensure (fr.stackHeight ≤ 1) ↑AuthError.permissionDenied
  Except.ensure (AuthorityAccountHeader.size + 32 ≤ authorityData.length) .invalidAccountData
  Except.ensure (∃ acc ∈ accounts, acc.isSigner = true ∧ acc.key.bytes = authorityData.slice 48 32)
    .missingRequiredSignature

end Ed25519Authenticator

/-- Authenticate an authority account by its type, committing the counter of a passkey. -/
def authenticate (dep : Deployment) (fr : Frame) (accounts : List AccountInfo) (m : Machine Approval)
    (authority : AccountInfo) (authorityType : UInt8) (authPayload signedPayload : Bytes)
    (discriminator : UInt8) : Except ProgramError (Machine Approval) :=
  match authorityType with
  | 0 => do
    Ed25519Authenticator.authenticate fr accounts (m.data authority.key)
    .ok (m.approve (.authority authority.key discriminator none))
  | 1 => do
    let outcome := Secp256r1Authenticator.authenticate dep fr accounts (m.data authority.key)
      authPayload signedPayload discriminator
    let assertion ← outcome.1
    let m ← m.writeData dep.toRuntime authority outcome.2
    .ok (m.approve (.authority authority.key discriminator (some assertion)))
  | _ => .error ↑AuthError.invalidAuthenticationKind

end LazorKit
