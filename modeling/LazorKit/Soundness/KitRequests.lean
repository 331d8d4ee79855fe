import LazorKit.Proofs.ConcreteRun
import LazorKit.Proofs.KitLayout
import LazorKit.Soundness.ActionRoundTrip

/-! # The kit and the program agree on every request

A passkey signs a challenge the kit computed before the authenticator answered; the program recomputes it from
the instruction the kit built afterwards. Both sides write and read undelimited byte strings in code of their
own. For each of the three administrative requests the program's parser gives the caller's arguments back, what
it takes for the auth payload is the kit's, and the preimage it rebuilds is the kit's byte for byte.
-/

namespace LazorKit

open Solana

/-- The authenticator's own preimage for an account: it gets there only if the payload carries the account's
next counter. -/
def rebuiltPreimage (rt : Runtime) (accounts : List AccountInfo) (authData authPayload signedPayload : Bytes)
    (discriminator : UInt8) : Except ProgramError Bytes := do
  let header := AuthorityAccountHeader.read authData
  let expectedCounter ← nextCounter header.counter
  Except.ensure ((authPayload.slice 8 4).toNatLE = expectedCounter) ↑AuthError.signatureReused
  let payer ← accountAt accounts 0
  .ok (challengePreimage discriminator (authPayload.slice 0 14) signedPayload payer.key header.wallet expectedCounter
    rt.programId)

/-- It is the preimage of every assertion the authenticator accepts. -/
theorem Verified.rebuiltPreimage_eq {dep : Deployment} {fr : Frame} {accounts : List AccountInfo}
    {authData authPayload signedPayload : Bytes} {discriminator : UInt8} {assertion : Assertion}
    (verified : Verified dep fr accounts authData authPayload signedPayload discriminator assertion) :
    rebuiltPreimage dep.toRuntime accounts authData authPayload signedPayload discriminator =
      .ok (assertion.preimage discriminator dep.programId) := by
  obtain ⟨payer, found, _, same⟩ := verified.payer
  simp only [rebuiltPreimage, Except.bind_eq_ok, Except.ensure_eq_ok, exists_const, nextCounter_eq_ok, accountAt_eq_ok]
  refine ⟨assertion.counter, ⟨verified.counter, verified.counterBound⟩, verified.submitted, payer, found, ?_⟩
  rw [Assertion.preimage, verified.authPrefix, verified.signedPayload, same, verified.wallet]

namespace Kit

/-- The runtime hands the accounts to the program in the order the instruction lists them. -/
def HandedTo (ix : Instruction) (accounts : List AccountInfo) : Prop :=
  accounts.map (·.key) = ix.accounts.map (·.pubkey)

theorem HandedTo.keyAt {ix : Instruction} {accounts : List AccountInfo} (handed : HandedTo ix accounts) {i : ℕ}
    {key : Pubkey} (listed : (ix.accounts.map (·.pubkey))[i]? = some key) : KeyAt accounts i key := by
  rw [← handed, List.getElem?_map, Option.map_eq_some_iff] at listed
  exact listed

/-- What the kit hashed for a request. -/
def PreparedSecp256r1.challengeInput (signing : PreparedSecp256r1) (rt : Runtime) (discriminator : UInt8)
    (signedPayload : Bytes) (payer wallet : Pubkey) : Bytes :=
  secp256r1ChallengeInput [discriminator]
    (buildAuthPayloadPrefix signing.slot signing.counter signing.sysvarIxIndex)
      signedPayload payer wallet signing.counter
    rt.programId

/-- The program and the kit agree on what a passkey signs for a request. -/
structure SignedAlike (rt : Runtime) (accounts : List AccountInfo) (discriminator : UInt8)
    (authPayload signedPayload : Bytes) (challenge : Bytes32) (signing : PreparedSecp256r1) (input : Bytes)
    (wallet : Pubkey) : Prop where
  hashed : challenge = rt.sha256 input
  /-- On the wallet's authority at the counter the kit read, the program rebuilds the kit's preimage. -/
  rebuilt : ∀ authData, (AuthorityAccountHeader.read authData).wallet = wallet →
    nextCounter (AuthorityAccountHeader.read authData).counter = .ok signing.counter →
    rebuiltPreimage rt accounts authData authPayload signedPayload discriminator = .ok input
  /-- On any authority of the wallet, it rebuilds no other. -/
  only : ∀ authData preimage, (AuthorityAccountHeader.read authData).wallet = wallet →
    rebuiltPreimage rt accounts authData authPayload signedPayload discriminator = .ok preimage → preimage = input
  /-- No assertion is accepted over anything else. -/
  accepted : ∀ (dep : Deployment) (fr : Frame) (authData : Bytes) (assertion : Assertion), dep.toRuntime = rt →
    (AuthorityAccountHeader.read authData).wallet = wallet →
    Verified dep fr accounts authData authPayload signedPayload discriminator assertion →
    assertion.preimage discriminator dep.programId = input
  sysvar : KeyAt accounts (authPayload.byte 12).toNat instructionsSysvar

private theorem length_buildAuthPayloadPrefix (slot : ℤ) (counter sysvarIxIndex : ℕ) :
    (buildAuthPayloadPrefix slot counter sysvarIxIndex).length = 14 := by
  simp [buildAuthPayloadPrefix]

/-- The finalized auth payload begins with the bytes the challenge was prepared over. -/
theorem finalizeSecp256r1_payload {signing : PreparedSecp256r1} {response : WebAuthnResponse} {authPayload : Bytes}
    {precompileIx : Instruction} (final : finalizeSecp256r1 signing response = .ok (authPayload, precompileIx)) :
    ∃ back, authPayload = buildAuthPayloadPrefix signing.slot signing.counter signing.sysvarIxIndex ++ back := by
  simp only [finalizeSecp256r1, buildAuthPayload, Except.bind_eq_ok, Except.ensure_eq_ok, exists_const] at final
  obtain ⟨_, ⟨_, _, payload⟩, _, _, result⟩ := final
  cases Except.ok.inj result
  cases Except.ok.inj payload
  refine ⟨u16LE response.authenticatorData.length ++ response.authenticatorData ++
    u16LE response.clientDataJson.length ++ response.clientDataJson, ?_⟩
  simp only [buildAuthPayloadPrefix, List.append_assoc]

/-- The authentication part of every request: the auth payload carries what the challenge was prepared over. -/
theorem signedAlike {rt : Runtime} {accounts : List AccountInfo} {discriminator : UInt8} {index : ℕ}
    {signedPayload authPayload : Bytes} {inputs : ChallengeInputs} {payer wallet : Pubkey} {response : WebAuthnResponse}
    {precompileIx : Instruction}
    (final : finalizeSecp256r1 (buildPasskeySigning rt discriminator index signedPayload inputs payer wallet) response =
      .ok (authPayload, precompileIx))
    (small : index < 256) (payerAt : KeyAt accounts 0 payer) (sysvarAt : KeyAt accounts index instructionsSysvar) :
    SignedAlike rt accounts discriminator authPayload signedPayload
      (buildPasskeySigning rt discriminator index signedPayload inputs payer wallet).challenge
      (buildPasskeySigning rt discriminator index signedPayload inputs payer wallet)
      ((buildPasskeySigning rt discriminator index signedPayload inputs payer wallet).challengeInput rt discriminator
        signedPayload payer wallet) wallet := by
  obtain ⟨back, payload⟩ := finalizeSecp256r1_payload final
  obtain ⟨acc, found, rfl⟩ := payerAt
  have front : authPayload.slice 0 14 = buildAuthPayloadPrefix inputs.slot inputs.counter index := by
    rw [payload]
    exact Bytes.slice_front (length_buildAuthPayloadPrefix _ _ _)
  have counterAt : authPayload.slice 8 4 = Bytes.ofNatLE 4 inputs.counter := by
    rw [payload, buildAuthPayloadPrefix, List.append_assoc, List.append_assoc]
    exact Bytes.slice_middle (length_u64LE _) (Bytes.length_ofNatLE 4 _)
  have indexAt : authPayload.byte 12 = byteOf index := by
    rw [payload, buildAuthPayloadPrefix, List.append_assoc]
    exact Bytes.byte_append (by simp [buildPasskeySigning, prepareSecp256r1])
  have same (counter : ℕ) (bytes : Bytes.ofNatLE 4 counter = Bytes.ofNatLE 4 inputs.counter) :
      challengePreimage discriminator (buildAuthPayloadPrefix inputs.slot inputs.counter index) signedPayload acc.key
        wallet counter rt.programId =
      secp256r1ChallengeInput [discriminator] (buildAuthPayloadPrefix inputs.slot inputs.counter index) signedPayload
        acc.key wallet inputs.counter rt.programId := by
    rw [challengePreimage, bytes]
    simp [secp256r1ChallengeInput, concatBytes]
  have only (authData preimage : Bytes) (ofWallet : (AuthorityAccountHeader.read authData).wallet = wallet)
      (success : rebuiltPreimage rt accounts authData authPayload signedPayload discriminator = .ok preimage) :
      preimage = (buildPasskeySigning rt discriminator index signedPayload inputs acc.key wallet).challengeInput rt
        discriminator signedPayload acc.key wallet := by
    simp only [rebuiltPreimage, Except.bind_eq_ok, Except.ensure_eq_ok, exists_const, accountAt_eq_ok, front,
      counterAt] at success
    obtain ⟨counter, next, submitted, payer, atZero, result⟩ := success
    cases Option.some.inj (found.symm.trans atZero)
    have bytes : Bytes.ofNatLE 4 counter = Bytes.ofNatLE 4 inputs.counter := by
      rw [← submitted]
      have width := Bytes.ofNatLE_toNatLE (Bytes.ofNatLE 4 inputs.counter)
      rwa [Bytes.length_ofNatLE] at width
    rw [← Except.ok.inj result, ofWallet, same _ bytes]
    rfl
  constructor
  case hashed => rfl
  case rebuilt =>
    intro authData ofWallet next
    have bound : inputs.counter < 2 ^ 32 := (nextCounter_eq_ok.mp next).2
    simp only [rebuiltPreimage, Except.bind_eq_ok, Except.ensure_eq_ok, exists_const, accountAt_eq_ok, front, counterAt]
    refine ⟨inputs.counter, next, Bytes.toNatLE_ofNatLE_of_lt (by simpa using bound), acc, found, ?_⟩
    rw [ofWallet, same _ rfl]
    rfl
  case only => exact only
  case accepted =>
    rintro dep fr authData assertion rfl ofWallet verified
    exact only authData _ ofWallet verified.rebuiltPreimage_eq
  case sysvar =>
    rw [indexAt, toNat_byteOf small]
    exact sysvarAt

section Requests

variable (rt : Runtime) (response : WebAuthnResponse) (instructions : List Instruction)

/-- AddAuthority: type, rank, key and policy come back, the auth payload is cut off where it begins, and the
signed region is the data payload with the payer. -/
def AddAuthorityAgrees (params : PrepareAddAuthorityParams) (prepared : PreparedAddAuthority) : Prop :=
  ∃ precompileIx ix authPayload data,
    instructions = [precompileIx, ix] ∧ ix.programId = rt.programId ∧ ix.data = 1 :: data ∧
    finalizeSecp256r1 prepared.signing response = .ok (authPayload, precompileIx) ∧
    ∀ accounts, HandedTo ix accounts → ∃ args signedPayload,
      signedArguments rt 1 accounts data = .ok (.addAuthority args, signedPayload) ∧
      args.authorityType = params.newAuthority.typeByte ∧ (args.newRole.toNat : ℤ) = params.role ∧
      params.newAuthority.IsKey args.key ∧ args.policy = params.policy.getD [] ∧
      data.drop args.dataPayloadLen = authPayload ∧
      SignedAlike rt accounts 1 authPayload signedPayload prepared.challenge prepared.signing
        (prepared.signing.challengeInput rt 1
          (concatBytes [buildDataPayloadForAdd prepared.newType params.role prepared.credentialOrPubkey
            prepared.secp256r1Pubkey prepared.rpId params.policy, params.payer.bytes])
          params.payer params.walletPda) params.walletPda

/-- TransferOwnership: type and key come back, and the signed region also names the refund destination. -/
def TransferOwnershipAgrees (params : PrepareTransferOwnershipParams) (prepared : PreparedTransferOwnership) : Prop :=
  ∃ precompileIx ix authPayload data,
    instructions = [precompileIx, ix] ∧ ix.programId = rt.programId ∧ ix.data = 3 :: data ∧
    finalizeSecp256r1 prepared.signing response = .ok (authPayload, precompileIx) ∧
    ∀ accounts, HandedTo ix accounts → ∃ args signedPayload,
      signedArguments rt 3 accounts data =
        .ok (.transferOwnership args (params.refundDestination.getD params.payer), signedPayload) ∧
      args.authType = params.newOwner.typeByte ∧ params.newOwner.IsKey args.key ∧
      data.drop args.dataPayloadLen = authPayload ∧
      SignedAlike rt accounts 3 authPayload signedPayload prepared.challenge prepared.signing
        (prepared.signing.challengeInput rt 3
          (concatBytes [buildDataPayloadForTransfer prepared.newType prepared.credentialOrPubkey
            prepared.secp256r1Pubkey
            prepared.rpId, params.payer.bytes, (params.refundDestination.getD params.payer).bytes])
          params.payer params.walletPda) params.walletPda

/-- CreateSession: key, expiry and actions come back. An expiry is a slot; a bigint that is none is reduced. -/
def CreateSessionAgrees (params : PrepareCreateSessionParams) (actionsBuffer : Option Bytes)
    (prepared : PreparedCreateSession) : Prop :=
  ∃ precompileIx ix authPayload data,
    instructions = [precompileIx, ix] ∧ ix.programId = rt.programId ∧ ix.data = 5 :: data ∧
    finalizeSecp256r1 prepared.signing response = .ok (authPayload, precompileIx) ∧
    ∀ accounts, HandedTo ix accounts → ∃ args signedPayload,
      signedArguments rt 5 accounts data = .ok (.createSession args, signedPayload) ∧
      args.sessionKey = params.sessionKey ∧ (args.expiresAt : ℤ) = params.expiresAt % 2 ^ 64 ∧
      (0 ≤ params.expiresAt → (args.expiresAt : ℤ) = params.expiresAt) ∧
      args.actionsBytes = actionsBuffer.getD [] ∧ data.drop args.argsEndOffset = authPayload ∧
      SignedAlike rt accounts 5 authPayload signedPayload prepared.challenge prepared.signing
        (prepared.signing.challengeInput rt 5
          (concatBytes [buildDataPayloadForSession params.sessionKey.bytes params.expiresAt actionsBuffer,
            params.payer.bytes])
          params.payer params.walletPda) params.walletPda

end Requests

section Agreement

variable {rt : Runtime} {reads : ChallengeReads} {encodeU64 : ℤ → Except Error Bytes} {response : WebAuthnResponse}
  {instructions : List Instruction}

/-- A role the kit lets through is a rank. -/
theorem toNat_byteOf_role {role : ℤ} {allowOwner : Bool} {policy : Option Bytes}
    (allowed : assertAddAuthorityRole role allowOwner policy = .ok ()) : ((byteOf role).toNat : ℤ) = role := by
  simp only [assertAddAuthorityRole, Except.bind_eq_ok, Except.ensure_eq_ok, exists_const] at allowed
  obtain ⟨_, range, _⟩ := allowed
  obtain ⟨rank, rfl⟩ := Int.eq_ofNat_of_zero_le (show 0 ≤ role by omega)
  rw [toNat_byteOf (by omega)]

private theorem addAuthority_agrees {params : PrepareAddAuthorityParams} {prepared : PreparedAddAuthority}
    (prepares : prepareAddAuthority rt reads params = .ok prepared)
    (finalizes : finalizeAddAuthority prepared response = .ok instructions) (named : params.newAuthority.NamesRp)
    (buffer : ValidBuffer (params.policy.getD [])) :
    AddAuthorityAgrees rt response instructions params prepared := by
  simp only [prepareAddAuthority, Except.bind_eq_ok] at prepares
  obtain ⟨_, allowed, fields, resolved, inputs, _, result⟩ := prepares
  cases Except.ok.inj result
  simp only [finalizeAddAuthority, Except.bind_eq_ok] at finalizes
  obtain ⟨⟨authPayload, precompileIx⟩, final, result⟩ := finalizes
  cases Except.ok.inj result
  have fieldReads := resolveOwnerFields_reads resolved named
  refine ⟨precompileIx, _, authPayload, buildDataPayloadForAdd fields.authType params.role fields.credentialOrPubkey
    fields.secp256r1Pubkey fields.rpId params.policy ++ authPayload, rfl, rfl, createAddAuthorityIx_data _, final, ?_⟩
  intro accounts handed
  have payerAt : KeyAt accounts 0 params.payer := handed.keyAt rfl
  have sysvarAt : KeyAt accounts sysvarIxIndexAddAuthority instructionsSysvar := handed.keyAt rfl
  have alike := signedAlike final (by decide) payerAt sysvarAt
  obtain ⟨acc, found, isPayer⟩ := payerAt
  refine ⟨⟨params.newAuthority.typeByte, byteOf params.role, ⟨fields.credentialOrPubkey, fields.keyBytes⟩,
    params.policy.getD [], (buildDataPayloadForAdd fields.authType params.role fields.credentialOrPubkey
      fields.secp256r1Pubkey fields.rpId params.policy).length⟩, _, ?_, rfl, toNat_byteOf_role allowed,
    fieldReads.isKey, rfl, List.drop_left' rfl, alike⟩
  simp only [signedArguments, Except.bind_eq_ok, accountAt_eq_ok]
  refine ⟨_, parse_buildDataPayloadForAdd fieldReads params.role buffer authPayload, acc, found, ?_⟩
  rw [List.take_left' rfl, isPayer]
  simp only [concatBytes, List.flatten_cons, List.flatten_nil, List.append_nil]

private theorem transferOwnership_agrees {params : PrepareTransferOwnershipParams}
    {prepared : PreparedTransferOwnership} (prepares : prepareTransferOwnership rt reads params = .ok prepared)
    (finalizes : finalizeTransferOwnership prepared response = .ok instructions) (named : params.newOwner.NamesRp) :
    TransferOwnershipAgrees rt response instructions params prepared := by
  simp only [prepareTransferOwnership, Except.bind_eq_ok] at prepares
  obtain ⟨fields, resolved, inputs, _, result⟩ := prepares
  cases Except.ok.inj result
  simp only [finalizeTransferOwnership, Except.bind_eq_ok] at finalizes
  obtain ⟨⟨authPayload, precompileIx⟩, final, result⟩ := finalizes
  cases Except.ok.inj result
  have fieldReads := resolveOwnerFields_reads resolved named
  have width : (buildDataPayloadForTransfer fields.authType fields.credentialOrPubkey fields.secp256r1Pubkey
      fields.rpId).length = 1 + fields.keyBytes.length := by
    simp [buildDataPayloadForTransfer, OwnerFields.keyBytes, concatBytes]
    omega
  refine ⟨precompileIx, _, authPayload, buildDataPayloadForTransfer fields.authType fields.credentialOrPubkey
    fields.secp256r1Pubkey fields.rpId ++ authPayload, rfl, rfl, createTransferOwnershipIx_data _, final, ?_⟩
  intro accounts handed
  have payerAt : KeyAt accounts 0 params.payer := handed.keyAt rfl
  have refundAt : KeyAt accounts 4 (params.refundDestination.getD params.payer) := handed.keyAt rfl
  have sysvarAt : KeyAt accounts sysvarIxIndexTransferOwnership instructionsSysvar := handed.keyAt rfl
  have alike := signedAlike final (by decide) payerAt sysvarAt
  obtain ⟨acc, found, isPayer⟩ := payerAt
  obtain ⟨refund, foundRefund, isRefund⟩ := refundAt
  refine ⟨⟨params.newOwner.typeByte, ⟨fields.credentialOrPubkey, fields.keyBytes⟩⟩, _, ?_, rfl, fieldReads.isKey,
    List.drop_left' width, alike⟩
  simp only [signedArguments, Except.bind_eq_ok, accountAt_eq_ok]
  refine ⟨_, parse_buildDataPayloadForTransfer fieldReads authPayload, acc, found, refund, foundRefund, ?_⟩
  rw [TransferOwnershipArgs.dataPayloadLen, List.take_left' width, isPayer, isRefund]
  simp only [concatBytes, List.flatten_cons, List.flatten_nil, List.append_nil, List.append_assoc]

private theorem createSession_agrees {params : PrepareCreateSessionParams} {actionsBuffer : Option Bytes}
    {prepared : PreparedCreateSession} (prepares : prepareCreateSession rt reads encodeU64 params = .ok prepared)
    (finalizes : finalizeCreateSession prepared response = .ok instructions)
    (serialized : sessionActionsBuffer encodeU64 params.actions = .ok actionsBuffer)
    (buffer : ValidBuffer (actionsBuffer.getD [])) (expiry : params.expiresAt < 2 ^ 63) :
    CreateSessionAgrees rt response instructions params actionsBuffer prepared := by
  simp only [prepareCreateSession, serialized, Except.bind_eq_ok, Except.ok.injEq, exists_eq_left'] at prepares
  obtain ⟨_, _, inputs, _, result⟩ := prepares
  subst result
  simp only [finalizeCreateSession, Except.bind_eq_ok] at finalizes
  obtain ⟨⟨authPayload, precompileIx⟩, final, result⟩ := finalizes
  cases Except.ok.inj result
  refine ⟨precompileIx, _, authPayload, buildDataPayloadForSession params.sessionKey.bytes params.expiresAt
    actionsBuffer ++ authPayload, rfl, rfl, createCreateSessionIx_data params.sessionKey.length_bytes, final, ?_⟩
  intro accounts handed
  have payerAt : KeyAt accounts 0 params.payer := handed.keyAt rfl
  have sysvarAt : KeyAt accounts sysvarIxIndexCreateSession instructionsSysvar := handed.keyAt rfl
  have alike := signedAlike final (by decide) payerAt sysvarAt
  have expiresAt := toNatLE_i64LE params.expiresAt
  obtain ⟨acc, found, isPayer⟩ := payerAt
  refine ⟨⟨params.sessionKey, (i64LE params.expiresAt).toNatLE, actionsBuffer.getD [],
    (buildDataPayloadForSession params.sessionKey.bytes params.expiresAt actionsBuffer).length⟩, _, ?_, rfl, expiresAt,
    ?_, rfl, List.drop_left' rfl, alike⟩
  · simp only [signedArguments, Except.bind_eq_ok, accountAt_eq_ok]
    refine ⟨_, parse_buildDataPayloadForSession params.sessionKey params.expiresAt buffer authPayload, acc, found, ?_⟩
    rw [List.take_left' rfl, isPayer]
    simp only [concatBytes, List.flatten_cons, List.flatten_nil, List.append_nil]
  · intro slot
    rw [expiresAt]
    exact Int.emod_eq_of_lt slot (by omega)

/-- Every AddAuthority, TransferOwnership and CreateSession the kit prepares and finalizes for a passkey is read by
the program as it was asked for: the arguments come back, the auth payload is the finalized one, the preimage the
program rebuilds is the one the kit hashed, and the index in it points at the instructions sysvar. -/
theorem kit_requests_agree (rt : Runtime) (reads : ChallengeReads) (encodeU64 : ℤ → Except Error Bytes)
    (response : WebAuthnResponse) (instructions : List Instruction) :
    (∀ params prepared, prepareAddAuthority rt reads params = .ok prepared →
      finalizeAddAuthority prepared response = .ok instructions →
      params.newAuthority.NamesRp → ValidBuffer (params.policy.getD []) →
      AddAuthorityAgrees rt response instructions params prepared) ∧
    (∀ params prepared, prepareTransferOwnership rt reads params = .ok prepared →
      finalizeTransferOwnership prepared response = .ok instructions →
      params.newOwner.NamesRp → TransferOwnershipAgrees rt response instructions params prepared) ∧
    (∀ params actionsBuffer prepared, prepareCreateSession rt reads encodeU64 params = .ok prepared →
      finalizeCreateSession prepared response = .ok instructions →
      sessionActionsBuffer encodeU64 params.actions = .ok actionsBuffer → ValidBuffer (actionsBuffer.getD []) →
      params.expiresAt < 2 ^ 63 → CreateSessionAgrees rt response instructions params actionsBuffer prepared) := by
  refine ⟨?_, ?_, ?_⟩
  · intro params prepared prepares finalizes named buffer
    exact addAuthority_agrees prepares finalizes named buffer
  · intro params prepared prepares finalizes named
    exact transferOwnership_agrees prepares finalizes named
  · intro params actionsBuffer prepared prepares finalizes serialized buffer expiry
    exact createSession_agrees prepares finalizes serialized buffer expiry

end Agreement

namespace Sample

open LazorKit.Sample

/-- Authority A after its first use, as the node has it. -/
def authorityBytes : Bytes :=
  AuthorityAccountHeader.write (List.replicate 145 0) { newAuthorityHeader 1 rankOwner 255 0 wallet with counter := 1 }

def reads : ChallengeReads where
  keyAccount _ := .ok (some authorityBytes)
  slot := .ok 1010
  counterAccount _ := .ok (some authorityBytes)

/-- The passkey of authority A signs. -/
def passkeyA : Secp256r1Params := ⟨credentialA.bytes, some passkey, none, none⟩

def credential : CreateWalletOwner := .secp256r1 credentialB.bytes passkey "lazorkit.com"

/-- A Delegate with a lifetime limit. -/
def addDelegate : PrepareAddAuthorityParams := ⟨payer, wallet, passkeyA, credential, roleSpender, some solLimit, false⟩

def transferOwnership : PrepareTransferOwnershipParams := ⟨payer, wallet, passkeyA, credential, none⟩

def createSession : PrepareCreateSessionParams :=
  ⟨payer, wallet, passkeyA, sessionKey, 2000, some [.solLimit 5000 none], false⟩

def response : WebAuthnResponse where
  signature := executeAssertion.signature
  authenticatorData := executeAssertion.authenticatorData
  clientDataJsonHash := emptyHash.bytes
  clientDataJson := executeAssertion.clientDataJson

/-- What the three challenges hash, with their digests. -/
def challenges : List (Bytes × Bytes32) :=
  [(secp256r1ChallengeInput [1] (buildAuthPayloadPrefix 1010 2 6) (buildDataPayloadForAdd 1 2 credentialB.bytes
      (some passkey) (some "lazorkit.com") (some solLimit) ++ payer.bytes) payer wallet 2 programId,
      bytes32 0x86c4eaa6cc36af2694167005f64b6cc8dadbefac66f6071695d1a7e00beeb53f),
    (secp256r1ChallengeInput [3] (buildAuthPayloadPrefix 1010 2 7) (buildDataPayloadForTransfer 1 credentialB.bytes
      (some passkey) (some "lazorkit.com") ++ payer.bytes ++ payer.bytes) payer wallet 2 programId,
      bytes32 0xa3ec7045ee08451b55c1ccc15287b842b0e4302905978c697c49940e85085498),
    (secp256r1ChallengeInput [5] (buildAuthPayloadPrefix 1010 2 6) (buildDataPayloadForSession sessionKey.bytes 2000
      (some solLimit) ++ payer.bytes) payer wallet 2 programId,
      bytes32 0x8ca8cb93a19d7938322cff9f4de52d42e6531bd0d48993ec923e8017633db788)]

def runtime : Runtime := { deployment.toRuntime with sha256 := lookup (digests ++ challenges) }

end Sample

/-- Authority A's passkey adds a Delegate, hands its ownership over and opens a session. -/
theorem kit_requests_sample :
    (∃ prepared instructions, prepareAddAuthority Sample.runtime Sample.reads Sample.addDelegate = .ok prepared ∧
      finalizeAddAuthority prepared Sample.response = .ok instructions ∧
      AddAuthorityAgrees Sample.runtime Sample.response instructions Sample.addDelegate prepared) ∧
    (∃ prepared instructions,
      prepareTransferOwnership Sample.runtime Sample.reads Sample.transferOwnership = .ok prepared ∧
      finalizeTransferOwnership prepared Sample.response = .ok instructions ∧
      TransferOwnershipAgrees Sample.runtime Sample.response instructions Sample.transferOwnership prepared) ∧
    (∃ prepared instructions,
      prepareCreateSession Sample.runtime Sample.reads Sample.encodeU64 Sample.createSession = .ok prepared ∧
      finalizeCreateSession prepared Sample.response = .ok instructions ∧
      CreateSessionAgrees Sample.runtime Sample.response instructions Sample.createSession
        (some LazorKit.Sample.solLimit) prepared) := by
  have named : Sample.credential.NamesRp := by
    rw [Sample.credential, CreateWalletOwner.NamesRp]
    decide +kernel
  have buffer : ValidBuffer LazorKit.Sample.solLimit := ⟨by decide +kernel, by decide⟩
  refine ⟨?_, ?_, ?_⟩
  · obtain ⟨instructions, success⟩ := Except.exists_of_succeeded
      (show (prepareAddAuthority Sample.runtime Sample.reads Sample.addDelegate >>= fun prepared =>
        finalizeAddAuthority prepared Sample.response).succeeded = true by decide +kernel)
    obtain ⟨prepared, prepares, finalizes⟩ := Except.bind_eq_ok.mp success
    exact ⟨prepared, instructions, prepares, finalizes,
      (kit_requests_agree _ _ Sample.encodeU64 _ _).1 _ _ prepares finalizes named buffer⟩
  · obtain ⟨instructions, success⟩ := Except.exists_of_succeeded
      (show (prepareTransferOwnership Sample.runtime Sample.reads Sample.transferOwnership >>= fun prepared =>
        finalizeTransferOwnership prepared Sample.response).succeeded = true by decide +kernel)
    obtain ⟨prepared, prepares, finalizes⟩ := Except.bind_eq_ok.mp success
    exact ⟨prepared, instructions, prepares, finalizes,
      (kit_requests_agree _ _ Sample.encodeU64 _ _).2.1 _ _ prepares finalizes named⟩
  · obtain ⟨instructions, success⟩ := Except.exists_of_succeeded
      (show (prepareCreateSession Sample.runtime Sample.reads Sample.encodeU64 Sample.createSession >>= fun prepared =>
        finalizeCreateSession prepared Sample.response).succeeded = true by decide +kernel)
    obtain ⟨prepared, prepares, finalizes⟩ := Except.bind_eq_ok.mp success
    exact ⟨prepared, instructions, prepares, finalizes,
      (kit_requests_agree _ _ Sample.encodeU64 _ _).2.2 _ _ _ prepares finalizes (by decide +kernel) buffer (by decide)⟩

end Kit

end LazorKit
