import LazorKit.Model.Kit.Actions
import LazorKit.Model.Kit.Builders
import LazorKit.Model.Program

/-! # The kit's client

The prepare and finalize methods of the client for AddAuthority, TransferOwnership and CreateSession with a
passkey. A client is made for one program address; it derives addresses and hashes as the runtime does. What
the node answers is an argument: the three reads of a challenge run side by side and need not agree.
-/

namespace LazorKit.Kit

open Solana

def sysvarIxIndexAddAuthority : ℕ := 6
def sysvarIxIndexTransferOwnership : ℕ := 7
def sysvarIxIndexCreateSession : ℕ := 6

/-- The new owner or authority a caller names. -/
inductive CreateWalletOwner where
  | ed25519 (publicKey : Pubkey)
  | secp256r1 (credentialIdHash compressedPubkey : Bytes) (rpId : String)

structure OwnerFields where
  authType : ℤ
  credentialOrPubkey : Bytes
  secp256r1Pubkey : Option Bytes
  rpId : Option String

def assertByteLength (value : Bytes) (expected : ℕ) (name : String) : Except Error Unit :=
  let got := value.length
  Except.ensure (got = expected) ⟨s!"{name} must be exactly {expected} bytes, got {got}"⟩

def assertNonZeroBytes (value : Bytes) (name : String) : Except Error Unit :=
  Except.ensure (value.isZero = false) ⟨s!"{name} must not be all zero bytes"⟩

def resolveOwnerFields : CreateWalletOwner → Except Error OwnerFields
  | .ed25519 publicKey => do
    assertNonZeroBytes publicKey.bytes "publicKey"
    .ok { authType := authTypeEd25519, credentialOrPubkey := publicKey.bytes, secp256r1Pubkey := none, rpId := none }
  | .secp256r1 credentialIdHash compressedPubkey rpId => do
    assertByteLength credentialIdHash 32 "credentialIdHash"
    assertByteLength compressedPubkey 33 "compressedPubkey"
    assertNonZeroBytes credentialIdHash "credentialIdHash"
    assertNonZeroBytes compressedPubkey "compressedPubkey"
    .ok {
      authType := authTypeSecp256r1
      credentialOrPubkey := credentialIdHash
      secp256r1Pubkey := some compressedPubkey
      rpId := some rpId }

/-- An Owner only by opting in, and a policy for a Delegate and for nobody else. -/
def assertAddAuthorityRole (role : ℤ) (allowOwner : Bool) (policy : Option Bytes) : Except Error Unit := do
  Except.ensure (¬(role = roleOwner ∧ allowOwner = false)) ⟨
    "AddAuthority creates an Owner only with allowOwner: true — an Owner can " ++
    "manage and revoke everything, including you. Use ROLE_ADMIN for a " ++
    "manager, or transferOwnership to hand ownership over."⟩
  Except.ensure (¬(role < 0 ∨ role > 2)) ⟨
    "AddAuthority role must be ROLE_OWNER (0), ROLE_ADMIN (1) or ROLE_SPENDER (2)"⟩
  Except.ensure (¬(role = roleSpender ∧ policy.getD [] = [])) ⟨
    "ROLE_SPENDER (Delegate) requires a non-empty policy — rank says what an " ++
    "authority may manage, the policy says what it may spend, and a Delegate " ++
    "manages nothing. Build one with serializeActions([...])."⟩
  Except.ensure (¬(role ≠ roleSpender ∧ policy.getD [] ≠ [])) ⟨
    "Only ROLE_SPENDER (Delegate) may carry a policy. A capped spender is a " ++
    "Delegate; a manager is an Admin. To give one person both, issue two " ++
    "authorities."⟩

/-- No actions means an unrestricted key, which has to be asked for by name. -/
def assertSessionActions (actions : Option (List SessionAction)) (unrestricted : Bool) : Except Error Unit :=
  Except.ensure (¬((actions.getD []).isEmpty = true ∧ unrestricted = false)) ⟨
    "createSession with no actions grants an UNRESTRICTED session key — it can " ++
    "move the whole vault and even reassign it, which is more power than a " ++
    "bounded Delegate has. Pass actions: [Actions.solLimit(...), ...] to bound " ++
    "it, or unrestricted: true to say you meant it."⟩

/-- The passkey that signs, and what of it the caller already knows. -/
structure Secp256r1Params where
  credentialIdHash : Bytes
  publicKeyBytes : Option Bytes
  authorityPda : Option Pubkey
  slotOverride : Option ℤ

/-- What the node answers to the reads of one challenge. -/
structure ChallengeReads where
  keyAccount : Pubkey → Except Error (Option Bytes)
  slot : Except Error ℤ
  counterAccount : Pubkey → Except Error (Option Bytes)

/-- The account's data, if the node has the account. -/
def readAuthorityAccountBytes (read : Pubkey → Except Error (Option Bytes)) (authorityPda : Pubkey) :
    Except Error Bytes := do
  let info ← read authorityPda
  let text := base58 authorityPda.bytes
  Except.ofOption ⟨s!"Authority account not found: {text}"⟩ info

/-- The authority's counter, a u32 at offset 8. -/
def readChallengeCounter (reads : ChallengeReads) (authorityPda : Pubkey) : Except Error ℕ := do
  let bytes ← readAuthorityAccountBytes reads.counterAccount authorityPda
  Except.ensure (12 ≤ bytes.length) ⟨"Authority account data too short"⟩
  .ok (bytes.slice 8 4).toNatLE

/-- The authority's compressed key, behind the header and the credential hash. -/
def readChallengeKey (reads : ChallengeReads) (authorityPda : Pubkey) : Except Error Bytes := do
  let bytes ← readAuthorityAccountBytes reads.keyAccount authorityPda
  Except.ensure (113 ≤ bytes.length) ⟨"Authority account too small for Secp256r1"⟩
  Except.ensure (bytes.byte 0 = AccountDiscriminator.authority.toByte) ⟨"Not an Authority account"⟩
  Except.ensure (bytes.byte 1 = 1) ⟨"Authority is not Secp256r1"⟩
  .ok (bytes.slice 80 33)

structure ChallengeInputs where
  authorityPda : Pubkey
  publicKeyBytes : Bytes
  slot : ℤ
  counter : ℕ

/-- The key and the slot unless the caller has them, and the counter after the one the account holds. -/
def readChallengeInputs (reads : ChallengeReads) (authorityPda : Pubkey) (publicKeyBytes : Option Bytes)
    (slotOverride : Option ℤ) : Except Error ChallengeInputs := do
  let publicKeyBytes ← (match publicKeyBytes with
    | some publicKeyBytes => .ok publicKeyBytes
    | none => readChallengeKey reads authorityPda)
  let slot ← (match slotOverride with
    | some slot => .ok slot
    | none => reads.slot)
  let counter ← readChallengeCounter reads authorityPda
  .ok ⟨authorityPda, publicKeyBytes, slot, counter + 1⟩

section Client

variable (rt : Runtime) (reads : ChallengeReads)

def findAuthority (walletPda : Pubkey) (credIdHash : Bytes) : Pubkey :=
  (rt.findProgramAddress [Seeds.authority, walletPda.bytes, credIdHash]).1

def findSession (walletPda : Pubkey) (sessionKey : Bytes) : Pubkey :=
  (rt.findProgramAddress [Seeds.session, walletPda.bytes, sessionKey]).1

def resolveSecp256r1 (walletPda : Pubkey) (p : Secp256r1Params) : Except Error ChallengeInputs := do
  assertByteLength p.credentialIdHash 32 "credentialIdHash"
  (match p.publicKeyBytes with
    | some publicKeyBytes => assertByteLength publicKeyBytes 33 "publicKeyBytes"
    | none => .ok ())
  let authorityPda := p.authorityPda.getD (findAuthority rt walletPda p.credentialIdHash)
  readChallengeInputs reads authorityPda p.publicKeyBytes p.slotOverride

def buildPasskeySigning (discriminator : UInt8) (sysvarIxIndex : ℕ) (signedPayload : Bytes) (inputs : ChallengeInputs)
    (payer wallet : Pubkey) : PreparedSecp256r1 :=
  prepareSecp256r1 rt.sha256 [discriminator] signedPayload sysvarIxIndex inputs.slot inputs.counter payer wallet
    rt.programId inputs.publicKeyBytes

structure PrepareAddAuthorityParams where
  payer : Pubkey
  walletPda : Pubkey
  secp256r1 : Secp256r1Params
  newAuthority : CreateWalletOwner
  role : ℤ
  policy : Option Bytes
  allowOwner : Bool

structure PreparedAddAuthority where
  challenge : Bytes32
  signing : PreparedSecp256r1
  payer : Pubkey
  walletPda : Pubkey
  adminAuthorityPda : Pubkey
  newAuthorityPda : Pubkey
  newType : ℤ
  newRole : ℤ
  policy : Option Bytes
  credentialOrPubkey : Bytes
  secp256r1Pubkey : Option Bytes
  rpId : Option String
  programId : Pubkey

def prepareAddAuthority (params : PrepareAddAuthorityParams) : Except Error PreparedAddAuthority := do
  assertAddAuthorityRole params.role params.allowOwner params.policy
  let fields ← resolveOwnerFields params.newAuthority
  let newAuthorityPda := findAuthority rt params.walletPda fields.credentialOrPubkey
  let inputs ← resolveSecp256r1 rt reads params.walletPda params.secp256r1
  let dataPayload := buildDataPayloadForAdd fields.authType params.role fields.credentialOrPubkey
    fields.secp256r1Pubkey fields.rpId params.policy
  let signedPayload := concatBytes [dataPayload, params.payer.bytes]
  let signing := buildPasskeySigning rt discAddAuthority sysvarIxIndexAddAuthority signedPayload inputs params.payer
    params.walletPda
  .ok {
    challenge := signing.challenge
    signing := signing
    payer := params.payer
    walletPda := params.walletPda
    adminAuthorityPda := inputs.authorityPda
    newAuthorityPda := newAuthorityPda
    newType := fields.authType
    newRole := params.role
    policy := params.policy
    credentialOrPubkey := fields.credentialOrPubkey
    secp256r1Pubkey := fields.secp256r1Pubkey
    rpId := fields.rpId
    programId := rt.programId }

/-- The precompile instruction and the program's. -/
def finalizeAddAuthority (prepared : PreparedAddAuthority) (response : WebAuthnResponse) :
    Except Error (List Instruction) := do
  let signed ← finalizeSecp256r1 prepared.signing response
  let ix := createAddAuthorityIx {
    payer := prepared.payer
    walletPda := prepared.walletPda
    adminAuthorityPda := prepared.adminAuthorityPda
    newAuthorityPda := prepared.newAuthorityPda
    newType := prepared.newType
    newRole := prepared.newRole
    credentialOrPubkey := prepared.credentialOrPubkey
    secp256r1Pubkey := prepared.secp256r1Pubkey
    rpId := prepared.rpId
    policy := prepared.policy
    authPayload := some signed.1
    authorizerSigner := none
    programId := prepared.programId }
  .ok [signed.2, ix]

structure PrepareTransferOwnershipParams where
  payer : Pubkey
  walletPda : Pubkey
  secp256r1 : Secp256r1Params
  newOwner : CreateWalletOwner
  refundDestination : Option Pubkey

structure PreparedTransferOwnership where
  challenge : Bytes32
  signing : PreparedSecp256r1
  payer : Pubkey
  walletPda : Pubkey
  currentOwnerAuthorityPda : Pubkey
  newOwnerAuthorityPda : Pubkey
  refundDestination : Pubkey
  newType : ℤ
  credentialOrPubkey : Bytes
  secp256r1Pubkey : Option Bytes
  rpId : Option String
  programId : Pubkey

def prepareTransferOwnership (params : PrepareTransferOwnershipParams) : Except Error PreparedTransferOwnership := do
  let fields ← resolveOwnerFields params.newOwner
  let newOwnerAuthorityPda := findAuthority rt params.walletPda fields.credentialOrPubkey
  let refundDest := params.refundDestination.getD params.payer
  let inputs ← resolveSecp256r1 rt reads params.walletPda params.secp256r1
  let dataPayload := buildDataPayloadForTransfer fields.authType fields.credentialOrPubkey fields.secp256r1Pubkey
    fields.rpId
  let signedPayload := concatBytes [dataPayload, params.payer.bytes, refundDest.bytes]
  let signing := buildPasskeySigning rt discTransferOwnership sysvarIxIndexTransferOwnership signedPayload inputs
    params.payer params.walletPda
  .ok {
    challenge := signing.challenge
    signing := signing
    payer := params.payer
    walletPda := params.walletPda
    currentOwnerAuthorityPda := inputs.authorityPda
    newOwnerAuthorityPda := newOwnerAuthorityPda
    refundDestination := refundDest
    newType := fields.authType
    credentialOrPubkey := fields.credentialOrPubkey
    secp256r1Pubkey := fields.secp256r1Pubkey
    rpId := fields.rpId
    programId := rt.programId }

def finalizeTransferOwnership (prepared : PreparedTransferOwnership) (response : WebAuthnResponse) :
    Except Error (List Instruction) := do
  let signed ← finalizeSecp256r1 prepared.signing response
  let ix := createTransferOwnershipIx {
    payer := prepared.payer
    walletPda := prepared.walletPda
    currentOwnerAuthorityPda := prepared.currentOwnerAuthorityPda
    newOwnerAuthorityPda := prepared.newOwnerAuthorityPda
    refundDestination := prepared.refundDestination
    newType := prepared.newType
    credentialOrPubkey := prepared.credentialOrPubkey
    secp256r1Pubkey := prepared.secp256r1Pubkey
    rpId := prepared.rpId
    authPayload := some signed.1
    authorizerSigner := none
    programId := prepared.programId }
  .ok [signed.2, ix]

structure PrepareCreateSessionParams where
  payer : Pubkey
  walletPda : Pubkey
  secp256r1 : Secp256r1Params
  sessionKey : Pubkey
  expiresAt : ℤ
  actions : Option (List SessionAction)
  unrestricted : Bool

structure PreparedCreateSession where
  challenge : Bytes32
  signing : PreparedSecp256r1
  payer : Pubkey
  walletPda : Pubkey
  adminAuthorityPda : Pubkey
  sessionPda : Pubkey
  sessionKey : Bytes
  expiresAt : ℤ
  actionsBuffer : Option Bytes
  programId : Pubkey

/-- No buffer for no actions. -/
def sessionActionsBuffer (encodeU64 : ℤ → Except Error Bytes) (actions : Option (List SessionAction)) :
    Except Error (Option Bytes) :=
  match actions with
  | some actions => if 0 < actions.length then (serializeActions encodeU64 actions).map some else .ok none
  | none => .ok none

def prepareCreateSession (encodeU64 : ℤ → Except Error Bytes) (params : PrepareCreateSessionParams) :
    Except Error PreparedCreateSession := do
  assertSessionActions params.actions params.unrestricted
  let sessionPda := findSession rt params.walletPda params.sessionKey.bytes
  let inputs ← resolveSecp256r1 rt reads params.walletPda params.secp256r1
  let actionsBuffer ← sessionActionsBuffer encodeU64 params.actions
  let dataPayload := buildDataPayloadForSession params.sessionKey.bytes params.expiresAt actionsBuffer
  let signedPayload := concatBytes [dataPayload, params.payer.bytes]
  let signing := buildPasskeySigning rt discCreateSession sysvarIxIndexCreateSession signedPayload inputs params.payer
    params.walletPda
  .ok {
    challenge := signing.challenge
    signing := signing
    payer := params.payer
    walletPda := params.walletPda
    adminAuthorityPda := inputs.authorityPda
    sessionPda := sessionPda
    sessionKey := params.sessionKey.bytes
    expiresAt := params.expiresAt
    actionsBuffer := actionsBuffer
    programId := rt.programId }

def finalizeCreateSession (prepared : PreparedCreateSession) (response : WebAuthnResponse) :
    Except Error (List Instruction) := do
  let signed ← finalizeSecp256r1 prepared.signing response
  let ix := createCreateSessionIx {
    payer := prepared.payer
    walletPda := prepared.walletPda
    adminAuthorityPda := prepared.adminAuthorityPda
    sessionPda := prepared.sessionPda
    sessionKey := prepared.sessionKey
    expiresAt := prepared.expiresAt
    actionsBuffer := prepared.actionsBuffer
    authPayload := some signed.1
    authorizerSigner := none
    programId := prepared.programId }
  .ok [signed.2, ix]

end Client

end LazorKit.Kit
