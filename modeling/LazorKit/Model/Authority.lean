import LazorKit.Model.Authenticate
import LazorKit.Model.Action

/-! # Wallets and their authorities

CreateWallet, AddAuthority, RemoveAuthority and TransferOwnership. The first three adjust the
wallet's owner count; the last replaces one Owner by another and leaves it alone.
-/

namespace LazorKit

open Solana

def rankOwner : UInt8 := 0
def rankAdmin : UInt8 := 1
def rankDelegate : UInt8 := 2
def rankMax : UInt8 := rankDelegate
def maxPolicyBufferSize : ℕ := 2048

/-- May an authority of rank `actor` create one of rank `newRank`? -/
def canAdd (actor newRank : UInt8) : Bool :=
  if newRank > rankMax then false
  else if actor = rankOwner then true
  else if actor = rankAdmin then newRank = rankDelegate
  else false

/-- May an authority of rank `actor` remove one of rank `target`, given the number of Owners? -/
def canRemove (actor target : UInt8) (ownerCount : ℕ) : Bool :=
  if actor = rankOwner ∧ target = rankOwner then ownerCount > 1
  else if actor = rankOwner then target ≤ rankMax
  else actor = rankAdmin ∧ target = rankDelegate

/-- The seed of the authority's address and its key material as sent:
`pubkey(32)`, or `credential_id_hash(32) pubkey(33) rp_id_len(1) rp_id`. -/
structure AuthorityKey where
  idSeed : Bytes
  fullAuthData : Bytes

/-- Key material of CreateWallet and AddAuthority. -/
def parseAuthorityKey (authorityType : UInt8) (rest : Bytes) : Except ProgramError AuthorityKey :=
  match authorityType with
  | 0 => do
    Except.ensure (32 ≤ rest.length) .invalidInstructionData
    Except.ensure ((rest.slice 0 32).isZero = false) ↑AuthError.invalidPubkey
    .ok ⟨rest.slice 0 32, rest.slice 0 32⟩
  | 1 => do
    Except.ensure (66 ≤ rest.length) .invalidInstructionData
    Except.ensure ((rest.slice 0 32).isZero = false ∧ (rest.slice 32 33).isZero = false)
      ↑AuthError.invalidPubkey
    let rpIdLen := (rest.byte 65).toNat
    Except.ensure (rpIdLen ≠ 0 ∧ rpIdLen ≤ 253) .invalidInstructionData
    Except.ensure (66 + rpIdLen ≤ rest.length) .invalidInstructionData
    .ok ⟨rest.slice 0 32, rest.slice 0 (66 + rpIdLen)⟩
  | _ => .error ↑AuthError.invalidAuthenticationKind

/-- Key material of TransferOwnership: the same layout, but a zero key is an account error and the
seed is not looked at yet. -/
def parseNewOwnerKey (authType : UInt8) (rest : Bytes) : Except ProgramError AuthorityKey :=
  match authType with
  | 0 => do
    Except.ensure (32 ≤ rest.length) .invalidInstructionData
    .ok ⟨rest.slice 0 32, rest.slice 0 32⟩
  | 1 => do
    Except.ensure (66 ≤ rest.length) .invalidInstructionData
    Except.ensure ((rest.slice 32 33).isZero = false) .invalidAccountData
    let rpIdLen := (rest.byte 65).toNat
    Except.ensure (rpIdLen ≠ 0 ∧ rpIdLen ≤ 253) .invalidInstructionData
    Except.ensure (66 + rpIdLen ≤ rest.length) .invalidInstructionData
    .ok ⟨rest.slice 0 32, rest.slice 0 (66 + rpIdLen)⟩
  | _ => .error ↑AuthError.invalidAuthenticationKind

/-- Key material as stored after the header; for a passkey the rpId is replaced by its hash. -/
def storedKeyMaterial (dep : Deployment) (authorityType : UInt8) (fullAuthData : Bytes) :
    Except ProgramError Bytes :=
  match authorityType with
  | 0 => .ok (fullAuthData.slice 0 32)
  | 1 => .ok (fullAuthData.slice 0 32 ++ fullAuthData.slice 32 33 ++
      (dep.sha256 (fullAuthData.slice 66 (fullAuthData.byte 65).toNat)).bytes)
  | _ => .error ↑AuthError.invalidAuthenticationKind

/-- The header every creator writes: counter zero and no padding. -/
def newAuthorityHeader (authorityType role bump : UInt8) (policyLen : ℕ) (wallet : Pubkey) :
    AuthorityAccountHeader where
  discriminator := AccountDiscriminator.authority.toByte
  authorityType := authorityType
  role := role
  bump := bump
  version := currentAccountVersion
  padding1 := .fill 0
  counter := 0
  policyLen := policyLen
  padding2 := .fill 0
  wallet := wallet

def processCreateWallet (dep : Deployment) (accounts : List AccountInfo) (data : Bytes)
    (m : Machine Approval) : Except ProgramError (Machine Approval) := do
  Except.ensure (40 ≤ data.length) .invalidInstructionData
  let userSeed := data.slice 0 32
  let authorityType := data.byte 32
  let key ← parseAuthorityKey authorityType (data.drop 40)
  let payer ← accountAt accounts 0
  Except.ensure (payer.isSigner = true) .missingRequiredSignature
  let walletPda ← accountAt accounts 1
  let vaultPda ← accountAt accounts 2
  let authPda ← accountAt accounts 3
  let systemProgram ← accountAt accounts 4
  let rentSysvar ← accountAt accounts 5
  let rent ← Rent.fromAccountInfo dep.toRuntime rentSysvar
  let wallet := dep.findProgramAddress [Seeds.wallet, userSeed]
  Except.ensure (walletPda.key = wallet.1) .invalidSeeds
  checkZeroData m walletPda .accountAlreadyInitialized
  let vault := dep.findProgramAddress [Seeds.vault, wallet.1.bytes]
  Except.ensure (vaultPda.key = vault.1) .invalidSeeds
  let auth := dep.findProgramAddress [Seeds.authority, wallet.1.bytes, key.idSeed]
  Except.ensure (authPda.key = auth.1) .invalidSeeds
  checkZeroData m authPda .accountAlreadyInitialized
  let m ← initializePdaAccount dep m payer walletPda systemProgram 8 (rent.minimumBalance 8)
  let walletAccount : WalletAccount :=
    { discriminator := AccountDiscriminator.wallet.toByte, bump := wallet.2,
      version := currentAccountVersion, padding := 0, ownerCount := 1 }
  let m ← m.writeData dep.toRuntime walletPda ((m.data walletPda.key).splice 0 walletAccount.toBytes)
  let authSpace ← Except.ofOption ↑AuthError.invalidAuthenticationKind (authorityFixedLen authorityType)
  let m ← initializePdaAccount dep m payer authPda systemProgram authSpace (rent.minimumBalance authSpace)
  let header := newAuthorityHeader authorityType rankOwner auth.2 0 walletPda.key
  let material ← storedKeyMaterial dep authorityType key.fullAuthData
  m.writeData dep.toRuntime authPda
    ((AuthorityAccountHeader.write (m.data authPda.key) header).splice AuthorityAccountHeader.size material)

/-- The optional policy after the key material, and where the signed part of the data ends. -/
structure ParsedPolicy where
  policy : Bytes
  dataPayloadLen : ℕ

def parsePolicy (data : Bytes) (keyDataEnd : ℕ) : Except ProgramError ParsedPolicy := do
  Except.ensure (keyDataEnd ≤ data.length) .invalidInstructionData
  if keyDataEnd + 2 ≤ data.length then do
    let policyLen := (data.slice keyDataEnd 2).toNatLE
    Except.ensure (policyLen ≤ maxPolicyBufferSize) .invalidInstructionData
    Except.ensure (keyDataEnd + 2 + policyLen ≤ data.length) .invalidInstructionData
    .ok ⟨data.slice (keyDataEnd + 2) policyLen, keyDataEnd + 2 + policyLen⟩
  else .ok ⟨[], keyDataEnd⟩

/-- A new Owner is counted in the wallet. -/
def countOwner (dep : Deployment) (m : Machine Approval) (walletPda : AccountInfo) :
    Except ProgramError (Machine Approval) := do
  let next := WalletAccount.readOwnerCount (m.data walletPda.key) + 1
  Except.ensure (next < 2 ^ 32) .arithmeticOverflow
  m.writeData dep.toRuntime walletPda (WalletAccount.setOwnerCount (m.data walletPda.key) next)

/-- Everything AddAuthority reads from its data: the type, the rank, the key and the policy. -/
structure AddAuthorityArgs where
  authorityType : UInt8
  newRole : UInt8
  key : AuthorityKey
  policy : Bytes
  dataPayloadLen : ℕ

def AddAuthorityArgs.parse (data : Bytes) : Except ProgramError AddAuthorityArgs := do
  Except.ensure (8 ≤ data.length) .invalidInstructionData
  let key ← parseAuthorityKey (data.byte 0) (data.drop 8)
  let parsed ← parsePolicy data (8 + key.fullAuthData.length)
  (if parsed.policy.isEmpty then .ok () else validateActionsBuffer parsed.policy)
  .ok ⟨data.byte 0, data.byte 1, key, parsed.policy, parsed.dataPayloadLen⟩

def processAddAuthority (dep : Deployment) (fr : Frame) (accounts : List AccountInfo) (data : Bytes)
    (m : Machine Approval) : Except ProgramError (Machine Approval) := do
  let args ← AddAuthorityArgs.parse data
  let payer ← accountAt accounts 0
  Except.ensure (payer.isSigner = true) .missingRequiredSignature
  let walletPda ← accountAt accounts 1
  let adminAuthPda ← accountAt accounts 2
  let newAuthPda ← accountAt accounts 3
  let systemProgram ← accountAt accounts 4
  Except.ensure (m.owner walletPda.key = dep.programId) .illegalOwner
  Except.ensure (m.owner adminAuthPda.key = dep.programId) .illegalOwner
  WalletAccount.check (m.data walletPda.key)
  let rentSysvar ← accountAt accounts 5
  let rent ← Rent.fromAccountInfo dep.toRuntime rentSysvar
  AuthorityAccountHeader.check (m.data adminAuthPda.key)
  let adminHeader := AuthorityAccountHeader.read (m.data adminAuthPda.key)
  Except.ensure (adminHeader.wallet = walletPda.key) .invalidAccountData
  Except.ensure (adminHeader.authorityType = 1 → adminAuthPda.isWritable = true) .invalidAccountData
  let m ← authenticate dep fr accounts m adminAuthPda adminHeader.authorityType
    (data.drop args.dataPayloadLen) (data.take args.dataPayloadLen ++ payer.key.bytes) 1
  Except.ensure (canAdd adminHeader.role args.newRole = true) ↑AuthError.permissionDenied
  Except.ensure (¬(args.newRole = rankDelegate ∧ args.policy = [])) ↑AuthError.delegateRequiresPolicy
  Except.ensure (¬(args.newRole ≠ rankDelegate ∧ args.policy ≠ [])) ↑AuthError.policyRankMismatch
  Except.ensure (adminHeader.policyLen = 0) ↑AuthError.policyBearingAuthorityCannotDelegate
  let auth := dep.findProgramAddress [Seeds.authority, walletPda.key.bytes, args.key.idSeed]
  Except.ensure (newAuthPda.key = auth.1) .invalidSeeds
  checkZeroData m newAuthPda .accountAlreadyInitialized
  let fixedLen ← Except.ofOption ↑AuthError.invalidAuthenticationKind (authorityFixedLen args.authorityType)
  let space := fixedLen + args.policy.length
  let m ← initializePdaAccount dep m payer newAuthPda systemProgram space (rent.minimumBalance space)
  let m ← (if args.newRole = rankOwner then countOwner dep m walletPda else .ok m)
  let header := newAuthorityHeader args.authorityType args.newRole auth.2 args.policy.length walletPda.key
  let material ← storedKeyMaterial dep args.authorityType args.key.fullAuthData
  m.writeData dep.toRuntime newAuthPda
    (((AuthorityAccountHeader.write (m.data newAuthPda.key) header).splice
      AuthorityAccountHeader.size material).splice fixedLen args.policy)

/-- A removed Owner is no longer counted. -/
def uncountOwner (dep : Deployment) (m : Machine Approval) (walletPda : AccountInfo) :
    Except ProgramError (Machine Approval) := do
  let count := WalletAccount.readOwnerCount (m.data walletPda.key)
  Except.ensure (1 ≤ count) .arithmeticOverflow
  m.writeData dep.toRuntime walletPda (WalletAccount.setOwnerCount (m.data walletPda.key) (count - 1))

def processRemoveAuthority (dep : Deployment) (fr : Frame) (accounts : List AccountInfo) (data : Bytes)
    (m : Machine Approval) : Except ProgramError (Machine Approval) := do
  let payer ← accountAt accounts 0
  Except.ensure (payer.isSigner = true) .missingRequiredSignature
  let walletPda ← accountAt accounts 1
  let adminAuthPda ← accountAt accounts 2
  let targetAuthPda ← accountAt accounts 3
  let refundDest ← accountAt accounts 4
  Except.ensure (m.owner walletPda.key = dep.programId ∧ m.owner adminAuthPda.key = dep.programId ∧
    m.owner targetAuthPda.key = dep.programId) .illegalOwner
  WalletAccount.check (m.data walletPda.key)
  Except.ensure (adminAuthPda.isWritable = true) .invalidAccountData
  AuthorityAccountHeader.check (m.data adminAuthPda.key)
  let adminHeader := AuthorityAccountHeader.read (m.data adminAuthPda.key)
  Except.ensure (adminHeader.wallet = walletPda.key) .invalidAccountData
  let m ← authenticate dep fr accounts m adminAuthPda adminHeader.authorityType data
    (targetAuthPda.key.bytes ++ refundDest.key.bytes) 2
  AuthorityAccountHeader.check (m.data targetAuthPda.key)
  let targetHeader := AuthorityAccountHeader.read (m.data targetAuthPda.key)
  Except.ensure (targetHeader.wallet = walletPda.key) .invalidAccountData
  Except.ensure (adminAuthPda.key ≠ targetAuthPda.key) ↑AuthError.permissionDenied
  let ownerCount := WalletAccount.readOwnerCount (m.data walletPda.key)
  Except.ensure (canRemove adminHeader.role targetHeader.role ownerCount = true) ↑AuthError.permissionDenied
  Except.ensure (targetAuthPda.key ≠ refundDest.key) .invalidAccountData
  let m ← (if targetHeader.role = rankOwner then uncountOwner dep m walletPda else .ok m)
  let m ← drainInto dep m targetAuthPda refundDest
  zeroData dep m targetAuthPda

/-- Everything TransferOwnership reads from its data. -/
structure TransferOwnershipArgs where
  authType : UInt8
  key : AuthorityKey

def TransferOwnershipArgs.parse (data : Bytes) : Except ProgramError TransferOwnershipArgs := do
  Except.ensure (data ≠ []) .invalidInstructionData
  let key ← parseNewOwnerKey (data.byte 0) (data.drop 1)
  Except.ensure (key.idSeed.isZero = false) .invalidAccountData
  Except.ensure (1 + key.fullAuthData.length ≤ data.length) .invalidInstructionData
  .ok ⟨data.byte 0, key⟩

/-- Length of the signed part of the data: the type and the key material. -/
def TransferOwnershipArgs.dataPayloadLen (args : TransferOwnershipArgs) : ℕ :=
  1 + args.key.fullAuthData.length

def processTransferOwnership (dep : Deployment) (fr : Frame) (accounts : List AccountInfo) (data : Bytes)
    (m : Machine Approval) : Except ProgramError (Machine Approval) := do
  let args ← TransferOwnershipArgs.parse data
  let payer ← accountAt accounts 0
  Except.ensure (payer.isSigner = true) .missingRequiredSignature
  let walletPda ← accountAt accounts 1
  let currentOwner ← accountAt accounts 2
  let newOwner ← accountAt accounts 3
  let refundDest ← accountAt accounts 4
  let systemProgram ← accountAt accounts 5
  let rentSysvar ← accountAt accounts 6
  let rent ← Rent.fromAccountInfo dep.toRuntime rentSysvar
  Except.ensure (m.owner walletPda.key = dep.programId ∧ m.owner currentOwner.key = dep.programId)
    .illegalOwner
  Except.ensure (currentOwner.key ≠ refundDest.key) .invalidAccountData
  WalletAccount.check (m.data walletPda.key)
  Except.ensure (currentOwner.isWritable = true) .invalidAccountData
  AuthorityAccountHeader.check (m.data currentOwner.key)
  let auth := AuthorityAccountHeader.read (m.data currentOwner.key)
  Except.ensure (auth.wallet = walletPda.key) .invalidAccountData
  Except.ensure (auth.role = rankOwner) ↑AuthError.permissionDenied
  Except.ensure (auth.policyLen = 0) ↑AuthError.permissionDenied
  let m ← authenticate dep fr accounts m currentOwner auth.authorityType (data.drop args.dataPayloadLen)
    (data.take args.dataPayloadLen ++ payer.key.bytes ++ refundDest.key.bytes) 3
  let new := dep.findProgramAddress [Seeds.authority, walletPda.key.bytes, args.key.idSeed]
  Except.ensure (newOwner.key = new.1) .invalidSeeds
  checkZeroData m newOwner .accountAlreadyInitialized
  let space ← Except.ofOption ↑AuthError.invalidAuthenticationKind (authorityFixedLen args.authType)
  let m ← initializePdaAccount dep m payer newOwner systemProgram space (rent.minimumBalance space)
  Except.ensure (AuthorityAccountHeader.size ≤ (m.data newOwner.key).length) .invalidAccountData
  let header := newAuthorityHeader args.authType rankOwner new.2 0 walletPda.key
  let material ← storedKeyMaterial dep args.authType args.key.fullAuthData
  let m ← m.writeData dep.toRuntime newOwner
    ((AuthorityAccountHeader.write (m.data newOwner.key) header).splice AuthorityAccountHeader.size material)
  let m ← drainInto dep m currentOwner refundDest
  zeroData dep m currentOwner

end LazorKit
