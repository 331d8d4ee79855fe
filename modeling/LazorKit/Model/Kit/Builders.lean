import LazorKit.Model.Kit.Secp256r1

/-! # The kit's instruction builders

Each builder produces an instruction in the format the program reads. The signed part of the data is built
twice, once inside the instruction and once, without the discriminator, for the challenge.
-/

namespace LazorKit.Kit

open Solana

def discAddAuthority : UInt8 := 1
def discTransferOwnership : UInt8 := 3
def discCreateSession : UInt8 := 5

def authTypeEd25519 : ℤ := 0
def authTypeSecp256r1 : ℤ := 1

def roleOwner : ℤ := 0
def roleSpender : ℤ := 2

def readonlyMeta (address : Pubkey) : AccountMeta := ⟨address, false, false⟩
def writableMeta (address : Pubkey) : AccountMeta := ⟨address, false, true⟩
def signerMeta (address : Pubkey) : AccountMeta := ⟨address, true, false⟩

/-- The last account of an administrative instruction: the key that signs, or the instructions sysvar for
an auth payload. -/
def authorizerMetas (authorizerSigner : Option Pubkey) (authPayload : Option Bytes) : List AccountMeta :=
  match authorizerSigner, authPayload with
  | some signer, _ => [signerMeta signer]
  | none, some _ => [readonlyMeta instructionsSysvar]
  | none, none => []

/-- A passkey's public key and, when there is one, its rpId behind its length. -/
def passkeyParts (newType : ℤ) (secp256r1Pubkey : Option Bytes) (rpId : Option String) : List Bytes :=
  match secp256r1Pubkey with
  | none => []
  | some pubkey =>
    if newType = authTypeSecp256r1 then
      match rpId with
      | none => [pubkey]
      | some rpId => if rpId = "" then [pubkey] else [pubkey, [byteOf (utf8 rpId).length], utf8 rpId]
    else []

structure AddAuthorityParams where
  payer : Pubkey
  walletPda : Pubkey
  adminAuthorityPda : Pubkey
  newAuthorityPda : Pubkey
  newType : ℤ
  newRole : ℤ
  credentialOrPubkey : Bytes
  secp256r1Pubkey : Option Bytes
  rpId : Option String
  policy : Option Bytes
  authPayload : Option Bytes
  authorizerSigner : Option Pubkey
  programId : Pubkey

def createAddAuthorityIx (params : AddAuthorityParams) : Instruction :=
  let policy := params.policy.getD []
  { programId := params.programId
    accounts := [
      signerMeta params.payer,
      writableMeta params.walletPda,
      writableMeta params.adminAuthorityPda,
      writableMeta params.newAuthorityPda,
      readonlyMeta systemProgram,
      readonlyMeta rentSysvar] ++ authorizerMetas params.authorizerSigner params.authPayload
    data := concatBytes ([
      [discAddAuthority],
      [byteOf params.newType, byteOf params.newRole],
      List.replicate 6 0,
      params.credentialOrPubkey] ++
      passkeyParts params.newType params.secp256r1Pubkey params.rpId ++
      [u16LE policy.length, policy] ++ params.authPayload.toList) }

/-- The signed part of the data. It has to stay byte-identical with what `createAddAuthorityIx` writes. -/
def buildDataPayloadForAdd (newType newRole : ℤ) (credentialOrPubkey : Bytes) (secp256r1Pubkey : Option Bytes)
    (rpId : Option String) (policy : Option Bytes) : Bytes :=
  let p := policy.getD []
  concatBytes ([
    [byteOf newType, byteOf newRole],
    List.replicate 6 0,
    credentialOrPubkey] ++ passkeyParts newType secp256r1Pubkey rpId ++ [u16LE p.length, p])

structure TransferOwnershipParams where
  payer : Pubkey
  walletPda : Pubkey
  currentOwnerAuthorityPda : Pubkey
  newOwnerAuthorityPda : Pubkey
  refundDestination : Pubkey
  newType : ℤ
  credentialOrPubkey : Bytes
  secp256r1Pubkey : Option Bytes
  rpId : Option String
  authPayload : Option Bytes
  authorizerSigner : Option Pubkey
  programId : Pubkey

def createTransferOwnershipIx (params : TransferOwnershipParams) : Instruction where
  programId := params.programId
  accounts := [
    signerMeta params.payer,
    readonlyMeta params.walletPda,
    writableMeta params.currentOwnerAuthorityPda,
    writableMeta params.newOwnerAuthorityPda,
    writableMeta params.refundDestination,
    readonlyMeta systemProgram,
    readonlyMeta rentSysvar] ++ authorizerMetas params.authorizerSigner params.authPayload
  data := concatBytes ([
    [discTransferOwnership],
    [byteOf params.newType],
    params.credentialOrPubkey] ++
    passkeyParts params.newType params.secp256r1Pubkey params.rpId ++ params.authPayload.toList)

def buildDataPayloadForTransfer (newType : ℤ) (credentialOrPubkey : Bytes) (secp256r1Pubkey : Option Bytes)
    (rpId : Option String) : Bytes :=
  concatBytes ([[byteOf newType], credentialOrPubkey] ++ passkeyParts newType secp256r1Pubkey rpId)

structure CreateSessionParams where
  payer : Pubkey
  walletPda : Pubkey
  adminAuthorityPda : Pubkey
  sessionPda : Pubkey
  sessionKey : Bytes
  expiresAt : ℤ
  actionsBuffer : Option Bytes
  authPayload : Option Bytes
  authorizerSigner : Option Pubkey
  programId : Pubkey

def createCreateSessionIx (params : CreateSessionParams) : Instruction :=
  let actionsBuffer := params.actionsBuffer.getD []
  { programId := params.programId
    accounts := [
      signerMeta params.payer,
      readonlyMeta params.walletPda,
      writableMeta params.adminAuthorityPda,
      writableMeta params.sessionPda,
      readonlyMeta systemProgram,
      readonlyMeta rentSysvar] ++ authorizerMetas params.authorizerSigner params.authPayload
    data := concatBytes ([
      [discCreateSession],
      params.sessionKey,
      i64LE params.expiresAt,
      u16LE actionsBuffer.length] ++
      (if 0 < actionsBuffer.length then [actionsBuffer] else []) ++ params.authPayload.toList) }

/-- The payload is laid out in one buffer of its final size. -/
def buildDataPayloadForSession (sessionKey : Bytes) (expiresAt : ℤ) (actionsBuffer : Option Bytes) : Bytes :=
  let actionsLen := (actionsBuffer.getD []).length
  let buf : Bytes := List.replicate (42 + actionsLen) 0
  let buf := buf.splice 0 sessionKey
  let buf := buf.splice 32 (i64LE expiresAt)
  let buf := buf.splice 40 [byteOf (actionsLen % 256 : ℕ), byteOf (actionsLen / 256 % 256 : ℕ)]
  match actionsBuffer with
  | some actions => if 0 < actionsLen then buf.splice 42 actions else buf
  | none => buf

end LazorKit.Kit
