import LazorKit.Model.Authenticate
import LazorKit.Model.Action

/-! # Sessions

CreateSession, RevokeSession and CloseExpiredSession. A session names a key, an expiry slot and
optionally an action buffer. Its Owner or Admin may revoke it at any time; once it has expired
anyone may close it and keep the rent.
-/

namespace LazorKit

open Solana

/-- About 30 days. -/
def maxSessionSlots : ℕ := 6480000

def maxActionsBufferSize : ℕ := 2048

/-- Arguments of CreateSession; `argsEndOffset` is where the auth payload begins. -/
structure ParsedCreateSessionArgs where
  sessionKey : Pubkey
  expiresAt : ℕ
  actionsBytes : Bytes
  argsEndOffset : ℕ

/-- `session_key(32) expires_at(8) [actions_len(2) actions]`. -/
def ParsedCreateSessionArgs.fromBytes (data : Bytes) : Except ProgramError ParsedCreateSessionArgs := do
  Except.ensure (40 ≤ data.length) .invalidInstructionData
  let sessionKey := readKey data 0
  let expiresAt := (data.slice 32 8).toNatLE
  if 42 ≤ data.length then do
    let actionsLen := (data.slice 40 2).toNatLE
    Except.ensure (actionsLen ≤ maxActionsBufferSize) .invalidInstructionData
    if 0 < actionsLen then do
      Except.ensure (42 + actionsLen ≤ data.length) .invalidInstructionData
      validateActionsBuffer (data.slice 42 actionsLen)
      .ok ⟨sessionKey, expiresAt, data.slice 42 actionsLen, 42 + actionsLen⟩
    else .ok ⟨sessionKey, expiresAt, [], 42⟩
  else .ok ⟨sessionKey, expiresAt, [], 40⟩

def processCreateSession (dep : Deployment) (fr : Frame) (accounts : List AccountInfo) (data : Bytes)
    (m : Machine Approval) : Except ProgramError (Machine Approval) := do
  let args ← ParsedCreateSessionArgs.fromBytes data
  let payer ← accountAt accounts 0
  Except.ensure (payer.isSigner = true) .missingRequiredSignature
  let walletPda ← accountAt accounts 1
  let authorizerPda ← accountAt accounts 2
  let sessionPda ← accountAt accounts 3
  let systemProgram ← accountAt accounts 4
  let rentSysvar ← accountAt accounts 5
  let rent ← Rent.fromAccountInfo dep.toRuntime rentSysvar
  Except.ensure (systemProgram.key = Solana.systemProgram) .incorrectProgramId
  Except.ensure (m.owner walletPda.key = dep.programId ∧ m.owner authorizerPda.key = dep.programId)
    .illegalOwner
  WalletAccount.check (m.data walletPda.key)
  AuthorityAccountHeader.check (m.data authorizerPda.key)
  let authHeader := AuthorityAccountHeader.read (m.data authorizerPda.key)
  Except.ensure (authHeader.wallet = walletPda.key) .invalidAccountData
  Except.ensure (authHeader.role = 0 ∨ authHeader.role = 1) ↑AuthError.permissionDenied
  Except.ensure (authHeader.policyLen = 0) ↑AuthError.permissionDenied
  Except.ensure (fr.slot.toNat < args.expiresAt) ↑AuthError.invalidSessionDuration
  Except.ensure (args.expiresAt ≤ saturatingAdd fr.slot.toNat maxSessionSlots)
    ↑AuthError.invalidSessionDuration
  let m ← authenticate dep fr accounts m authorizerPda authHeader.authorityType
    (data.drop args.argsEndOffset) (data.take args.argsEndOffset ++ payer.key.bytes) 5
  let session := dep.findProgramAddress [Seeds.session, walletPda.key.bytes, args.sessionKey.bytes]
  Except.ensure (sessionPda.key = session.1) .invalidSeeds
  checkZeroData m sessionPda .accountAlreadyInitialized
  let space := sessionHeaderSize + args.actionsBytes.length
  let m ← initializePdaAccount dep m payer sessionPda systemProgram space (rent.minimumBalance space)
  let sessionAccount : SessionAccount :=
    { discriminator := AccountDiscriminator.session.toByte, bump := session.2,
      version := currentAccountVersion, padding := .fill 0, wallet := walletPda.key,
      sessionKey := args.sessionKey, expiresAt := args.expiresAt }
  m.writeData dep.toRuntime sessionPda
    (((m.data sessionPda.key).splice 0 sessionAccount.toBytes).splice sessionHeaderSize args.actionsBytes)

def processRevokeSession (dep : Deployment) (fr : Frame) (accounts : List AccountInfo) (data : Bytes)
    (m : Machine Approval) : Except ProgramError (Machine Approval) := do
  let payer ← accountAt accounts 0
  let walletPda ← accountAt accounts 1
  let adminAuthPda ← accountAt accounts 2
  let sessionPda ← accountAt accounts 3
  let refundDest ← accountAt accounts 4
  Except.ensure (payer.isSigner = true) .missingRequiredSignature
  Except.ensure (m.owner walletPda.key = dep.programId ∧ m.owner adminAuthPda.key = dep.programId ∧
    m.owner sessionPda.key = dep.programId) .illegalOwner
  WalletAccount.check (m.data walletPda.key)
  Except.ensure (adminAuthPda.isWritable = true) .invalidAccountData
  AuthorityAccountHeader.check (m.data adminAuthPda.key)
  let adminHeader := AuthorityAccountHeader.read (m.data adminAuthPda.key)
  Except.ensure (adminHeader.wallet = walletPda.key) .invalidAccountData
  Except.ensure (adminHeader.role ≤ 1) ↑AuthError.permissionDenied
  let m ← authenticate dep fr accounts m adminAuthPda adminHeader.authorityType data
    (sessionPda.key.bytes ++ refundDest.key.bytes) 9
  (SessionAccount.check (m.data sessionPda.key)).mapError fun _ => ↑AuthError.invalidSessionAccount
  let session := SessionAccount.read (m.data sessionPda.key)
  Except.ensure (session.wallet = walletPda.key) .invalidAccountData
  Except.ensure (sessionPda.key ≠ refundDest.key) .invalidAccountData
  let m ← zeroData dep m sessionPda
  drainInto dep m sessionPda refundDest

/-- v1's Session discriminator. -/
def v1DiscSession : UInt8 := 3

def processCloseExpiredSession (dep : Deployment) (fr : Frame) (accounts : List AccountInfo)
    (m : Machine Approval) : Except ProgramError (Machine Approval) := do
  let caller ← accountAt accounts 0
  let sessionPda ← accountAt accounts 1
  let refundDest ← accountAt accounts 2
  Except.ensure (caller.isSigner = true) .missingRequiredSignature
  Except.ensure (refundDest.key ≠ sessionPda.key) .invalidAccountData
  Except.ensure (m.owner sessionPda.key = dep.programId) .illegalOwner
  let sessionData := m.data sessionPda.key
  Except.ensure (sessionHeaderSize ≤ sessionData.length) .invalidAccountData
  Except.ensure (sessionData.byte 0 = v1DiscSession ∨
    sessionData.byte 0 = AccountDiscriminator.session.toByte) .invalidAccountData
  let expiresAt := (sessionData.slice 72 8).toNatLE
  Except.ensure (expiresAt < fr.slot.toNat) ↑AuthError.sessionNotExpired
  let m ← zeroData dep m sessionPda
  drainInto dep m sessionPda refundDest

end LazorKit
