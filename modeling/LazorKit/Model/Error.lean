import LazorKit.Machine.State

/-! # Error codes of the program

The two custom error families with their numeric codes, as they reach the caller.
-/

namespace LazorKit

open Solana

/-- Authentication, session, deferred-execution and policy errors. -/
inductive AuthError where
  | invalidAuthorityPayload
  | permissionDenied
  | invalidInstruction
  | invalidPubkey
  | invalidMessageHash
  | signatureReused
  | invalidSignatureAge
  | invalidSessionDuration
  | sessionExpired
  | authorityDoesNotSupportSession
  | invalidAuthenticationKind
  | invalidMessage
  | selfReentrancyNotAllowed
  | deferredAuthorizationExpired
  | deferredHashMismatch
  | invalidExpiryWindow
  | unauthorizedReclaim
  | deferredAuthorizationNotExpired
  | invalidSessionAccount
  | actionBufferInvalid
  | actionProgramNotWhitelisted
  | actionProgramBlacklisted
  | actionSolMaxPerTxExceeded
  | actionSolLimitExceeded
  | actionSolRecurringLimitExceeded
  | actionTokenLimitExceeded
  | actionTokenRecurringLimitExceeded
  | actionWhitelistBlacklistConflict
  | actionTokenMaxPerTxExceeded
  | sessionVaultOwnerChanged
  | sessionVaultDataLenChanged
  | sessionTokenAuthorityChanged
  | delegateRequiresPolicy
  | policyBearingAuthorityCannotDelegate
  | policyRankMismatch
  | sessionNotExpired
  | actionUnlistedSolOutflow
  | actionUnlistedTokenOutflow
deriving DecidableEq, Repr

/-- The codes are consecutive from 3001 in declaration order. -/
def AuthError.code (e : AuthError) : ℕ := 3001 + e.ctorIdx

instance : Coe AuthError ProgramError := ⟨fun e => .custom e.code⟩

/-- Protocol configuration and fee-layer errors. -/
inductive ProtocolError where
  | protocolAlreadyInitialized
  | invalidProtocolAdmin
  | invalidIntegratorRecord
  | insufficientFeeBalance
  | integratorAlreadyRegistered
  | invalidTreasury
  | feeAccountsRequired
  | protocolNotInitialized
  | invalidTreasuryShard
  | invalidFeeRecord
  | accountVersionMismatch
  | feeExceedsMaximum
  | unauthorizedInitializer
  | noPendingAdmin
  | wrongProgramAddress
  | retiredDeployment
deriving DecidableEq, Repr

/-- The codes 4003 and 4012 are retired, so the numbering has two gaps. -/
def ProtocolError.code : ProtocolError → ℕ
  | .protocolAlreadyInitialized => 4001
  | .invalidProtocolAdmin => 4002
  | .invalidIntegratorRecord => 4004
  | .insufficientFeeBalance => 4005
  | .integratorAlreadyRegistered => 4006
  | .invalidTreasury => 4007
  | .feeAccountsRequired => 4008
  | .protocolNotInitialized => 4009
  | .invalidTreasuryShard => 4010
  | .invalidFeeRecord => 4011
  | .accountVersionMismatch => 4013
  | .feeExceedsMaximum => 4014
  | .unauthorizedInitializer => 4015
  | .noPendingAdmin => 4016
  | .wrongProgramAddress => 4017
  | .retiredDeployment => 4018

instance : Coe ProtocolError ProgramError := ⟨fun e => .custom e.code⟩

example : AuthError.actionUnlistedTokenOutflow.code = 3038 := rfl

end LazorKit
