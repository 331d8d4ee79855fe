import LazorKit.Model.Authenticate
import LazorKit.Model.Policy

/-! # Execute and deferred execution

Execute runs compact instructions with the vault as signer, approved by an authority or a session.
Authorize stores the hashes of such a batch for a later ExecuteDeferred, which anyone may send;
ReclaimDeferred returns the rent of one that was never used.
-/

namespace LazorKit

open Solana

/-- The account references handed to an inner instruction. An outer signature is forwarded only on
request, never for the payer, and under a session only for the session's own key; the vault always
signs. -/
def innerMeta (payerKey vaultKey : Pubkey) (sessionKey : Option Pubkey) (acc : AccountInfo × Bool) :
    AccountMeta where
  pubkey := acc.1.key
  isSigner := (acc.2 && acc.1.isSigner && (acc.1.key ≠ payerKey : Bool) &&
    (match sessionKey with
      | none => true
      | some key => (acc.1.key = key : Bool))) || (acc.1.key = vaultKey : Bool)
  isWritable := acc.1.isWritable

/-- The inner instruction a compact one stands for. -/
def innerInstruction (payerKey vaultKey : Pubkey) (sessionKey : Option Pubkey)
    (ix : DecompressedInstruction) : Instruction where
  programId := ix.programId
  accounts := ix.accounts.map (innerMeta payerKey vaultKey sessionKey)
  data := ix.data

/-- Decompress one compact instruction and issue it. -/
def executeInner (dep : Deployment) (fr : Frame) (accounts : List AccountInfo)
    (payerKey vaultKey : Pubkey) (sessionKey : Option Pubkey) (m : Machine Approval)
    (ix : CompactInstruction) : Except ProgramError (Machine Approval) := do
  let decompressed ← ix.decompress accounts
  Except.ensure (decompressed.programId ≠ dep.programId) ↑AuthError.selfReentrancyNotAllowed
  m.invoke dep.toRuntime fr (innerInstruction payerKey vaultKey sessionKey decompressed)

/-- The authority branch of Execute. -/
def authenticateExecuteAuthority (dep : Deployment) (fr : Frame) (accounts : List AccountInfo)
    (data : Bytes) (m : Machine Approval) (walletPda authorityPda : AccountInfo)
    (ixs : List CompactInstruction) (compactLen : ℕ) : Except ProgramError (Machine Approval) := do
  AuthorityAccountHeader.check (m.data authorityPda.key)
  let header := AuthorityAccountHeader.read (m.data authorityPda.key)
  Except.ensure (header.wallet = walletPda.key) .invalidAccountData
  match header.authorityType with
  | 0 => authenticate dep fr accounts m authorityPda 0 [] [] 4
  | 1 => do
    let accountsHash ← computeAccountsHash dep.toRuntime accounts ixs
    authenticate dep fr accounts m authorityPda 1 (data.drop compactLen)
      (data.take compactLen ++ accountsHash.bytes) 4
  | _ => .error ↑AuthError.invalidAuthenticationKind

/-- The session branch of Execute; returns the session key. -/
def authenticateExecuteSession (fr : Frame) (accounts : List AccountInfo) (m : Machine Approval)
    (walletPda sessionPda : AccountInfo) : Except ProgramError Pubkey := do
  Except.ensure (fr.stackHeight ≤ 1) ↑AuthError.permissionDenied
  Except.ensure (sessionHeaderSize ≤ (m.data sessionPda.key).length) .invalidAccountData
  let session := SessionAccount.read (m.data sessionPda.key)
  Except.ensure (session.wallet = walletPda.key) .invalidAccountData
  Except.ensure (fr.slot.toNat ≤ session.expiresAt) ↑AuthError.sessionExpired
  Except.ensure (∃ acc ∈ accounts, acc.isSigner = true ∧ acc.key = session.sessionKey)
    .missingRequiredSignature
  .ok session.sessionKey

/-- Authenticate by the account's own discriminator; the second component is the session key. -/
def authenticateExecute (dep : Deployment) (fr : Frame) (accounts : List AccountInfo) (data : Bytes)
    (m : Machine Approval) (walletPda authorityPda : AccountInfo) (ixs : List CompactInstruction)
    (compactLen : ℕ) : Except ProgramError (Machine Approval × Option Pubkey) :=
  let discriminator := (m.data authorityPda.key).byte 0
  if discriminator = AccountDiscriminator.authority.toByte then do
    let m ← authenticateExecuteAuthority dep fr accounts data m walletPda authorityPda ixs compactLen
    .ok (m, none)
  else if discriminator = AccountDiscriminator.session.toByte then do
    let sessionKey ← authenticateExecuteSession fr accounts m walletPda authorityPda
    .ok (m.approve (.session authorityPda.key sessionKey), some sessionKey)
  else .error .invalidAccountData

/-- The policy of an authority or a session account, if it carries one. -/
def executePolicy (accountData : Bytes) : Option PolicyLocation :=
  (PolicyLocation.of accountData).filter (·.isPresent accountData)

/-- What a policy-bound Execute remembers from before its inner instructions. -/
structure BeforeCpis where
  vaultLamports : ℕ
  vaultOwner : Pubkey
  vaultDataLen : ℕ
  tokenAccounts : List VaultTokenSnapshot

def takeBeforeCpis (ledger : Ledger) (accounts : List AccountInfo) (vaultKey : Pubkey) : BeforeCpis where
  vaultLamports := (ledger vaultKey).lamports
  vaultOwner := (ledger vaultKey).owner
  vaultDataLen := (ledger vaultKey).data.length
  tokenAccounts := snapshotVaultTokenAccounts ledger accounts vaultKey

/-- The loop state: the machine, the gross SOL outflow so far and the vault's balance after the last
inner instruction. -/
structure CpiProgress where
  machine : Machine Approval
  grossOut : ℕ
  prevVaultLamports : ℕ

/-- Account for one inner instruction's effect on the vault's balance. -/
def trackOutflow (vaultKey : Pubkey) (progress : CpiProgress) (m : Machine Approval) : CpiProgress where
  machine := m
  grossOut :=
    if m.lamports vaultKey < progress.prevVaultLamports then
      saturatingAdd progress.grossOut (progress.prevVaultLamports - m.lamports vaultKey)
    else progress.grossOut
  prevVaultLamports := m.lamports vaultKey

/-- One round of Execute's loop. -/
def executeTracked (dep : Deployment) (fr : Frame) (accounts : List AccountInfo)
    (payerKey vaultKey : Pubkey) (sessionKey : Option Pubkey) (progress : CpiProgress)
    (ix : CompactInstruction) : Except ProgramError CpiProgress := do
  let m ← executeInner dep fr accounts payerKey vaultKey sessionKey progress.machine ix
  .ok (trackOutflow vaultKey progress m)

/-- Everything a policy-bound Execute checks after its inner instructions; the result is the bytes
of the policy account. -/
def postCpiPhase (before : BeforeCpis) (after : Ledger) (accounts : List AccountInfo) (vaultKey : Pubkey)
    (policyData : Bytes) (loc : PolicyLocation) (grossOut currentSlot : ℕ) :
    Except ProgramError Bytes := do
  Except.ensure ((after vaultKey).owner = before.vaultOwner) ↑AuthError.sessionVaultOwnerChanged
  Except.ensure ((after vaultKey).data.length = before.vaultDataLen) ↑AuthError.sessionVaultDataLenChanged
  verifyVaultTokenAccounts after before.tokenAccounts accounts vaultKey
  let outcome := evaluatePostActions policyData loc before.vaultLamports (after vaultKey).lamports
    grossOut (mintFlows after before.tokenAccounts) currentSlot
  outcome.1
  .ok outcome.2

def processExecute (dep : Deployment) (fr : Frame) (accounts : List AccountInfo) (data : Bytes)
    (m : Machine Approval) : Except ProgramError (Machine Approval) := do
  Except.ensure (fr.stackHeight ≤ 1) ↑AuthError.permissionDenied
  let payer ← accountAt accounts 0
  Except.ensure (payer.isSigner = true) .missingRequiredSignature
  let walletPda ← accountAt accounts 1
  let authorityPda ← accountAt accounts 2
  let vaultPda ← accountAt accounts 3
  Except.ensure (m.owner walletPda.key = dep.programId ∧ m.owner authorityPda.key = dep.programId)
    .illegalOwner
  WalletAccount.check (m.data walletPda.key)
  Except.ensure (authorityPda.isWritable = true) .invalidAccountData
  Except.ensure (m.data authorityPda.key ≠ []) .invalidAccountData
  let parsed ← parseCompactInstructionsRefWithLen data
  let policy := executePolicy (m.data authorityPda.key)
  let currentSlot := fr.slot.toNat
  let approved ← authenticateExecute dep fr accounts data m walletPda authorityPda parsed.1 parsed.2
  let m := approved.1
  (match policy with
    | some loc => evaluatePreActions (m.data authorityPda.key) loc parsed.1 accounts currentSlot
    | none => .ok ())
  Except.ensure (vaultPda.key = (dep.findProgramAddress [Seeds.vault, walletPda.key.bytes]).1) .invalidSeeds
  let before := takeBeforeCpis m.ledger accounts vaultPda.key
  let progress ← parsed.1.foldlM (executeTracked dep fr accounts payer.key vaultPda.key approved.2)
    ⟨m, 0, before.vaultLamports⟩
  let m := progress.machine
  match policy with
  | some loc => do
    let bytes ← postCpiPhase before m.ledger accounts vaultPda.key (m.data authorityPda.key) loc
      progress.grossOut currentSlot
    m.writeData dep.toRuntime authorityPda bytes
  | none => .ok m

def minExpirySlots : ℕ := 10
def maxExpirySlots : ℕ := 9000

def processAuthorize (dep : Deployment) (fr : Frame) (accounts : List AccountInfo) (data : Bytes)
    (m : Machine Approval) : Except ProgramError (Machine Approval) := do
  let payer ← accountAt accounts 0
  let walletPda ← accountAt accounts 1
  let authorityPda ← accountAt accounts 2
  let deferredPda ← accountAt accounts 3
  let systemProgram ← accountAt accounts 4
  let _ ← accountAt accounts 5
  Except.ensure (payer.isSigner = true) .missingRequiredSignature
  Except.ensure (m.owner walletPda.key = dep.programId ∧ m.owner authorityPda.key = dep.programId)
    .illegalOwner
  WalletAccount.check (m.data walletPda.key)
  Except.ensure (authorityPda.isWritable = true) .invalidAccountData
  Except.ensure (66 ≤ data.length) .invalidInstructionData
  let instructionsHash := readKey data 0
  let accountsHash := readKey data 32
  let expiryOffset := (data.slice 64 2).toNatLE
  Except.ensure (minExpirySlots ≤ expiryOffset ∧ expiryOffset ≤ maxExpirySlots)
    ↑AuthError.invalidExpiryWindow
  AuthorityAccountHeader.check (m.data authorityPda.key)
  let header := AuthorityAccountHeader.read (m.data authorityPda.key)
  Except.ensure (header.wallet = walletPda.key) .invalidAccountData
  Except.ensure (header.authorityType = 1) ↑AuthError.invalidAuthenticationKind
  Except.ensure (header.role ≤ 1) ↑AuthError.permissionDenied
  Except.ensure (header.policyLen = 0) ↑AuthError.permissionDenied
  let m ← authenticate dep fr accounts m authorityPda 1 (data.drop 66)
    (instructionsHash.bytes ++ accountsHash.bytes ++ Bytes.ofNatLE 2 expiryOffset) 6
  let counterForSeed := (AuthorityAccountHeader.read (m.data authorityPda.key)).counter
  let expiresAt := fr.slot.toNat + expiryOffset
  Except.ensure (expiresAt < 2 ^ 64) .arithmeticOverflow
  let deferred := dep.findProgramAddress
    [Seeds.deferred, walletPda.key.bytes, authorityPda.key.bytes, Bytes.ofNatLE 4 counterForSeed]
  Except.ensure (deferredPda.key = deferred.1) .invalidSeeds
  let m ← initializePdaAccount dep m payer deferredPda systemProgram DeferredExecAccount.size
    (dep.rent.minimumBalance DeferredExecAccount.size)
  let account : DeferredExecAccount :=
    { discriminator := AccountDiscriminator.deferredExec.toByte, version := currentAccountVersion,
      bump := deferred.2, padding := .fill 0, instructionsHash := instructionsHash,
      accountsHash := accountsHash, wallet := walletPda.key, authority := authorityPda.key,
      payer := payer.key, expiresAt := expiresAt }
  m.writeData dep.toRuntime deferredPda ((m.data deferredPda.key).splice 0 account.toBytes)

def processExecuteDeferred (dep : Deployment) (fr : Frame) (accounts : List AccountInfo) (data : Bytes)
    (m : Machine Approval) : Except ProgramError (Machine Approval) := do
  Except.ensure (fr.stackHeight ≤ 1) ↑AuthError.permissionDenied
  let payer ← accountAt accounts 0
  let walletPda ← accountAt accounts 1
  let vaultPda ← accountAt accounts 2
  let deferredPda ← accountAt accounts 3
  let refundDest ← accountAt accounts 4
  Except.ensure (payer.isSigner = true) .missingRequiredSignature
  Except.ensure (m.owner walletPda.key = dep.programId ∧ m.owner deferredPda.key = dep.programId)
    .illegalOwner
  WalletAccount.check (m.data walletPda.key)
  DeferredExecAccount.check (m.data deferredPda.key)
  let deferred := DeferredExecAccount.read (m.data deferredPda.key)
  Except.ensure (deferred.wallet = walletPda.key) .invalidAccountData
  Except.ensure (deferred.payer = refundDest.key) .invalidAccountData
  Except.ensure (fr.slot.toNat ≤ deferred.expiresAt) ↑AuthError.deferredAuthorizationExpired
  let parsed ← parseCompactInstructionsRefWithLen data
  Except.ensure (dep.sha256 (data.take parsed.2) = deferred.instructionsHash) ↑AuthError.deferredHashMismatch
  let accountsHash ← computeAccountsHash dep.toRuntime accounts parsed.1
  Except.ensure (accountsHash = deferred.accountsHash) ↑AuthError.deferredHashMismatch
  Except.ensure (vaultPda.key = (dep.findProgramAddress [Seeds.vault, walletPda.key.bytes]).1) .invalidSeeds
  let m ← zeroData dep m deferredPda
  let m ← parsed.1.foldlM (executeInner dep fr accounts payer.key vaultPda.key none) m
  drainInto dep m deferredPda refundDest

/-- v1's DeferredExec discriminator. -/
def v1DiscDeferred : UInt8 := 4

/-- The payer and expiry of a deferred account, of either protocol version. -/
def readDeferredTerms (data : Bytes) : Except ProgramError (Pubkey × ℕ) :=
  if data.head? = some v1DiscDeferred then do
    Except.ensure (DeferredExecAccount.size ≤ data.length) .invalidAccountData
    .ok (readKey data 136, (data.slice 168 8).toNatLE)
  else do
    DeferredExecAccount.check data
    let deferred := DeferredExecAccount.read data
    .ok (deferred.payer, deferred.expiresAt)

def processReclaimDeferred (dep : Deployment) (fr : Frame) (accounts : List AccountInfo)
    (m : Machine Approval) : Except ProgramError (Machine Approval) := do
  let payer ← accountAt accounts 0
  let deferredPda ← accountAt accounts 1
  let refundDest ← accountAt accounts 2
  Except.ensure (payer.isSigner = true) .missingRequiredSignature
  Except.ensure (m.owner deferredPda.key = dep.programId) .illegalOwner
  let terms ← readDeferredTerms (m.data deferredPda.key)
  Except.ensure (terms.1 = payer.key) ↑AuthError.unauthorizedReclaim
  Except.ensure (refundDest.key = terms.1) ↑AuthError.unauthorizedReclaim
  Except.ensure (terms.2 < fr.slot.toNat) ↑AuthError.deferredAuthorizationNotExpired
  Except.ensure (refundDest.key ≠ deferredPda.key) .invalidAccountData
  let m ← zeroData dep m deferredPda
  drainInto dep m deferredPda refundDest

end LazorKit
