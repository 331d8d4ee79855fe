import LazorKit.Model.Kit.Client
import LazorKit.Model.Kit.Layout

/-! # The kit's Execute and deferred execution

Execute with a passkey, and its two-transaction form: Authorize signs the hashes of a batch, ExecuteDeferred
replays it. Every fee-eligible instruction carries the four protocol-fee accounts behind its own. What the
node answers to the fee reads is an argument, and so is the random number that picks the treasury shard.
-/

namespace LazorKit.Kit

open Solana

def discExecute : UInt8 := 4
def discAuthorize : UInt8 := 6
def discExecuteDeferred : UInt8 := 7
def discRegisterPayer : UInt8 := 12

def sysvarIxIndexExecute : ℕ := 4
def sysvarIxIndexAuthorize : ℕ := 6

def signerWritableMeta (address : Pubkey) : AccountMeta := ⟨address, true, true⟩

/-- A role as the two flags of a built instruction. -/
def RoleMeta.toMeta (acc : RoleMeta) : AccountMeta := ⟨acc.address, acc.role.isSigner, acc.role.isWritable⟩

structure ProtocolFeeAccounts where
  protocolConfigPda : Pubkey
  feeRecordPda : Pubkey
  treasuryShardPda : Pubkey

/-- The four trailing accounts. -/
def appendProtocolFeeAccounts (accounts : List AccountMeta) (fee : ProtocolFeeAccounts) : List AccountMeta :=
  accounts ++ [
    readonlyMeta fee.protocolConfigPda,
    writableMeta fee.feeRecordPda,
    writableMeta fee.treasuryShardPda,
    readonlyMeta systemProgram]

def withProtocolFee (accounts : List AccountMeta) : Option ProtocolFeeAccounts → List AccountMeta
  | some fee => appendProtocolFeeAccounts accounts fee
  | none => accounts

def createRegisterPayerIx (payer feeRecordPda programId : Pubkey) : Instruction where
  programId := programId
  accounts := [
    signerWritableMeta payer,
    writableMeta feeRecordPda,
    readonlyMeta systemProgram,
    readonlyMeta rentSysvar]
  data := [discRegisterPayer]

/-- What the client knows and reads for the fee: whether it attaches one at all, the config and the fee
record as the node has them, a random number, and the payers it has registered before. -/
structure FeeReads where
  protocolFees : Bool
  configAccount : Except Error (Option Bytes)
  random : ℕ
  recordAccount : Except Error (Option Bytes)
  registeredPayers : List Pubkey

/-- Whether the fee is on, and the number of treasury shards. -/
structure ProtocolConfigView where
  enabled : Bool
  numShards : ℕ

def getProtocolConfig (fees : FeeReads) : Except Error (Option ProtocolConfigView) := do
  let info ← fees.configAccount
  match info with
  | none => .ok none
  | some data =>
    if data.length < 88 ∨ data.byte 0 ≠ AccountDiscriminator.protocolConfig.toByte then .ok none
    else .ok (some ⟨data.byte 3 ≠ 0, (data.byte 4).toNat⟩)

section Client

variable (rt : Runtime) (reads : ChallengeReads) (fees : FeeReads)

def findVault (walletPda : Pubkey) : Pubkey := (rt.findProgramAddress [Seeds.vault, walletPda.bytes]).1

def findDeferredExec (walletPda authorityPda : Pubkey) (counter : ℕ) : Pubkey :=
  (rt.findProgramAddress [Seeds.deferred, walletPda.bytes, authorityPda.bytes, Bytes.ofNatLE 4 counter]).1

/-- The fee accounts of a payer; none only for a client made without fees. -/
def resolveProtocolFee (payer : Pubkey) : Except Error (Option ProtocolFeeAccounts) :=
  if fees.protocolFees = false then .ok none
  else do
    let config ← getProtocolConfig fees
    let shardId := match config with
      | some config =>
        if config.enabled = true ∧ 0 < config.numShards then fees.random % 2 ^ 32 % config.numShards else 0
      | none => 0
    .ok (some {
      protocolConfigPda := (rt.findProgramAddress [Seeds.protocolConfig]).1
      feeRecordPda := (rt.findProgramAddress [Seeds.feeRecord, payer.bytes]).1
      treasuryShardPda := (rt.findProgramAddress [Seeds.treasuryShard, [byteOf shardId]]).1 })

/-- The fee accounts, and the payer's registration if a live fee needs one. -/
def resolveProtocolFeeWithRegister (payer : Pubkey) :
    Except Error (Option (ProtocolFeeAccounts × Option Instruction)) := do
  let accounts ← resolveProtocolFee rt fees payer
  match accounts with
  | none => .ok none
  | some accounts => do
    let config ← getProtocolConfig fees
    if (config.map (·.enabled)).getD false = false then .ok (some (accounts, none))
    else if payer ∈ fees.registeredPayers then .ok (some (accounts, none))
    else do
      let info ← fees.recordAccount
      let record := info.getD []
      if 0 < record.length ∧ record.byte 0 = AccountDiscriminator.feeRecord.toByte then .ok (some (accounts, none))
      else .ok (some (accounts, some (createRegisterPayerIx payer accounts.feeRecordPda rt.programId)))

structure ExecuteParams where
  payer : Pubkey
  walletPda : Pubkey
  authorityPda : Pubkey
  vaultPda : Pubkey
  packedInstructions : Bytes
  authPayload : Option Bytes
  authorizerSigner : Option Pubkey
  remainingAccounts : List RoleMeta
  protocolFee : Option ProtocolFeeAccounts
  programId : Pubkey

def createExecuteIx (params : ExecuteParams) : Instruction where
  programId := params.programId
  accounts := withProtocolFee ([
    signerWritableMeta params.payer,
    readonlyMeta params.walletPda,
    writableMeta params.authorityPda,
    writableMeta params.vaultPda] ++ authorizerMetas params.authorizerSigner params.authPayload ++
    params.remainingAccounts.map (·.toMeta)) params.protocolFee
  data := concatBytes ([[discExecute], params.packedInstructions] ++ params.authPayload.toList)

structure PrepareExecuteParams where
  payer : Pubkey
  walletPda : Pubkey
  secp256r1 : Secp256r1Params
  instructions : List UserInstruction
  feePayer : Option Pubkey

structure PreparedExecute where
  challenge : Bytes32
  signing : PreparedSecp256r1
  payer : Pubkey
  walletPda : Pubkey
  authorityPda : Pubkey
  vaultPda : Pubkey
  packed : Bytes
  remainingAccounts : List RoleMeta
  protocolFee : Option ProtocolFeeAccounts
  registerIx : Option Instruction
  programId : Pubkey

/-- The accounts of an Execute with a passkey, as `createExecuteIx` declares them. -/
def executeFixedAccounts (payer walletPda authorityPda vaultPda : Pubkey) : List RoleMeta := [
  ⟨payer, .writableSigner⟩,
  ⟨walletPda, .readonly⟩,
  ⟨authorityPda, .writable⟩,
  ⟨vaultPda, .writable⟩,
  ⟨instructionsSysvar, .readonly⟩]

def prepareExecute (params : PrepareExecuteParams) : Except Error PreparedExecute := do
  let vaultPda := findVault rt params.walletPda
  let inputs ← resolveSecp256r1 rt reads params.walletPda params.secp256r1
  let fee ← resolveProtocolFeeWithRegister rt fees params.payer
  let layout ← buildCompactLayoutAndHash rt.sha256
    (executeFixedAccounts params.payer params.walletPda inputs.authorityPda vaultPda) params.instructions params.payer
    params.feePayer
  let packed := packCompactInstructions layout.compactInstructions
  let signedPayload := concatBytes [packed, layout.accountsHash.bytes]
  let signing := buildPasskeySigning rt discExecute sysvarIxIndexExecute signedPayload inputs params.payer
    params.walletPda
  .ok {
    challenge := signing.challenge
    signing := signing
    payer := params.payer
    walletPda := params.walletPda
    authorityPda := inputs.authorityPda
    vaultPda := vaultPda
    packed := packed
    remainingAccounts := layout.remainingAccounts
    protocolFee := fee.map Prod.fst
    registerIx := fee.bind Prod.snd
    programId := rt.programId }

/-- The payer's registration if there is one, the precompile instruction and the program's. -/
def finalizeExecute (prepared : PreparedExecute) (response : WebAuthnResponse) : Except Error (List Instruction) := do
  let signed ← finalizeSecp256r1 prepared.signing response
  let ix := createExecuteIx {
    payer := prepared.payer
    walletPda := prepared.walletPda
    authorityPda := prepared.authorityPda
    vaultPda := prepared.vaultPda
    packedInstructions := prepared.packed
    authPayload := some signed.1
    authorizerSigner := none
    remainingAccounts := prepared.remainingAccounts
    protocolFee := prepared.protocolFee
    programId := prepared.programId }
  .ok (prepared.registerIx.toList ++ [signed.2, ix])

structure AuthorizeParams where
  payer : Pubkey
  walletPda : Pubkey
  authorityPda : Pubkey
  deferredExecPda : Pubkey
  instructionsHash : Bytes32
  accountsHash : Bytes32
  expiryOffset : ℕ
  authPayload : Bytes
  programId : Pubkey

def createAuthorizeIx (params : AuthorizeParams) : Instruction where
  programId := params.programId
  accounts := [
    signerWritableMeta params.payer,
    readonlyMeta params.walletPda,
    writableMeta params.authorityPda,
    writableMeta params.deferredExecPda,
    readonlyMeta systemProgram,
    readonlyMeta rentSysvar,
    readonlyMeta instructionsSysvar]
  data := concatBytes [[discAuthorize], params.instructionsHash.bytes, params.accountsHash.bytes,
    u16LE params.expiryOffset, params.authPayload]

structure PrepareAuthorizeParams where
  payer : Pubkey
  walletPda : Pubkey
  secp256r1 : Secp256r1Params
  instructions : List UserInstruction
  expiryOffset : Option ℕ
  executor : Option Pubkey
  feePayer : Option Pubkey

structure PreparedAuthorize where
  challenge : Bytes32
  deferredExecPda : Pubkey
  counter : ℕ
  signing : PreparedSecp256r1
  payer : Pubkey
  executor : Pubkey
  walletPda : Pubkey
  authorityPda : Pubkey
  instructionsHash : Bytes32
  accountsHash : Bytes32
  expiryOffset : ℕ
  compactInstructions : List CompactInstruction
  remainingAccounts : List RoleMeta
  programId : Pubkey

/-- The accounts of tx2, as `createExecuteDeferredIx` declares them. -/
def deferredFixedAccounts (executor walletPda vaultPda deferredExecPda payer : Pubkey) : List RoleMeta := [
  ⟨executor, .writableSigner⟩,
  ⟨walletPda, .readonly⟩,
  ⟨vaultPda, .writable⟩,
  ⟨deferredExecPda, .writable⟩,
  ⟨payer, .writable⟩]

/-- Tx1 of the deferred flow. What it signs is tx2's: the executor pays there and the payer here is refunded. -/
def prepareAuthorize (params : PrepareAuthorizeParams) : Except Error PreparedAuthorize := do
  let vaultPda := findVault rt params.walletPda
  let inputs ← resolveSecp256r1 rt reads params.walletPda params.secp256r1
  let expiryOffset := params.expiryOffset.getD 300
  let deferredExecPda := findDeferredExec rt params.walletPda inputs.authorityPda inputs.counter
  let executor := params.executor.getD params.payer
  let layout ← buildCompactLayoutAndHash rt.sha256
    (deferredFixedAccounts executor params.walletPda vaultPda deferredExecPda params.payer) params.instructions executor
    params.feePayer
  let instructionsHash := computeInstructionsHash rt.sha256 layout.compactInstructions
  let signedPayload := concatBytes [instructionsHash.bytes, layout.accountsHash.bytes, u16LE expiryOffset]
  let signing := buildPasskeySigning rt discAuthorize sysvarIxIndexAuthorize signedPayload inputs params.payer
    params.walletPda
  .ok {
    challenge := signing.challenge
    deferredExecPda := deferredExecPda
    counter := inputs.counter
    signing := signing
    payer := params.payer
    executor := executor
    walletPda := params.walletPda
    authorityPda := inputs.authorityPda
    instructionsHash := instructionsHash
    accountsHash := layout.accountsHash
    expiryOffset := expiryOffset
    compactInstructions := layout.compactInstructions
    remainingAccounts := layout.remainingAccounts
    programId := rt.programId }

/-- What tx2 needs. Payloads of older versions record neither the executor nor the refund destination. -/
structure DeferredPayload where
  walletPda : Pubkey
  deferredExecPda : Pubkey
  compactInstructions : List CompactInstruction
  remainingAccounts : List RoleMeta
  executor : Option Pubkey
  refundDestination : Option Pubkey

def finalizeAuthorize (prepared : PreparedAuthorize) (response : WebAuthnResponse) :
    Except Error (List Instruction × DeferredPayload) := do
  let signed ← finalizeSecp256r1 prepared.signing response
  let authorizeIx := createAuthorizeIx {
    payer := prepared.payer
    walletPda := prepared.walletPda
    authorityPda := prepared.authorityPda
    deferredExecPda := prepared.deferredExecPda
    instructionsHash := prepared.instructionsHash
    accountsHash := prepared.accountsHash
    expiryOffset := prepared.expiryOffset
    authPayload := signed.1
    programId := prepared.programId }
  .ok ([signed.2, authorizeIx], {
    walletPda := prepared.walletPda
    deferredExecPda := prepared.deferredExecPda
    compactInstructions := prepared.compactInstructions
    remainingAccounts := prepared.remainingAccounts
    executor := some prepared.executor
    refundDestination := some prepared.payer })

structure ExecuteDeferredParams where
  payer : Pubkey
  walletPda : Pubkey
  vaultPda : Pubkey
  deferredExecPda : Pubkey
  refundDestination : Pubkey
  packedInstructions : Bytes
  remainingAccounts : List RoleMeta
  protocolFee : Option ProtocolFeeAccounts
  programId : Pubkey

def createExecuteDeferredIx (params : ExecuteDeferredParams) : Instruction where
  programId := params.programId
  accounts := withProtocolFee ([
    signerWritableMeta params.payer,
    readonlyMeta params.walletPda,
    writableMeta params.vaultPda,
    writableMeta params.deferredExecPda,
    writableMeta params.refundDestination] ++ params.remainingAccounts.map (·.toMeta)) params.protocolFee
  data := concatBytes [[discExecuteDeferred], params.packedInstructions]

/-- Whether the inner instructions name tx2's payer (index 0) or its refund destination (index 4). -/
def namesDeferredPayerSlot (compactInstructions : List CompactInstruction) : Bool :=
  let payerSlot (byte : UInt8) : Bool :=
    let index := (decodeAccountIndex byte).1
    index = 0 ∨ index = 4
  compactInstructions.any fun ix => payerSlot ix.programIdIndex || ix.accounts.any payerSlot

/-- Tx2 from the payload. Another payer than the executor is refused when an inner instruction names one of the
two slots. -/
def executeDeferredFromPayload (payer : Pubkey) (payload : DeferredPayload) (refundDestination : Option Pubkey) :
    Except Error (List Instruction) := do
  let executor := base58 (payload.executor.getD payer).bytes
  let sender := base58 payer.bytes
  Except.ensure (¬(payload.executor ≠ none ∧ payload.executor ≠ some payer ∧
      namesDeferredPayerSlot payload.compactInstructions = true)) ⟨
    s!"This authorization was signed for {executor} to send ExecuteDeferred, and an " ++
    "inner instruction names tx2's payer or refund destination, whose flags depend " ++
    s!"on who sends it. Sent by {sender} it would fail with " ++
    s!"DeferredHashMismatch (3015). Send it from {executor}, or authorize again " ++
    s!"with executor: {sender}."⟩
  let vaultPda := findVault rt payload.walletPda
  let refundDest := (refundDestination.or payload.refundDestination).getD payer
  let packed := packCompactInstructions payload.compactInstructions
  let fee ← resolveProtocolFeeWithRegister rt fees payer
  let ix := createExecuteDeferredIx {
    payer := payer
    walletPda := payload.walletPda
    vaultPda := vaultPda
    deferredExecPda := payload.deferredExecPda
    refundDestination := refundDest
    packedInstructions := packed
    remainingAccounts := payload.remainingAccounts
    protocolFee := fee.map Prod.fst
    programId := rt.programId }
  .ok ((fee.bind Prod.snd).toList ++ [ix])

end Client

end LazorKit.Kit
