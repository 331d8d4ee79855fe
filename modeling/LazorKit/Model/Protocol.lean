import LazorKit.Model.Program

/-! # The protocol layer

The global configuration with its two-step admin rotation, the fee records of payers, the treasury
shards, and the fee collection that runs in front of CreateWallet, Execute and ExecuteDeferred.
-/

namespace LazorKit

open Solana

/-- The one address a configuration may live at. -/
def ProtocolConfig.pda (dep : Deployment) : Pubkey := (dep.findProgramAddress [Seeds.protocolConfig]).1

/-- Pin the address, the owner and the header before any field is read. -/
def ProtocolConfig.load (dep : Deployment) (m : Machine Approval) (acc : AccountInfo) :
    Except ProgramError Unit := do
  Except.ensure (acc.key = ProtocolConfig.pda dep) ↑ProtocolError.invalidProtocolAdmin
  Except.ensure (m.owner acc.key = dep.programId) .illegalOwner
  (ProtocolConfig.check (m.data acc.key)).mapError fun _ => ↑ProtocolError.invalidProtocolAdmin

/-- Neither fee may exceed the compiled ceiling. -/
def checkFees (creationFee executionFee : ℕ) : Except ProgramError Unit :=
  Except.ensure (creationFee ≤ maxProtocolFeeLamports ∧ executionFee ≤ maxProtocolFeeLamports)
    ↑ProtocolError.feeExceedsMaximum

def processInitializeProtocol (dep : Deployment) (accounts : List AccountInfo) (data : Bytes)
    (m : Machine Approval) : Except ProgramError (Machine Approval) := do
  Except.ensure (81 ≤ data.length) .invalidInstructionData
  let creationFee := (data.slice 64 8).toNatLE
  let executionFee := (data.slice 72 8).toNatLE
  let numShards := data.byte 80
  Except.ensure (numShards ≠ 0) .invalidInstructionData
  checkFees creationFee executionFee
  let payer ← accountAt accounts 0
  let configPda ← accountAt accounts 1
  let systemProgram ← accountAt accounts 2
  let rentSysvar ← accountAt accounts 3
  Except.ensure (payer.isSigner = true) .missingRequiredSignature
  Except.ensure (payer.key = dep.protocolInitAuthority) ↑ProtocolError.unauthorizedInitializer
  let config := dep.findProgramAddress [Seeds.protocolConfig]
  Except.ensure (configPda.key = config.1) .invalidSeeds
  checkZeroData m configPda ↑ProtocolError.protocolAlreadyInitialized
  let rent ← Rent.fromAccountInfo dep.toRuntime rentSysvar
  let m ← initializePdaAccount dep m payer configPda systemProgram ProtocolConfig.size
    (rent.minimumBalance ProtocolConfig.size)
  let account : ProtocolConfig :=
    { discriminator := AccountDiscriminator.protocolConfig.toByte, version := currentAccountVersion,
      bump := config.2, enabled := 1, numShards := numShards, padding := .fill 0,
      admin := readKey data 0, treasury := readKey data 32, creationFee := creationFee,
      executionFee := executionFee, pendingAdmin := .fill 0 }
  m.writeData dep.toRuntime configPda (ProtocolConfig.write (m.data configPda.key) account)

def processUpdateProtocol (dep : Deployment) (accounts : List AccountInfo) (data : Bytes)
    (m : Machine Approval) : Except ProgramError (Machine Approval) := do
  Except.ensure (56 ≤ data.length) .invalidInstructionData
  let creationFee := (data.slice 0 8).toNatLE
  let executionFee := (data.slice 8 8).toNatLE
  let enabled := data.byte 16
  checkFees creationFee executionFee
  Except.ensure (enabled ≤ 1) .invalidInstructionData
  let admin ← accountAt accounts 0
  let configPda ← accountAt accounts 1
  Except.ensure (admin.isSigner = true) .missingRequiredSignature
  ProtocolConfig.load dep m configPda
  let config := ProtocolConfig.read (m.data configPda.key)
  Except.ensure (admin.key = config.admin) ↑ProtocolError.invalidProtocolAdmin
  m.writeData dep.toRuntime configPda (ProtocolConfig.write (m.data configPda.key)
    { config with
      creationFee := creationFee, executionFee := executionFee, enabled := enabled,
      treasury := readKey data 24 })

def processRegisterIntegrator (dep : Deployment) (fr : Frame) (accounts : List AccountInfo)
    (m : Machine Approval) : Except ProgramError (Machine Approval) := do
  let payer ← accountAt accounts 0
  let recordPda ← accountAt accounts 1
  let systemProgram ← accountAt accounts 2
  let rentSysvar ← accountAt accounts 3
  Except.ensure (payer.isSigner = true) .missingRequiredSignature
  let record := dep.findProgramAddress [Seeds.feeRecord, payer.key.bytes]
  Except.ensure (recordPda.key = record.1) .invalidSeeds
  checkZeroData m recordPda ↑ProtocolError.integratorAlreadyRegistered
  let rent ← Rent.fromAccountInfo dep.toRuntime rentSysvar
  let m ← initializePdaAccount dep m payer recordPda systemProgram FeeRecord.size
    (rent.minimumBalance FeeRecord.size)
  m.writeData dep.toRuntime recordPda (FeeRecord.write (m.data recordPda.key)
    { discriminator := AccountDiscriminator.feeRecord.toByte, bump := record.2,
      version := currentAccountVersion, padding := .fill 0, totalFeesPaid := 0, txCount := 0,
      walletCount := 0, registeredAt := fr.slot.toNat })

/-- The shard's stored id, after checking that it lives at that id's address. -/
def loadTreasuryShard (dep : Deployment) (m : Machine Approval) (shard : AccountInfo) :
    Except ProgramError Unit := do
  (TreasuryShard.check (m.data shard.key)).mapError fun _ => ↑ProtocolError.invalidTreasuryShard
  let shardId := TreasuryShard.readShardId (m.data shard.key)
  Except.ensure (shard.key = (dep.findProgramAddress [Seeds.treasuryShard, [shardId]]).1)
    ↑ProtocolError.invalidTreasuryShard

def processWithdrawTreasury (dep : Deployment) (accounts : List AccountInfo) (m : Machine Approval) :
    Except ProgramError (Machine Approval) := do
  let admin ← accountAt accounts 0
  let configPda ← accountAt accounts 1
  let shardPda ← accountAt accounts 2
  let treasury ← accountAt accounts 3
  let rentSysvar ← accountAt accounts 4
  Except.ensure (admin.isSigner = true) .missingRequiredSignature
  ProtocolConfig.load dep m configPda
  Except.ensure (m.owner shardPda.key = dep.programId) .illegalOwner
  let config := ProtocolConfig.read (m.data configPda.key)
  Except.ensure (admin.key = config.admin) ↑ProtocolError.invalidProtocolAdmin
  Except.ensure (treasury.key = config.treasury) ↑ProtocolError.invalidTreasury
  loadTreasuryShard dep m shardPda
  let rent ← Rent.fromAccountInfo dep.toRuntime rentSysvar
  let minBalance := rent.minimumBalance TreasuryShard.size
  let currentBalance := m.lamports shardPda.key
  if currentBalance ≤ minBalance then .ok m
  else do
    let swept ← m.writeLamports dep.toRuntime shardPda minBalance
    let credited := swept.lamports treasury.key + (currentBalance - minBalance)
    Except.ensure (credited < 2 ^ 64) .arithmeticOverflow
    swept.writeLamports dep.toRuntime treasury credited

def processInitializeTreasuryShard (dep : Deployment) (accounts : List AccountInfo) (data : Bytes)
    (m : Machine Approval) : Except ProgramError (Machine Approval) := do
  Except.ensure (data ≠ []) .invalidInstructionData
  let shardId := data.byte 0
  let payer ← accountAt accounts 0
  Except.ensure (payer.isSigner = true) .missingRequiredSignature
  let configPda ← accountAt accounts 1
  let admin ← accountAt accounts 2
  let shardPda ← accountAt accounts 3
  let systemProgram ← accountAt accounts 4
  let rentSysvar ← accountAt accounts 5
  Except.ensure (admin.isSigner = true) .missingRequiredSignature
  ProtocolConfig.load dep m configPda
  let config := ProtocolConfig.read (m.data configPda.key)
  Except.ensure (admin.key = config.admin) ↑ProtocolError.invalidProtocolAdmin
  Except.ensure (shardId < config.numShards) .invalidInstructionData
  let shard := dep.findProgramAddress [Seeds.treasuryShard, [shardId]]
  Except.ensure (shardPda.key = shard.1) .invalidSeeds
  checkZeroData m shardPda .accountAlreadyInitialized
  let rent ← Rent.fromAccountInfo dep.toRuntime rentSysvar
  let m ← initializePdaAccount dep m payer shardPda systemProgram TreasuryShard.size
    (rent.minimumBalance TreasuryShard.size)
  let account : TreasuryShard :=
    { discriminator := AccountDiscriminator.treasuryShard.toByte, bump := shard.2, shardId := shardId,
      padding := .fill 0 }
  m.writeData dep.toRuntime shardPda ((m.data shardPda.key).splice 0 account.toBytes)

/-- The configuration must also be writable for a rotation. -/
def loadConfig (dep : Deployment) (m : Machine Approval) (configPda : AccountInfo) :
    Except ProgramError Unit := do
  ProtocolConfig.load dep m configPda
  Except.ensure (configPda.isWritable = true) .invalidAccountData

def processProposeProtocolAdmin (dep : Deployment) (accounts : List AccountInfo) (data : Bytes)
    (m : Machine Approval) : Except ProgramError (Machine Approval) := do
  Except.ensure (32 ≤ data.length) .invalidInstructionData
  let admin ← accountAt accounts 0
  let configPda ← accountAt accounts 1
  Except.ensure (admin.isSigner = true) .missingRequiredSignature
  loadConfig dep m configPda
  let config := ProtocolConfig.read (m.data configPda.key)
  Except.ensure (admin.key = config.admin) ↑ProtocolError.invalidProtocolAdmin
  m.writeData dep.toRuntime configPda (ProtocolConfig.write (m.data configPda.key)
    { config with pendingAdmin := readKey data 0 })

def processAcceptProtocolAdmin (dep : Deployment) (accounts : List AccountInfo) (m : Machine Approval) :
    Except ProgramError (Machine Approval) := do
  let newAdmin ← accountAt accounts 0
  let configPda ← accountAt accounts 1
  Except.ensure (newAdmin.isSigner = true) .missingRequiredSignature
  loadConfig dep m configPda
  let config := ProtocolConfig.read (m.data configPda.key)
  Except.ensure (config.pendingAdmin ≠ .fill 0 ∧ newAdmin.key = config.pendingAdmin)
    ↑ProtocolError.noPendingAdmin
  m.writeData dep.toRuntime configPda (ProtocolConfig.write (m.data configPda.key)
    { config with admin := config.pendingAdmin, pendingAdmin := .fill 0 })

/-- The fee due for an instruction: none unless the configuration is this program's, valid and
enabled. -/
def resolveFee (dep : Deployment) (m : Machine Approval) (config : AccountInfo) (discriminator : UInt8) : ℕ :=
  if m.owner config.key = dep.programId ∧ (ProtocolConfig.check (m.data config.key)).succeeded = true then
    let stored := ProtocolConfig.read (m.data config.key)
    if stored.enabled = 1 then
      if discriminator = 0 then stored.creationFee else stored.executionFee
    else 0
  else 0

/-- Create the payer's fee record when it is still the System program's, else check it. -/
def ensureFeeRecord (dep : Deployment) (fr : Frame) (m : Machine Approval)
    (payer record systemProgram : AccountInfo) (bump : UInt8) : Except ProgramError (Machine Approval) :=
  if m.owner record.key = Solana.systemProgram then do
    let m ← initializePdaAccount dep m payer record systemProgram FeeRecord.size
      (dep.rent.minimumBalance FeeRecord.size)
    m.writeData dep.toRuntime record (FeeRecord.write (m.data record.key)
      { discriminator := AccountDiscriminator.feeRecord.toByte, bump := bump,
        version := currentAccountVersion, padding := .fill 0, totalFeesPaid := 0, txCount := 0,
        walletCount := 0, registeredAt := fr.slot.toNat })
  else if m.owner record.key ≠ dep.programId then .error ↑ProtocolError.invalidFeeRecord
  else do
    (FeeRecord.check (m.data record.key)).mapError fun _ => ↑ProtocolError.invalidFeeRecord
    .ok m

/-- `u32::saturating_add(1)`. -/
def saturatingSucc32 (n : ℕ) : ℕ := min (n + 1) (2 ^ 32 - 1)

/-- The record after a fee: the total grows, and one of the two counters. -/
def FeeRecord.charge (record : FeeRecord) (fee : ℕ) (discriminator : UInt8) : FeeRecord :=
  if discriminator = 0 then
    { record with
      totalFeesPaid := record.totalFeesPaid + fee, walletCount := saturatingSucc32 record.walletCount }
  else
    { record with
      totalFeesPaid := record.totalFeesPaid + fee, txCount := saturatingSucc32 record.txCount }

/-- Collect the fee from the four trailing accounts `config, record, shard, system program` and
return the accounts in front of them. -/
def tryCollectFee (dep : Deployment) (fr : Frame) (discriminator : UInt8) (accounts : List AccountInfo)
    (m : Machine Approval) : Except ProgramError (Machine Approval × List AccountInfo) := do
  Except.ensure (5 ≤ accounts.length) ↑ProtocolError.feeAccountsRequired
  let n := accounts.length
  let config ← accountAt accounts (n - 4)
  let record ← accountAt accounts (n - 3)
  let shard ← accountAt accounts (n - 2)
  let system ← accountAt accounts (n - 1)
  Except.ensure (system.key = Solana.systemProgram) ↑ProtocolError.feeAccountsRequired
  Except.ensure (config.key = (dep.findProgramAddress [Seeds.protocolConfig]).1)
    ↑ProtocolError.protocolNotInitialized
  let fee := resolveFee dep m config discriminator
  if fee = 0 then .ok (m, accounts.take (n - 4))
  else do
    Except.ensure (m.owner shard.key = dep.programId) ↑ProtocolError.invalidTreasuryShard
    loadTreasuryShard dep m shard
    let payer ← accountAt accounts 0
    Except.ensure (payer.isSigner = true) .missingRequiredSignature
    let expectedRecord := dep.findProgramAddress [Seeds.feeRecord, payer.key.bytes]
    Except.ensure (record.key = expectedRecord.1) ↑ProtocolError.invalidFeeRecord
    let m ← ensureFeeRecord dep fr m payer record system expectedRecord.2
    let m ← m.systemTransfer payer shard true fee
    let stored := FeeRecord.read (m.data record.key)
    Except.ensure (stored.totalFeesPaid + fee < 2 ^ 64) .arithmeticOverflow
    let m ← m.writeData dep.toRuntime record
      (FeeRecord.write (m.data record.key) (stored.charge fee discriminator))
    .ok (m, accounts.take (n - 4))

end LazorKit
