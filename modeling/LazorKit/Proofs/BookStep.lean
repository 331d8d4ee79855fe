import LazorKit.Proofs.ProtocolBook

/-! # The protocol layer as a transition system

The book is the state of the protocol layer. `BookStep` lists every way a successful instruction can
change it, with all the guards the change passed, and `FeeStep` what the collection of a fee does in front
of an instruction. The configuration's admin, the fees paid and the shards are then studied by cases on
these two.
-/

namespace LazorKit

open Solana

namespace ProtocolConfig

theorem check_eq_ok {data : Bytes} {u : Unit} :
    check data = .ok u ↔ size ≤ data.length ∧ data.byte 0 = AccountDiscriminator.protocolConfig.toByte ∧
      data.byte 1 = currentAccountVersion := checkHeader_eq_ok

@[simp] theorem length_toBytes (config : ProtocolConfig) : config.toBytes.length = size := by
  simp [toBytes, size, config.padding.length_bytes, config.admin.length_bytes, config.treasury.length_bytes,
    config.pendingAdmin.length_bytes]

theorem read_toBytes_append {config : ProtocolConfig} (rest : Bytes) (creation : config.creationFee < 2 ^ 64)
    (execution : config.executionFee < 2 ^ 64) : read (config.toBytes ++ rest) = config := by
  obtain ⟨disc, version, bump, enabled, shards, pad, admin, treasury, creationFee, executionFee, pending⟩ := config
  have widthP := pad.length_bytes
  have widthA := admin.length_bytes
  have widthT := treasury.length_bytes
  have widthN := pending.length_bytes
  simp only [read, readKey, toBytes, List.append_assoc, List.cons_append, List.nil_append]
  simp [slice_cons, slice_skip widthP, slice_skip widthA, slice_skip widthT, slice_front widthP, slice_front widthA,
    slice_front widthT, slice_front widthN, Bytes.byte, slice_skip (Bytes.length_ofNatLE 8 _),
    slice_front (Bytes.length_ofNatLE 8 _)]
  exact ⟨Bytes.toNatLE_ofNatLE_of_lt (by simpa using creation), Bytes.toNatLE_ofNatLE_of_lt (by simpa using execution)⟩

theorem write_eq (data : Bytes) (config : ProtocolConfig) :
    write data config = config.toBytes ++ data.drop size := by
  rw [write, Bytes.splice, length_toBytes, List.take_zero, List.nil_append, Nat.zero_add]

theorem read_write {data : Bytes} {config : ProtocolConfig} (creation : config.creationFee < 2 ^ 64)
    (execution : config.executionFee < 2 ^ 64) : read (write data config) = config := by
  rw [write_eq, read_toBytes_append _ creation execution]

theorem fees_lt (data : Bytes) : (read data).creationFee < 2 ^ 64 ∧ (read data).executionFee < 2 ^ 64 :=
  ⟨Bytes.toNatLE_slice_lt, Bytes.toNatLE_slice_lt⟩

end ProtocolConfig

namespace FeeRecord

theorem check_eq_ok {data : Bytes} {u : Unit} :
    check data = .ok u ↔ size ≤ data.length ∧ data.byte 0 = AccountDiscriminator.feeRecord.toByte ∧
      data.byte 2 = currentAccountVersion := checkHeader_eq_ok

@[simp] theorem length_toBytes (record : FeeRecord) : record.toBytes.length = size := by
  simp [toBytes, size, record.padding.length_bytes]

theorem read_toBytes_append {record : FeeRecord} (rest : Bytes) (total : record.totalFeesPaid < 2 ^ 64)
    (txs : record.txCount < 2 ^ 32) (wallets : record.walletCount < 2 ^ 32) (slot : record.registeredAt < 2 ^ 64) :
    read (record.toBytes ++ rest) = record := by
  obtain ⟨disc, bump, version, pad, totalFeesPaid, txCount, walletCount, registeredAt⟩ := record
  have widthP := pad.length_bytes
  simp only [read, toBytes, List.append_assoc, List.cons_append, List.nil_append]
  simp [slice_cons, slice_skip widthP, slice_front widthP, Bytes.byte, slice_skip (Bytes.length_ofNatLE 8 _),
    slice_skip (Bytes.length_ofNatLE 4 _), slice_front (Bytes.length_ofNatLE 8 _),
      slice_front (Bytes.length_ofNatLE 4 _)]
  exact ⟨Bytes.toNatLE_ofNatLE_of_lt (by simpa using total), Bytes.toNatLE_ofNatLE_of_lt (by simpa using txs),
    Bytes.toNatLE_ofNatLE_of_lt (by simpa using wallets), Bytes.toNatLE_ofNatLE_of_lt (by simpa using slot)⟩

theorem write_eq (data : Bytes) (record : FeeRecord) : write data record = record.toBytes ++ data.drop size := by
  rw [write, Bytes.splice, length_toBytes, List.take_zero, List.nil_append, Nat.zero_add]

/-- A charged record reads back as charged. -/
theorem read_write_charge {data : Bytes} {fee : ℕ} {discriminator : UInt8}
    (bound : (read data).totalFeesPaid + fee < 2 ^ 64) :
    read (write data ((read data).charge fee discriminator)) = (read data).charge fee discriminator := by
  have txs : (read data).txCount < 2 ^ 32 := Bytes.toNatLE_slice_lt
  have wallets : (read data).walletCount < 2 ^ 32 := Bytes.toNatLE_slice_lt
  have slot : (read data).registeredAt < 2 ^ 64 := Bytes.toNatLE_slice_lt
  have next (count : ℕ) : saturatingSucc32 count < 2 ^ 32 := by
    rw [saturatingSucc32]
    omega
  rw [write_eq]
  unfold charge
  split
  · exact read_toBytes_append _ bound txs (next _) slot
  · exact read_toBytes_append _ bound (next _) wallets slot

end FeeRecord

namespace TreasuryShard

theorem check_eq_ok {data : Bytes} {u : Unit} :
    check data = .ok u ↔ size ≤ data.length ∧ data.byte 0 = AccountDiscriminator.treasuryShard.toByte := by
  simp only [check, checkHeader, Except.bind_eq_ok, Except.ensure_eq_ok, exists_const, and_true]

@[simp] theorem length_toBytes (shard : TreasuryShard) : shard.toBytes.length = size := by
  simp [toBytes, size, shard.padding.length_bytes]

end TreasuryShard

/-- The account at a position signed, and this is its key. -/
def SignerAt (accounts : List AccountInfo) (i : ℕ) (key : Pubkey) : Prop :=
  ∃ acc, accounts[i]? = some acc ∧ acc.isSigner = true ∧ acc.key = key

/-- A configuration that passes its check, at its address. -/
structure LoadedConfig (dep : Deployment) (book : Registry) (bytes : Bytes) : Prop where
  recorded : book (ProtocolConfig.pda dep) = some bytes
  checked : ProtocolConfig.check bytes = .ok ()

def newConfig (bump : UInt8) (data : Bytes) : ProtocolConfig where
  discriminator := AccountDiscriminator.protocolConfig.toByte
  version := currentAccountVersion
  bump := bump
  enabled := 1
  numShards := data.byte 80
  padding := .fill 0
  admin := readKey data 0
  treasury := readKey data 32
  creationFee := (data.slice 64 8).toNatLE
  executionFee := (data.slice 72 8).toNatLE
  pendingAdmin := .fill 0

/-- A configuration after UpdateProtocol. -/
def updatedConfig (config : ProtocolConfig) (data : Bytes) : ProtocolConfig :=
  { config with
    creationFee := (data.slice 0 8).toNatLE, executionFee := (data.slice 8 8).toNatLE, enabled := data.byte 16,
    treasury := readKey data 24 }

def newFeeRecord (bump : UInt8) (slot : ℕ) : FeeRecord where
  discriminator := AccountDiscriminator.feeRecord.toByte
  bump := bump
  version := currentAccountVersion
  padding := .fill 0
  totalFeesPaid := 0
  txCount := 0
  walletCount := 0
  registeredAt := slot

def newShard (bump shardId : UInt8) : TreasuryShard where
  discriminator := AccountDiscriminator.treasuryShard.toByte
  bump := bump
  shardId := shardId
  padding := .fill 0

/-- The address of a payer's fee record. -/
def feeRecordAddress (dep : Deployment) (payer : Pubkey) : Pubkey :=
  (dep.findProgramAddress [Seeds.feeRecord, payer.bytes]).1

/-- The address of a treasury shard. -/
def shardAddress (dep : Deployment) (shardId : UInt8) : Pubkey :=
  (dep.findProgramAddress [Seeds.treasuryShard, [shardId]]).1

/-- The instructions that write the book; a withdrawal only moves lamports. -/
def isBookkeeping (discriminator : UInt8) : Bool :=
  discriminator = 10 ∨ discriminator = 11 ∨ discriminator = 12 ∨ discriminator = 14 ∨ discriminator = 15 ∨
    discriminator = 16

/-- What a successful instruction does to the book, once its fee is collected. -/
inductive BookStep (dep : Deployment) (fr : Frame) (accounts : List AccountInfo) (data : Bytes) (book : Registry) :
    UInt8 → Registry → Prop
  | spared {discriminator : UInt8} (other : isBookkeeping discriminator = false) :
      BookStep dep fr accounts data book discriminator book
  | initializeConfig {bump : UInt8} (signed : SignerAt accounts 0 dep.protocolInitAuthority)
      (fees : (newConfig bump data).creationFee ≤ maxProtocolFeeLamports ∧
        (newConfig bump data).executionFee ≤ maxProtocolFeeLamports)
      (fresh : book (ProtocolConfig.pda dep) = none) :
      BookStep dep fr accounts data book 10
        (Function.update book (ProtocolConfig.pda dep) (some (newConfig bump data).toBytes))
  | update {old : Bytes} (loaded : LoadedConfig dep book old)
      (signed : SignerAt accounts 0 (ProtocolConfig.read old).admin)
      (fees : (data.slice 0 8).toNatLE ≤ maxProtocolFeeLamports ∧ (data.slice 8 8).toNatLE ≤ maxProtocolFeeLamports)
      (flag : data.byte 16 ≤ 1) :
      BookStep dep fr accounts data book 11 (Function.update book (ProtocolConfig.pda dep)
        (some (ProtocolConfig.write old (updatedConfig (ProtocolConfig.read old) data))))
  | register {payer : Pubkey} {bump : UInt8} (signed : SignerAt accounts 0 payer)
      (fresh : book (feeRecordAddress dep payer) = none) :
      BookStep dep fr accounts data book 12
        (Function.update book (feeRecordAddress dep payer) (some (newFeeRecord bump fr.slot.toNat).toBytes))
  | initializeShard {old : Bytes} {bump : UInt8} (loaded : LoadedConfig dep book old)
      (signed : SignerAt accounts 2 (ProtocolConfig.read old).admin)
      (fresh : book (shardAddress dep (data.byte 0)) = none) :
      BookStep dep fr accounts data book 14
        (Function.update book (shardAddress dep (data.byte 0)) (some (newShard bump (data.byte 0)).toBytes))
  | propose {old : Bytes} (loaded : LoadedConfig dep book old)
      (signed : SignerAt accounts 0 (ProtocolConfig.read old).admin) :
      BookStep dep fr accounts data book 15 (Function.update book (ProtocolConfig.pda dep)
        (some (ProtocolConfig.write old { ProtocolConfig.read old with pendingAdmin := readKey data 0 })))
  | accept {old : Bytes} (loaded : LoadedConfig dep book old)
      (signed : SignerAt accounts 0 (ProtocolConfig.read old).pendingAdmin)
      (proposed : (ProtocolConfig.read old).pendingAdmin ≠ .fill 0) :
      BookStep dep fr accounts data book 16 (Function.update book (ProtocolConfig.pda dep)
        (some (ProtocolConfig.write old { ProtocolConfig.read old with
          admin := (ProtocolConfig.read old).pendingAdmin, pendingAdmin := .fill 0 })))

/-- Every entry holds lamports, so the runtime never removes one. -/
def BookFunded (dep : Deployment) (ledger : Ledger) : Prop :=
  ∀ key, book dep ledger key ≠ none → 0 < (ledger key).lamports

/-- A successful instruction is a step of the book and keeps its entries funded. -/
structure BookRefines (dep : Deployment) (fr : Frame) (accounts : List AccountInfo) (data : Bytes)
    (discriminator : UInt8) (m m' : Machine Approval) : Prop where
  step : BookStep dep fr accounts data (book dep m.ledger) discriminator (book dep m'.ledger)
  funded : BookFunded dep m.ledger → BookFunded dep m'.ledger

variable {dep : Deployment} {fr : Frame} {accounts : List AccountInfo} {data : Bytes}
  {m m' m'' : Machine Approval} {key : Pubkey} {bytes : Bytes}

theorem Spares.funded (spares : Spares dep m m') (funded : BookFunded dep m.ledger) : BookFunded dep m'.ledger := by
  intro key live
  rw [spares.book] at live
  exact (funded key live).trans_le (spares.lamports key live)

theorem Spares.refines {discriminator : UInt8} (spares : Spares dep m m')
    (other : isBookkeeping discriminator = false) : BookRefines dep fr accounts data discriminator m m' := by
  refine ⟨?_, spares.funded⟩
  rw [spares.book]
  exact .spared other

/-- Storing into an account of this program replaces its entry. -/
theorem Stored.book (stored : Stored m m' key bytes) (owned : m.owner key = dep.programId) :
    book dep m'.ledger = Function.update (book dep m.ledger) key (entryData bytes) := by
  funext other
  have owner : (m'.ledger other).owner = (m.ledger other).owner := stored.owner other
  by_cases same : other = key
  · subst same
    rw [Function.update_self, book_of_owned (owner.trans owned)]
    exact congrArg entryData stored.data_self
  · have data : (m'.ledger other).data = (m.ledger other).data := stored.data_of_ne same
    rw [Function.update_of_ne same]
    simp only [LazorKit.book, data, owner]

theorem Stored.bookFunded (stored : Stored m m' key bytes) (positive : 0 < m.lamports key)
    (funded : BookFunded dep m.ledger) : BookFunded dep m'.ledger := by
  intro other live
  rw [show (m'.ledger other).lamports = m.lamports other from stored.lamports other]
  by_cases same : other = key
  · rw [same]
    exact positive
  · apply funded other
    have data : (m'.ledger other).data = (m.ledger other).data := stored.data_of_ne same
    have owner : (m'.ledger other).owner = (m.ledger other).owner := stored.owner other
    simpa only [LazorKit.book, data, owner] using live

/-- Creating an entry at an address that had none. -/
theorem book_of_created_stored {payer target system : AccountInfo} {space rent : ℕ} {made : Machine Approval}
    (creation : initializePdaAccount dep m payer target system space rent = .ok made) (positive : 0 < rent)
    (stored : Stored made m' target.key bytes) (tag : isProtocolTag (bytes.byte 0) = true) :
    book dep m.ledger target.key = none ∧
      book dep m'.ledger = Function.update (book dep m.ledger) target.key (some bytes) ∧
      (BookFunded dep m.ledger → BookFunded dep m'.ledger) := by
  have created := initializePdaAccount_eq_ok creation positive
  have spares := Spares.of_initializePda creation positive
  refine ⟨book_of_empty created.wasEmpty, ?_, fun funded => stored.bookFunded created.positive (spares.funded funded)⟩
  rw [stored.book created.owner_self, spares.book, entryData_of_tag tag]

/-- What a loaded configuration is to the book. -/
theorem ProtocolConfig.load_eq_ok {acc : AccountInfo} (success : ProtocolConfig.load dep m acc = .ok ()) :
    acc.key = ProtocolConfig.pda dep ∧ m.owner acc.key = dep.programId ∧
      LoadedConfig dep (book dep m.ledger) (m.data acc.key) := by
  have tagged := ProtocolConfig.load_tag success
  simp only [ProtocolConfig.load, Except.bind_eq_ok, Except.ensure_eq_ok, exists_const,
    Except.mapError_eq_ok] at success
  obtain ⟨address, owned, checked⟩ := success
  refine ⟨address, owned, ?_, checked⟩
  rw [← address]
  exact book_of_tag owned (by rw [tagged]; rfl)

theorem loadConfig_eq_ok {acc : AccountInfo} (success : loadConfig dep m acc = .ok ()) :
    ProtocolConfig.load dep m acc = .ok () := by
  simp only [loadConfig, Except.bind_eq_ok, Except.ensure_eq_ok] at success
  obtain ⟨_, loaded, _⟩ := success
  exact loaded

/-- Rewriting a loaded configuration under its own tag. -/
theorem book_of_config {acc : AccountInfo} {config : ProtocolConfig}
    (load : ProtocolConfig.load dep m acc = .ok ()) (tag : config.discriminator = (m.data acc.key).byte 0)
    (store : m.writeData dep.toRuntime acc (ProtocolConfig.write (m.data acc.key) config) = .ok m') :
    book dep m'.ledger = Function.update (book dep m.ledger) (ProtocolConfig.pda dep)
        (some (ProtocolConfig.write (m.data acc.key) config)) ∧
      (BookFunded dep m.ledger → BookFunded dep m'.ledger) := by
  obtain ⟨address, owned, loaded⟩ := ProtocolConfig.load_eq_ok load
  have stored := Stored.of_writeData store
  have entry : isProtocolTag ((ProtocolConfig.write (m.data acc.key) config).byte 0) = true := by
    change isProtocolTag config.discriminator = true
    rw [tag, ProtocolConfig.load_tag load]
    rfl
  refine ⟨?_, fun funded => stored.bookFunded (funded acc.key ?_) funded⟩
  · rw [stored.book owned, address, entryData_of_tag (by rwa [address] at entry)]
  · rw [address, loaded.recorded]
    exact Option.some_ne_none _

private theorem processInitializeProtocol_book (success : processInitializeProtocol dep accounts data m = .ok m') :
    BookRefines dep fr accounts data 10 m m' := by
  simp only [processInitializeProtocol, Except.bind_eq_ok, Except.ensure_eq_ok, exists_const, accountAt_eq_ok,
    checkZeroData, checkFees] at success
  obtain ⟨_, _, fees, payer, payerAt, configPda, _, systemProgram, _, rentSysvar, _, signed, authority, address, _,
    rent, _, made, creation, store⟩ := success
  have created := initializePdaAccount_eq_ok creation (rent.minimumBalance_pos _)
  have stored := Stored.of_writeData store
  rw [created.data_self, ProtocolConfig.write, splice_whole (by simp)] at stored
  obtain ⟨fresh, after, funded⟩ := book_of_created_stored creation (rent.minimumBalance_pos _) stored rfl
  refine ⟨?_, funded⟩
  rw [after, address]
  rw [address] at fresh
  exact .initializeConfig ⟨payer, payerAt, signed, authority⟩ fees fresh

private theorem processUpdateProtocol_book (success : processUpdateProtocol dep accounts data m = .ok m') :
    BookRefines dep fr accounts data 11 m m' := by
  simp only [processUpdateProtocol, Except.bind_eq_ok, Except.ensure_eq_ok, exists_const,
    accountAt_eq_ok, checkFees] at success
  obtain ⟨_, fees, flag, admin, adminAt, configPda, _, signed, _, load, isAdmin, store⟩ := success
  obtain ⟨after, funded⟩ := book_of_config load rfl store
  refine ⟨?_, funded⟩
  rw [after]
  exact .update (ProtocolConfig.load_eq_ok load).2.2 ⟨admin, adminAt, signed, isAdmin⟩ fees flag

private theorem processRegisterIntegrator_book (success : processRegisterIntegrator dep fr accounts m = .ok m') :
    BookRefines dep fr accounts data 12 m m' := by
  simp only [processRegisterIntegrator, Except.bind_eq_ok, Except.ensure_eq_ok, exists_const, accountAt_eq_ok,
    checkZeroData] at success
  obtain ⟨payer, payerAt, recordPda, _, systemProgram, _, rentSysvar, _, signed, address, _, rent, _, made, creation,
    store⟩ := success
  have created := initializePdaAccount_eq_ok creation (rent.minimumBalance_pos _)
  have stored := Stored.of_writeData store
  rw [created.data_self, FeeRecord.write, splice_whole (by simp)] at stored
  obtain ⟨fresh, after, funded⟩ := book_of_created_stored creation (rent.minimumBalance_pos _) stored rfl
  refine ⟨?_, funded⟩
  rw [after, address]
  rw [address] at fresh
  exact .register ⟨payer, payerAt, signed, rfl⟩ fresh

private theorem processInitializeTreasuryShard_book
    (success : processInitializeTreasuryShard dep accounts data m = .ok m') :
    BookRefines dep fr accounts data 14 m m' := by
  simp only [processInitializeTreasuryShard, Except.bind_eq_ok, Except.ensure_eq_ok, exists_const,
    accountAt_eq_ok, checkZeroData] at success
  obtain ⟨_, payer, _, _, configPda, _, admin, adminAt, shardPda, _, systemProgram, _, rentSysvar, _, signed, _, load,
    isAdmin, _, address, _, rent, _, made, creation, store⟩ := success
  have created := initializePdaAccount_eq_ok creation (rent.minimumBalance_pos _)
  have stored := Stored.of_writeData store
  rw [created.data_self, splice_whole (by simp)] at stored
  obtain ⟨fresh, after, funded⟩ := book_of_created_stored creation (rent.minimumBalance_pos _) stored rfl
  refine ⟨?_, funded⟩
  rw [after, address]
  rw [address] at fresh
  exact .initializeShard (ProtocolConfig.load_eq_ok load).2.2 ⟨admin, adminAt, signed, isAdmin⟩ fresh

private theorem processProposeProtocolAdmin_book (success : processProposeProtocolAdmin dep accounts data m = .ok m') :
    BookRefines dep fr accounts data 15 m m' := by
  simp only [processProposeProtocolAdmin, Except.bind_eq_ok, Except.ensure_eq_ok, exists_const,
    accountAt_eq_ok] at success
  obtain ⟨_, admin, adminAt, configPda, _, signed, _, loading, isAdmin, store⟩ := success
  have load := loadConfig_eq_ok loading
  obtain ⟨after, funded⟩ := book_of_config load rfl store
  refine ⟨?_, funded⟩
  rw [after]
  exact .propose (ProtocolConfig.load_eq_ok load).2.2 ⟨admin, adminAt, signed, isAdmin⟩

private theorem processAcceptProtocolAdmin_book (success : processAcceptProtocolAdmin dep accounts m = .ok m') :
    BookRefines dep fr accounts data 16 m m' := by
  simp only [processAcceptProtocolAdmin, Except.bind_eq_ok, Except.ensure_eq_ok, exists_const,
    accountAt_eq_ok] at success
  obtain ⟨newAdmin, newAdminAt, configPda, _, signed, _, loading, ⟨proposed, isPending⟩, store⟩ := success
  have load := loadConfig_eq_ok loading
  obtain ⟨after, funded⟩ := book_of_config load rfl store
  refine ⟨?_, funded⟩
  rw [after]
  exact .accept (ProtocolConfig.load_eq_ok load).2.2 ⟨newAdmin, newAdminAt, signed, isPending⟩ proposed

/-- A withdrawal moves lamports only, and leaves an account that held the rent minimum of a shard with at
least that much. -/
theorem processWithdrawTreasury_lamports (success : processWithdrawTreasury dep accounts m = .ok m') :
    Machine.Unmoved m m' ∧
      ∀ key, min (m.lamports key) (dep.rent.minimumBalance TreasuryShard.size) ≤ m'.lamports key := by
  simp only [processWithdrawTreasury, Except.bind_eq_ok, Except.ensure_eq_ok, exists_const,
    accountAt_eq_ok] at success
  obtain ⟨admin, _, configPda, _, shardPda, _, treasury, _, rentSysvar, _, _, _, _, _, _, _, _, _, rent, schedule,
    sweep⟩ := success
  cases Rent.fromAccountInfo_eq_ok schedule
  split at sweep
  · cases sweep
    exact ⟨.refl m, fun key => Nat.min_le_left _ _⟩
  · next above =>
    simp only [Except.bind_eq_ok, Except.ensure_eq_ok, exists_const] at sweep
    obtain ⟨swept, debit, _, credit⟩ := sweep
    refine ⟨(Machine.writeLamports_unmoved debit).trans (Machine.writeLamports_unmoved credit), fun key => ?_⟩
    rw [Machine.writeLamports_eq_ok credit]
    rw [Machine.writeLamports_eq_ok debit]
    simp only [Machine.lamports_setAccount]
    split
    · next atTreasury =>
      subst atTreasury
      split
      · omega
      · omega
    · split
      · next atShard =>
        subst atShard
        exact Nat.min_le_right _ _
      · exact Nat.min_le_left _ _

private theorem processWithdrawTreasury_book (success : processWithdrawTreasury dep accounts m = .ok m') :
    BookRefines dep fr accounts data 13 m m' := by
  obtain ⟨unmoved, least⟩ := processWithdrawTreasury_lamports success
  have same : book dep m'.ledger = book dep m.ledger := by
    funext key
    simp only [book, show (m'.ledger key).owner = (m.ledger key).owner from unmoved.owner key,
      show (m'.ledger key).data = (m.ledger key).data from unmoved.data key]
  refine ⟨?_, fun funded key live => ?_⟩
  · rw [same]
    exact .spared rfl
  · rw [same] at live
    have positive : 0 < m.lamports key := funded key live
    have minimum := dep.rent.minimumBalance_pos TreasuryShard.size
    exact (lt_min positive minimum).trans_le (least key)

/-- The top-up a new account needs comes out of the payer's balance. -/
theorem initializePdaAccount_lamports {payer target system : AccountInfo} {space rent : ℕ}
    (success : initializePdaAccount dep m payer target system space rent = .ok m') (distinct : payer.key ≠ target.key) :
    rent - m.lamports target.key ≤ m.lamports payer.key ∧
      ∀ key, m'.lamports key =
        if key = target.key then m.lamports target.key + (rent - m.lamports target.key)
        else if key = payer.key then m.lamports payer.key - (rent - m.lamports target.key) else m.lamports key := by
  simp only [initializePdaAccount, Except.bind_eq_ok, Except.ensure_eq_ok, exists_const] at success
  obtain ⟨_, paid, payment, allocated, allocation, assignment⟩ := success
  obtain ⟨_, _, rfl⟩ := Machine.systemAllocate_eq_ok allocation
  have kept (key : Pubkey) : m'.lamports key = paid.lamports key := by
    rw [Machine.systemAssign_eq_ok assignment, Machine.lamports_setAccount, Machine.lamports_setAccount]
    split
    · next at_ =>
      rw [at_]
      simp [Machine.ledger_setAccount, Machine.lamports]
    · rfl
  split at payment
  · refine ⟨(Machine.systemTransfer_eq_ok payment).2.1, fun key => ?_⟩
    rw [kept, Machine.systemTransfer_lamports payment distinct]
  · next enough =>
    cases payment
    refine ⟨by omega, fun key => ?_⟩
    rw [kept]
    split
    · next at_ =>
      rw [at_]
      omega
    · split
      · next at_ =>
        rw [at_]
        omega
      · rfl

/-- What the collection of a fee does in front of an instruction: nothing, or it moves the configured fee
from the payer, who signed, to a shard at its address and enters it in the payer's record, which it first
creates where there is none. -/
inductive FeeStep (dep : Deployment) (fr : Frame) (discriminator : UInt8) (accounts : List AccountInfo)
    (m m' : Machine Approval) : ℕ → Prop
  | skipped {config : AccountInfo} (configAt : accounts[accounts.length - 4]? = some config)
      (address : config.key = ProtocolConfig.pda dep) (free : resolveFee dep m config discriminator = 0)
        (same : m' = m) :
      FeeStep dep fr discriminator accounts m m' 0
  | charged {config : AccountInfo} {payer record shard : Pubkey} {old shardBytes : Bytes} {bump : UInt8} {topUp : ℕ}
      (configAt : accounts[accounts.length - 4]? = some config) (address : config.key = ProtocolConfig.pda dep)
      (due : 0 < resolveFee dep m config discriminator)
      (signed : SignerAt accounts 0 payer)
      (recordAt : KeyAt accounts (accounts.length - 3) record) (recordIs : record = feeRecordAddress dep payer)
      (shardAt : KeyAt accounts (accounts.length - 2) shard) (shardRecorded : book dep m.ledger shard = some shardBytes)
      (shardChecked : TreasuryShard.check shardBytes = .ok ())
      (shardIs : shard = shardAddress dep (TreasuryShard.readShardId shardBytes))
      (previous : book dep m.ledger record = some old ∧ FeeRecord.check old = .ok () ∧ topUp = 0 ∨
        book dep m.ledger record = none ∧ old = (newFeeRecord bump fr.slot.toNat).toBytes)
      (bound : (FeeRecord.read old).totalFeesPaid + resolveFee dep m config discriminator < 2 ^ 64)
      (after : book dep m'.ledger = Function.update (book dep m.ledger) record (some (FeeRecord.write old
        ((FeeRecord.read old).charge (resolveFee dep m config discriminator) discriminator))))
      (affordable : topUp + resolveFee dep m config discriminator ≤ m.lamports payer)
      (balances : ∀ key, m'.lamports key =
        if key = shard then m.lamports shard + resolveFee dep m config discriminator
        else if key = payer then m.lamports payer - (topUp + resolveFee dep m config discriminator)
        else if key = record then m.lamports record + topUp else m.lamports key)
      (apart : shard ≠ payer ∧ shard ≠ record ∧ payer ≠ record)
        (funded : BookFunded dep m.ledger → BookFunded dep m'.ledger) :
      FeeStep dep fr discriminator accounts m m' (resolveFee dep m config discriminator)

/-- A shard is loaded from the book. -/
theorem loadTreasuryShard_eq_ok {shard : AccountInfo} (owned : m.owner shard.key = dep.programId)
    (success : loadTreasuryShard dep m shard = .ok ()) :
    book dep m.ledger shard.key = some (m.data shard.key) ∧ TreasuryShard.check (m.data shard.key) = .ok () ∧
      shard.key = shardAddress dep (TreasuryShard.readShardId (m.data shard.key)) := by
  have tagged := loadTreasuryShard_tag success
  simp only [loadTreasuryShard, Except.bind_eq_ok, Except.ensure_eq_ok, Except.mapError_eq_ok] at success
  obtain ⟨_, checked, address⟩ := success
  exact ⟨book_of_tag owned (by rw [tagged]; rfl), checked, address⟩

/-- The payer's record is there once it is ensured: it was, or it is new. -/
theorem ensureFeeRecord_book {payer record system : AccountInfo} {bump : UInt8} (distinct : payer.key ≠ record.key)
    (success : ensureFeeRecord dep fr m payer record system bump = .ok m') :
    ∃ old topUp, (book dep m.ledger record.key = some old ∧ FeeRecord.check old = .ok () ∧ topUp = 0 ∨
        book dep m.ledger record.key = none ∧ old = (newFeeRecord bump fr.slot.toNat).toBytes) ∧
      m'.owner record.key = dep.programId ∧ m'.data record.key = old ∧
      book dep m'.ledger = Function.update (book dep m.ledger) record.key (some old) ∧
      (∀ key, key ≠ record.key → m'.owner key = m.owner key ∧ m'.data key = m.data key) ∧
      topUp ≤ m.lamports payer.key ∧
      (∀ key, m'.lamports key = if key = record.key then m.lamports record.key + topUp
        else if key = payer.key then m.lamports payer.key - topUp else m.lamports key) ∧
      (BookFunded dep m.ledger → BookFunded dep m'.ledger) := by
  unfold ensureFeeRecord at success
  split at success
  · simp only [Except.bind_eq_ok] at success
    obtain ⟨made, creation, store⟩ := success
    have created := initializePdaAccount_eq_ok creation (dep.rent.minimumBalance_pos _)
    have stored := Stored.of_writeData store
    rw [created.data_self, FeeRecord.write, splice_whole (by simp)] at stored
    obtain ⟨fresh, after, funded⟩ := book_of_created_stored creation (dep.rent.minimumBalance_pos _) stored rfl
    obtain ⟨affordable, balances⟩ := initializePdaAccount_lamports creation distinct
    refine ⟨_, _, .inr ⟨fresh, rfl⟩, ?_, stored.data_self, after, fun key other => ⟨?_, ?_⟩, affordable, fun key => ?_,
      funded⟩
    · rw [stored.owner, created.owner_self]
    · rw [stored.owner, created.owner, if_neg other]
    · rw [stored.data_of_ne other, created.data, if_neg other]
    · rw [stored.lamports, balances]
  · split at success
    · cases success
    · next owned =>
      simp only [Except.bind_eq_ok, Except.mapError_eq_ok] at success
      obtain ⟨_, checked, same⟩ := success
      cases Except.ok.inj same
      have owned := not_not.mp owned
      have recorded : book dep m.ledger record.key = some (m.data record.key) :=
        book_of_tag owned (by rw [checkHeader_tag checked]; rfl)
      refine ⟨_, 0, .inl ⟨recorded, checked, rfl⟩, owned, rfl, ?_, fun _ _ => ⟨rfl, rfl⟩, Nat.zero_le _,
        fun key => ?_, id⟩
      · rw [← recorded, Function.update_eq_self]
      · split
        · next at_ => rw [at_, Nat.add_zero]
        · split
          · next at_ => rw [at_, Nat.sub_zero]
          · rfl

private theorem isProtocolTag_charge {old : Bytes} (tag : old.byte 0 = AccountDiscriminator.feeRecord.toByte) (fee : ℕ)
    (discriminator : UInt8) :
    isProtocolTag ((FeeRecord.write old ((FeeRecord.read old).charge fee discriminator)).byte 0) = true := by
  change isProtocolTag ((FeeRecord.read old).charge fee discriminator).discriminator = true
  rw [FeeRecord.discriminator_charge, show (FeeRecord.read old).discriminator = _ from tag]
  rfl

theorem tryCollectFee_book {discriminator : UInt8} {rest : List AccountInfo}
    (success : tryCollectFee dep fr discriminator accounts m = .ok (m', rest)) :
    ∃ fee, FeeStep dep fr discriminator accounts m m' fee := by
  simp only [tryCollectFee, Except.bind_eq_ok, Except.ensure_eq_ok, exists_const, accountAt_eq_ok] at success
  obtain ⟨_, config, configAt, record, recordAt, shard, shardAt, system, _, _, address, success⟩ := success
  split at success
  · next free =>
    cases success
    exact ⟨0, .skipped configAt address free rfl⟩
  · next due =>
    simp only [Except.bind_eq_ok, Except.ensure_eq_ok, exists_const, accountAt_eq_ok] at success
    obtain ⟨shardOwned, _, load, payer, payerAt, signed, recordIs, recorded, ensured, paid, transfer, bound, charged,
      store, result⟩ := success
    cases Except.ok.inj result
    obtain ⟨shardRecorded, shardChecked, shardIs⟩ := loadTreasuryShard_eq_ok shardOwned load
    obtain ⟨_, tagged⟩ := ensureFeeRecord_eq_ok ensured
    obtain ⟨empty, affordable, unmoved, _⟩ := Machine.systemTransfer_eq_ok transfer
    have payerNotRecord : payer.key ≠ record.key := by
      intro same
      rw [← same, empty] at tagged
      exact absurd tagged (by decide)
    obtain ⟨old, topUp, previous, owned, oldData, entered, kept, cover, balances, funded⟩ :=
      ensureFeeRecord_book payerNotRecord ensured
    have shardNotRecord : shard.key ≠ record.key := by
      intro same
      rw [same] at shardRecorded
      rcases previous with ⟨there, checked, _⟩ | ⟨fresh, _⟩
      · rw [shardRecorded] at there
        cases there
        have shardTag := (TreasuryShard.check_eq_ok.mp shardChecked).2
        rw [same, checkHeader_tag checked] at shardTag
        exact absurd shardTag (by decide)
      · rw [shardRecorded] at fresh
        cases fresh
    have payerNotShard : payer.key ≠ shard.key := by
      intro same
      rw [same, (kept shard.key shardNotRecord).2] at empty
      have shardTag := (TreasuryShard.check_eq_ok.mp shardChecked).2
      rw [empty] at shardTag
      exact absurd shardTag (by decide)
    have stored := Stored.of_writeData store
    rw [unmoved.data, oldData] at stored bound
    have oldTag : old.byte 0 = AccountDiscriminator.feeRecord.toByte := by rw [← oldData, tagged]
    have paidSpares : Spares dep recorded paid := .of_systemTransfer transfer
    have payerBalance : recorded.lamports payer.key = m.lamports payer.key - topUp := by
      rw [balances, if_neg payerNotRecord, if_pos rfl]
    rw [payerBalance] at affordable
    refine ⟨_, .charged configAt address (Nat.pos_of_ne_zero due) ⟨payer, payerAt, signed, rfl⟩ ⟨record, recordAt, rfl⟩
      recordIs ⟨shard, shardAt, rfl⟩ shardRecorded shardChecked shardIs previous bound ?_ ?_ ?_
      ⟨payerNotShard.symm, shardNotRecord, payerNotRecord⟩ fun start => ?_⟩
    · rw [stored.book ((unmoved.owner _).trans owned), entryData_of_tag (isProtocolTag_charge oldTag _ _),
        paidSpares.book, entered, Function.update_idem]
    · omega
    · intro key
      rw [stored.lamports, Machine.systemTransfer_lamports transfer payerNotShard, balances shard.key,
        if_neg shardNotRecord, if_neg payerNotShard.symm, payerBalance, balances key]
      split
      · rfl
      · split
        · omega
        · rfl
    · have recordLive : book dep recorded.ledger record.key ≠ none := by
        rw [entered, Function.update_self]
        exact Option.some_ne_none _
      have positive := (paidSpares.funded (funded start)) record.key (by rwa [paidSpares.book])
      exact stored.bookFunded positive (paidSpares.funded (funded start))

theorem dispatch_book {discriminator : UInt8} {processorAccounts : List AccountInfo}
    (same : isFeeEligible discriminator = false → accounts = processorAccounts)
    (success : dispatch dep fr discriminator processorAccounts accounts data m = .ok m') :
    BookRefines dep fr processorAccounts data discriminator m m' := by
  unfold dispatch at success
  split at success
  · exact (processCreateWallet_spares success).refines rfl
  · exact (processAddAuthority_spares success).refines rfl
  · exact (processRemoveAuthority_spares success).refines rfl
  · exact (processTransferOwnership_spares success).refines rfl
  · exact (processExecute_spares success).refines rfl
  · exact (processCreateSession_spares success).refines rfl
  · exact (processAuthorize_spares success).refines rfl
  · exact (processExecuteDeferred_spares success).refines rfl
  · exact (processReclaimDeferred_spares success).refines rfl
  · exact (processRevokeSession_spares success).refines rfl
  · rw [same rfl] at success
    exact processInitializeProtocol_book success
  · rw [same rfl] at success
    exact processUpdateProtocol_book success
  · rw [same rfl] at success
    exact processRegisterIntegrator_book success
  · rw [same rfl] at success
    exact processWithdrawTreasury_book success
  · rw [same rfl] at success
    exact processInitializeTreasuryShard_book success
  · rw [same rfl] at success
    exact processProposeProtocolAdmin_book success
  · rw [same rfl] at success
    exact processAcceptProtocolAdmin_book success
  · exact (processMigrateWallet_spares success).refines rfl
  · exact (processCloseExpiredSession_spares success).refines rfl
  · cases success

end LazorKit
