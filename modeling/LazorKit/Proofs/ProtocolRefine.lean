import LazorKit.Proofs.ExecuteRefine

/-! # The protocol layer, fee collection and migration touch no record

Configurations, fee records, treasury shards and v1 accounts carry tags of their own, so whatever
is written to them leaves the registry as it was.
-/

namespace LazorKit

open Solana

variable {dep : Deployment} {fr : Frame} {accounts : List AccountInfo} {data : Bytes}
  {m m' m'' : Machine Approval}

/-- The records and the approvals are as they were, and records stay funded. -/
structure Quiet (dep : Deployment) (m m' : Machine Approval) : Prop where
  registry : registry dep m'.ledger = registry dep m.ledger
  approved : m'.approved = m.approved
  funded : Funded dep m.ledger → Funded dep m'.ledger

namespace Quiet

theorem refl (dep : Deployment) (m : Machine Approval) : Quiet dep m m := ⟨rfl, rfl, id⟩

theorem trans (first : Quiet dep m m') (second : Quiet dep m' m'') : Quiet dep m m'' :=
  ⟨second.registry.trans first.registry, second.approved.trans first.approved, second.funded ∘ first.funded⟩

/-- A quiet protocol instruction is the transition that changes nothing. -/
theorem refines {discriminator : UInt8} (quiet : Quiet dep m m')
    (layer : 10 ≤ discriminator ∧ discriminator ≤ 16) : Refines dep fr accounts data discriminator m m' := by
  refine ⟨[], ?_, by rw [quiet.approved, List.append_nil], quiet.funded⟩
  rw [quiet.registry]
  exact .protocol layer

theorem of_created {target : Pubkey} {space : ℕ} (created : Created dep m m' target space) : Quiet dep m m' :=
  ⟨created.registry, created.approved, created.funded⟩

theorem of_foreign (foreign : Foreign dep m m') : Quiet dep m m' :=
  ⟨foreign.registry, foreign.approved, funded_respects foreign.respects⟩

theorem of_systemTransfer {source target : AccountInfo} {signs : Bool} {amount : ℕ}
    (success : m.systemTransfer source target signs amount = .ok m') : Quiet dep m m' := by
  obtain ⟨_, _, unmoved, _⟩ := Machine.systemTransfer_eq_ok success
  exact ⟨registry_unmoved unmoved, unmoved.approved, funded_systemTransfer success⟩

/-- Storing bytes that are no record where there was none. -/
theorem of_stored {key : Pubkey} {bytes : Bytes} (stored : Stored m m' key bytes)
    (before : LazorKit.registry dep m.ledger key = none) (after : recordData bytes = none)
    (approved : m'.approved = m.approved) : Quiet dep m m' := by
  have same : LazorKit.registry dep m'.ledger = LazorKit.registry dep m.ledger := by
    funext other
    by_cases at_ : other = key
    · subst at_
      by_cases owned : m.owner other = dep.programId
      · rw [stored.registry owned, Function.update_self, after, before]
      · rw [before]
        apply registry_of_not_owned
        rw [show (m'.ledger other).owner = m.owner other from stored.owner other]
        exact owned
    · have data : (m'.ledger other).data = (m.ledger other).data := stored.data_of_ne at_
      have owner : (m'.ledger other).owner = (m.ledger other).owner := stored.owner other
      simp only [LazorKit.registry, recordOf, data, owner]
  refine ⟨same, approved, fun funded key live => ?_⟩
  rw [same] at live
  rw [show (m'.ledger key).lamports = m.lamports key from stored.lamports key]
  exact funded key live

/-- Changing the lamports of an account that is no record. -/
theorem of_writeLamports {acc : AccountInfo} {amount : ℕ}
    (before : LazorKit.registry dep m.ledger acc.key = none ∨ m.lamports acc.key ≤ amount)
    (success : m.writeLamports dep.toRuntime acc amount = .ok m') : Quiet dep m m' := by
  have unmoved := Machine.writeLamports_unmoved success
  refine ⟨registry_unmoved unmoved, unmoved.approved, fun funded key live => ?_⟩
  rw [registry_unmoved unmoved] at live
  rw [Machine.writeLamports_eq_ok success]
  by_cases at_ : key = acc.key
  · subst at_
    rw [Machine.ledger_setAccount, Ledger.set_self]
    cases before with
    | inl none => exact absurd none live
    | inr more => exact (funded _ live).trans_le more
  · rw [Machine.ledger_setAccount, Ledger.set_of_ne at_]
    exact funded key live

/-- Closing an account that is no record. -/
theorem of_closed {closed refund : Pubkey} (close : Closed dep m m' closed refund)
    (before : LazorKit.registry dep m.ledger closed = none) : Quiet dep m m' := by
  refine ⟨?_, close.approved, close.funded⟩
  rw [close.registry, ← before, Function.update_eq_self]

end Quiet

private theorem recordData_splice_front (old rest : Bytes) {tag : UInt8} (other : isRecordTag tag = false) :
    recordData (old.splice 0 (tag :: rest)) = none := recordData_of_not_tag other

private theorem registry_of_other_tag {key : Pubkey} (other : isRecordTag ((m.data key).byte 0) = false) :
    registry dep m.ledger key = none := by
  by_cases owned : (m.ledger key).owner = dep.programId
  · rw [registry_of_owned owned]
    exact recordData_of_not_tag other
  · exact registry_of_not_owned owned

theorem checkHeader_tag {bytes : Bytes} {expected : AccountDiscriminator} {version : Option ℕ} {minLen : ℕ}
    (checked : checkHeader bytes expected version minLen = .ok ()) : bytes.byte 0 = expected.toByte := by
  simp only [checkHeader, Except.bind_eq_ok, Except.ensure_eq_ok, exists_const] at checked
  exact checked.2.1

/-- Creating an account of the protocol layer and filling in its header. -/
theorem Quiet.of_created_stored {acc : AccountInfo} {space : ℕ} {made : Machine Approval} {tag : UInt8}
    {rest : Bytes} (created : Created dep m made acc.key space) (other : isRecordTag tag = false)
    (store : made.writeData dep.toRuntime acc ((made.data acc.key).splice 0 (tag :: rest)) = .ok m') :
    Quiet dep m m' := by
  obtain ⟨stored, approved, _⟩ := writeData_eq_ok store
  have unrecorded : LazorKit.registry dep made.ledger acc.key = none := by
    rw [created.registry, created.wasUnrecorded]
  exact (Quiet.of_created created).trans
    (Quiet.of_stored stored unrecorded (recordData_splice_front _ _ other) approved)

/-- Rewriting the header of an account of the protocol layer under its own tag. -/
theorem Quiet.of_rewritten {acc : AccountInfo} (tag : UInt8) {rest : Bytes} (other : isRecordTag tag = false)
    (tagged : (m.data acc.key).byte 0 = tag)
    (store : m.writeData dep.toRuntime acc ((m.data acc.key).splice 0 (tag :: rest)) = .ok m') :
    Quiet dep m m' := by
  obtain ⟨stored, approved, _⟩ := writeData_eq_ok store
  exact Quiet.of_stored stored (registry_of_other_tag (by rw [tagged, other]))
    (recordData_splice_front _ _ other) approved

theorem ProtocolConfig.load_tag {acc : AccountInfo} (success : ProtocolConfig.load dep m acc = .ok ()) :
    (m.data acc.key).byte 0 = AccountDiscriminator.protocolConfig.toByte := by
  simp only [ProtocolConfig.load, Except.bind_eq_ok, Except.ensure_eq_ok, exists_const,
    Except.mapError_eq_ok] at success
  exact checkHeader_tag success.2.2

private theorem loadConfig_tag {acc : AccountInfo} (success : loadConfig dep m acc = .ok ()) :
    (m.data acc.key).byte 0 = AccountDiscriminator.protocolConfig.toByte := by
  simp only [loadConfig, Except.bind_eq_ok, Except.ensure_eq_ok] at success
  obtain ⟨_, loaded, _⟩ := success
  exact ProtocolConfig.load_tag loaded

theorem loadTreasuryShard_tag {acc : AccountInfo} (success : loadTreasuryShard dep m acc = .ok ()) :
    (m.data acc.key).byte 0 = AccountDiscriminator.treasuryShard.toByte := by
  simp only [loadTreasuryShard, Except.bind_eq_ok, Except.mapError_eq_ok] at success
  obtain ⟨_, checked, _⟩ := success
  exact checkHeader_tag checked

/-- Rewriting a loaded configuration with the tag it was read with. -/
theorem Quiet.of_config {acc : AccountInfo} {config : ProtocolConfig}
    (tagged : (m.data acc.key).byte 0 = AccountDiscriminator.protocolConfig.toByte)
    (tag : config.discriminator = (m.data acc.key).byte 0)
    (store : m.writeData dep.toRuntime acc (ProtocolConfig.write (m.data acc.key) config) = .ok m') :
    Quiet dep m m' :=
  Quiet.of_rewritten config.discriminator (by rw [tag, tagged]; rfl) tag.symm store

theorem processInitializeProtocol_quiet (success : processInitializeProtocol dep accounts data m = .ok m') :
    Quiet dep m m' := by
  simp only [processInitializeProtocol, Except.bind_eq_ok, Except.ensure_eq_ok, exists_const, accountAt_eq_ok,
    checkZeroData] at success
  obtain ⟨_, _, _, _, payer, _, configPda, _, systemProgram, _, rentSysvar, _, _, _, _, _, rent, _, made,
    creation, store⟩ := success
  exact Quiet.of_created_stored (initializePdaAccount_eq_ok creation (rent.minimumBalance_pos _)) rfl store

theorem processUpdateProtocol_quiet (success : processUpdateProtocol dep accounts data m = .ok m') :
    Quiet dep m m' := by
  simp only [processUpdateProtocol, Except.bind_eq_ok, Except.ensure_eq_ok, exists_const,
    accountAt_eq_ok] at success
  obtain ⟨_, _, _, _, admin, _, configPda, _, _, _, loaded, _, store⟩ := success
  exact Quiet.of_config (ProtocolConfig.load_tag loaded) rfl store

theorem processRegisterIntegrator_quiet (success : processRegisterIntegrator dep fr accounts m = .ok m') :
    Quiet dep m m' := by
  simp only [processRegisterIntegrator, Except.bind_eq_ok, Except.ensure_eq_ok, exists_const, accountAt_eq_ok,
    checkZeroData] at success
  obtain ⟨payer, _, recordPda, _, systemProgram, _, rentSysvar, _, _, _, _, rent, _, made, creation, store⟩ :=
    success
  exact Quiet.of_created_stored (initializePdaAccount_eq_ok creation (rent.minimumBalance_pos _)) rfl store

theorem processWithdrawTreasury_quiet (success : processWithdrawTreasury dep accounts m = .ok m') :
    Quiet dep m m' := by
  simp only [processWithdrawTreasury, Except.bind_eq_ok, Except.ensure_eq_ok, exists_const,
    accountAt_eq_ok] at success
  obtain ⟨admin, _, configPda, _, shardPda, _, treasury, _, rentSysvar, _, _, _, loaded, _, _, _, _, shard, rent, _,
    sweep⟩ := success
  split at sweep
  · cases sweep
    exact .refl dep m
  · simp only [Except.bind_eq_ok, Except.ensure_eq_ok, exists_const] at sweep
    obtain ⟨swept, debit, _, credit⟩ := sweep
    refine (Quiet.of_writeLamports (.inl ?_) debit).trans
      (Quiet.of_writeLamports (.inr (Nat.le_add_right _ _)) credit)
    apply registry_of_other_tag
    rw [loadTreasuryShard_tag shard]
    rfl

theorem processInitializeTreasuryShard_quiet
    (success : processInitializeTreasuryShard dep accounts data m = .ok m') : Quiet dep m m' := by
  simp only [processInitializeTreasuryShard, Except.bind_eq_ok, Except.ensure_eq_ok, exists_const,
    accountAt_eq_ok, checkZeroData] at success
  obtain ⟨_, payer, _, _, configPda, _, admin, _, shardPda, _, systemProgram, _, rentSysvar, _, _, _, _, _, _, _, _,
    rent, _, made, creation, store⟩ := success
  exact Quiet.of_created_stored (initializePdaAccount_eq_ok creation (rent.minimumBalance_pos _)) rfl store

theorem processProposeProtocolAdmin_quiet (success : processProposeProtocolAdmin dep accounts data m = .ok m') :
    Quiet dep m m' := by
  simp only [processProposeProtocolAdmin, Except.bind_eq_ok, Except.ensure_eq_ok, exists_const,
    accountAt_eq_ok] at success
  obtain ⟨_, admin, _, configPda, _, _, _, loaded, _, store⟩ := success
  exact Quiet.of_config (loadConfig_tag loaded) rfl store

theorem processAcceptProtocolAdmin_quiet (success : processAcceptProtocolAdmin dep accounts m = .ok m') :
    Quiet dep m m' := by
  simp only [processAcceptProtocolAdmin, Except.bind_eq_ok, Except.ensure_eq_ok, exists_const,
    accountAt_eq_ok] at success
  obtain ⟨newAdmin, _, configPda, _, _, _, loaded, _, store⟩ := success
  exact Quiet.of_config (loadConfig_tag loaded) rfl store

/-- After the fee record was created or checked, it carries its tag. -/
theorem ensureFeeRecord_eq_ok {payer record systemProgram : AccountInfo} {bump : UInt8}
    (success : ensureFeeRecord dep fr m payer record systemProgram bump = .ok m') :
    Quiet dep m m' ∧ (m'.data record.key).byte 0 = AccountDiscriminator.feeRecord.toByte := by
  unfold ensureFeeRecord at success
  split at success
  · simp only [Except.bind_eq_ok] at success
    obtain ⟨made, creation, store⟩ := success
    refine ⟨Quiet.of_created_stored (initializePdaAccount_eq_ok creation (dep.rent.minimumBalance_pos _)) rfl
      store, ?_⟩
    rw [(writeData_eq_ok store).1.data_self]
    rfl
  · split at success
    · cases success
    · simp only [Except.bind_eq_ok, Except.mapError_eq_ok] at success
      obtain ⟨_, checked, same⟩ := success
      cases Except.ok.inj same
      exact ⟨.refl dep m, checkHeader_tag checked⟩

theorem FeeRecord.discriminator_charge (record : FeeRecord) (fee : ℕ) (discriminator : UInt8) :
    (record.charge fee discriminator).discriminator = record.discriminator := by
  unfold FeeRecord.charge
  split <;> rfl

theorem tryCollectFee_eq_ok {discriminator : UInt8} {rest : List AccountInfo}
    (success : tryCollectFee dep fr discriminator accounts m = .ok (m', rest)) :
    Quiet dep m m' ∧ rest = accounts.take (accounts.length - 4) := by
  simp only [tryCollectFee, Except.bind_eq_ok, Except.ensure_eq_ok, exists_const, accountAt_eq_ok] at success
  obtain ⟨_, config, _, record, _, shard, _, system, _, _, _, success⟩ := success
  split at success
  · cases success
    exact ⟨.refl dep m, rfl⟩
  · simp only [Except.bind_eq_ok, Except.ensure_eq_ok, exists_const, accountAt_eq_ok] at success
    obtain ⟨_, _, _, payer, _, _, _, recorded, ensured, paid, transfer, _, charged, store, result⟩ := success
    cases Except.ok.inj result
    obtain ⟨quiet, tagged⟩ := ensureFeeRecord_eq_ok ensured
    have sameData := (Machine.systemTransfer_eq_ok transfer).2.2.1.data record.key
    rw [← sameData] at tagged
    refine ⟨(quiet.trans (Quiet.of_systemTransfer transfer)).trans
      (Quiet.of_rewritten ((FeeRecord.read (paid.data record.key)).charge _ discriminator).discriminator ?_ ?_ store),
        rfl⟩
    · rw [FeeRecord.discriminator_charge, show (FeeRecord.read (paid.data record.key)).discriminator = _ from tagged]
      rfl
    · rw [FeeRecord.discriminator_charge]
      rfl

private theorem invoke_foreign {ix : Instruction} (success : m.invoke dep.toRuntime fr ix = .ok m') :
    Foreign dep m m' := by
  obtain ⟨respects, approved, _⟩ := Machine.invoke_eq_ok success
  exact ⟨respects, approved⟩

theorem invoke_if_foreign {p : Prop} [Decidable p] {ix : Instruction}
    (success : (if p then m.invoke dep.toRuntime fr ix else .ok m) = .ok m') : Foreign dep m m' := by
  split at success
  · exact invoke_foreign success
  · cases success
    exact .refl dep m

theorem migrateToken_foreign {v1Vault destination refundDest : AccountInfo} {i : ℕ}
    (success : migrateToken dep fr accounts v1Vault destination refundDest m i = .ok m') : Foreign dep m m' := by
  simp only [migrateToken, Except.bind_eq_ok, Except.ensure_eq_ok, exists_const] at success
  obtain ⟨_, _, _, _, _, _, _, _, _, _, _, _, _, _, _, _, paid, transfer, close⟩ := success
  exact (invoke_if_foreign transfer).trans (invoke_foreign close)

private theorem closeProgramAccount_eq_ok {account refundDest : AccountInfo}
    (owned : m.owner account.key = dep.programId) (success : closeProgramAccount dep m account refundDest = .ok m') :
    Closed dep m m' account.key refundDest.key := by
  simp only [closeProgramAccount, Except.bind_eq_ok, Except.ensure_eq_ok, exists_const] at success
  obtain ⟨_, drained, drain, zero⟩ := success
  exact closed_of_drain_zero owned drain zero

/-- Migration authenticates a v1 authority over its arguments; everything else it does is quiet. -/
theorem processMigrateWallet_eq_ok (success : processMigrateWallet dep fr accounts data m = .ok m') :
    ∃ v1Authority authPayload signedPayload new approval,
      registry dep m.ledger v1Authority = none ∧ KeyAt accounts 2 v1Authority ∧
      KeyAt accounts 1 (AuthorityAccountHeader.read (m.data v1Authority)).wallet ∧
      AuthStep dep fr accounts v1Authority authPayload signedPayload 17 (m.data v1Authority) new approval ∧
      (∃ destination wallet refund sources, KeyAt accounts 4 destination ∧ KeyAt accounts 1 wallet ∧
        KeyAt accounts 5 refund ∧ migrationSources accounts (data.byte 0).toNat = .ok sources ∧
        signedPayload = migrationPayload destination wallet refund (data.byte 0) sources) ∧
      Quiet dep { m with approved := m.approved ++ [approval] } m' := by
  simp only [processMigrateWallet, Except.bind_eq_ok, Except.ensure_eq_ok, exists_const,
    accountAt_eq_ok] at success
  obtain ⟨_, payer, _, v1Wallet, walletAt, v1Authority, authorityAt, v1Vault, _, destination, destinationAt, refundDest,
    refundAt, systemProgram, _, _, _, _, _, _, _, ⟨walletOwned, authorityOwned⟩, walletTag, _, authorityTag, ofWallet,
    _, sources, listed, approvedBy,
    authentication, _, moved, tokens, paid, payment, _, closedAuthority, closeAuthority, closeWallet⟩ := success
  have walletNone : registry dep m.ledger v1Wallet.key = none := by
    apply registry_of_other_tag
    rw [Bytes.byte, List.getD_eq_getElem?_getD, ← List.head?_eq_getElem?, walletTag]
    rfl
  have authorityNone : registry dep m.ledger v1Authority.key = none := by
    apply registry_of_other_tag
    rw [authorityTag]
    rfl
  obtain ⟨new, approval, step, stored, approved, _⟩ := authenticate_eq_ok authentication rfl
  have newNone : recordData new = none := by
    apply recordData_of_not_tag
    rw [step.byte_eq (.inl (by decide)), authorityTag]
    rfl
  have foreign : Foreign dep approvedBy paid :=
    (Except.foldlM_preserves (Foreign.refl dep) (fun _ _ _ => Foreign.trans)
      (fun _ _ _ _ => migrateToken_foreign) tokens).trans (invoke_if_foreign payment)
  have authorityStill : paid.owner v1Authority.key = dep.programId :=
    (foreign.owned (by rw [stored.owner, authorityOwned])).1
  have walletStill : paid.owner v1Wallet.key = dep.programId :=
    (foreign.owned (by rw [stored.owner, walletOwned])).1
  have first := closeProgramAccount_eq_ok authorityStill closeAuthority
  have second := closeProgramAccount_eq_ok (by rw [first.owner, walletStill]) closeWallet
  -- up to the approval the authentication recorded, every step is quiet
  have storedQuiet : Quiet dep { m with approved := m.approved ++ [approval] } approvedBy := Quiet.of_stored
    ⟨stored.data, stored.owner, stored.lamports⟩ authorityNone newNone approved
  have movedQuiet := storedQuiet.trans (Quiet.of_foreign foreign)
  have firstQuiet := movedQuiet.trans (Quiet.of_closed first (by rw [movedQuiet.registry]; exact authorityNone))
  have quiet := firstQuiet.trans (Quiet.of_closed second (by rw [firstQuiet.registry]; exact walletNone))
  exact ⟨v1Authority.key, _, _, new, approval, authorityNone, ⟨_, authorityAt, rfl⟩,
    ⟨_, walletAt, ofWallet.symm⟩, step, ⟨_, _, _, sources, ⟨_, destinationAt, rfl⟩,
    ⟨_, walletAt, rfl⟩, ⟨_, refundAt, rfl⟩, listed, rfl⟩, quiet⟩

theorem processMigrateWallet_refines (success : processMigrateWallet dep fr accounts data m = .ok m') :
    Refines dep fr accounts data 17 m m' := by
  obtain ⟨_, _, _, _, approval, unrecorded, _, _, step, signs, quiet⟩ := processMigrateWallet_eq_ok success
  refine ⟨[approval], ?_, quiet.approved, quiet.funded⟩
  rw [quiet.registry]
  exact .migrate unrecorded step signs

end LazorKit
