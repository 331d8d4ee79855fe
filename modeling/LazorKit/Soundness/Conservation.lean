import LazorKit.Proofs.InnerInstructions
import LazorKit.Soundness.AccountTypes
import LazorKit.Soundness.Rent
import LazorKit.Soundness.TypeSafety

/-! # Every instruction conserves lamports

Whatever an instruction does, and whatever the programs it calls do, the accounts it was handed hold together what
they held before. The runtime checks this of the program too, after the program has accepted; it finds something
missing in one case only, when ExecuteDeferred is asked to close an authorization into itself.
-/

namespace LazorKit

open Solana Balances

variable {dep : Deployment} {fr : Frame} {accounts processorAccounts : List AccountInfo} {data : Bytes}
  {discriminator : UInt8} {m m' m'' : Machine Approval} {ledger : Ledger} {call : Call}

/-- What happened between two states left the sum over the listed accounts as it was. -/
def Keeps (accounts : List AccountInfo) (m m' : Machine Approval) : Prop :=
  Conserves (keysOf accounts) m.ledger.balances m'.ledger.balances

namespace Keeps

theorem refl (accounts : List AccountInfo) (m : Machine Approval) : Keeps accounts m m := Conserves.refl _ _

theorem trans (first : Keeps accounts m m') (second : Keeps accounts m' m'') : Keeps accounts m m'' :=
  Conserves.trans first second

theorem mono (keeps : Keeps accounts m m') (within : accounts ⊆ processorAccounts) : Keeps processorAccounts m m' :=
  Conserves.mono keeps (keysOf_subset within)

private theorem of_balances (same : m'.ledger.balances = m.ledger.balances) : Keeps accounts m m' :=
  Conserves.of_eq (congrFun same)

theorem of_stored {key : Pubkey} {bytes : Bytes} (stored : Stored m m' key bytes) : Keeps accounts m m' :=
  of_balances stored.balances

theorem of_writeData {acc : AccountInfo} {bytes : Bytes} (store : m.writeData dep.toRuntime acc bytes = .ok m') :
    Keeps accounts m m' := of_stored (writeData_eq_ok store).1

theorem of_authenticate {authority : AccountInfo} {kind : UInt8} {authPayload signedPayload : Bytes}
    (success : authenticate dep fr accounts m authority kind authPayload signedPayload discriminator = .ok m')
    (type : kind = (AuthorityAccountHeader.read (m.data authority.key)).authorityType) : Keeps accounts m m' :=
  of_balances (authenticate_balances success type)

private theorem of_transfers {source target : Pubkey} {amount i j : ℕ}
    (moved : Transfers m.ledger.balances m'.ledger.balances source target amount)
    (sourceAt : KeyAt accounts i source) (targetAt : KeyAt accounts j target) : Keeps accounts m m' := by
  apply moved.conserves.mono
  intro key member
  rcases Finset.mem_insert.mp member with rfl | member
  · exact sourceAt.mem_keysOf
  · cases Finset.mem_singleton.mp member
    exact targetAt.mem_keysOf

/-- Creating an account and filling it in. -/
theorem of_created {payer target system : AccountInfo} {space rent i j : ℕ} {made : Machine Approval}
    (creation : initializePdaAccount dep m payer target system space rent = .ok made)
    (payerAt : accountAt accounts i = .ok payer) (targetAt : accountAt accounts j = .ok target)
    (rest : Keeps accounts made m') : Keeps accounts m m' :=
  (of_transfers (initializePdaAccount_transfers creation) (keyAt_of_accountAt payerAt)
    (keyAt_of_accountAt targetAt)).trans rest

private theorem of_empties {closer : Closer} (empties : Empties accounts closer m.ledger m'.ledger) :
    Keeps accounts m m' := by
  obtain ⟨closed, refund, closedAt, refundAt, distinct, emptied⟩ := empties
  exact of_transfers (emptied.transfers distinct) closedAt refundAt

private theorem of_invoke {ix : Instruction} (balanced : fr.Balanced dep.toRuntime)
    (listed : ∀ entry ∈ ix.accounts, entry.pubkey ∈ keysOf accounts) (success : m.invoke dep.toRuntime fr ix = .ok m') :
    Keeps accounts m m' := by
  apply (Machine.invoke_conserves balanced success).mono
  intro key member
  obtain ⟨entry, among, rfl⟩ := List.mem_map.mp (List.mem_toFinset.mp member)
  exact listed entry among

private theorem of_invoke_if {ix : Instruction} {p : Prop} [Decidable p] (balanced : fr.Balanced dep.toRuntime)
    (listed : ∀ entry ∈ ix.accounts, entry.pubkey ∈ keysOf accounts)
    (success : (if p then m.invoke dep.toRuntime fr ix else .ok m) = .ok m') : Keeps accounts m m' := by
  split at success
  · exact of_invoke balanced listed success
  · cases success
    exact .refl _ _

end Keeps

private theorem processCreateWallet_keeps (success : processCreateWallet dep accounts data m = .ok m') :
    Keeps accounts m m' := by
  simp only [processCreateWallet, Except.bind_eq_ok, Except.ensure_eq_ok, exists_const, Except.ofOption_eq_ok,
    checkZeroData] at success
  obtain ⟨_, key, _, payer, payerAt, _, walletPda, walletAt, vaultPda, _, authPda, authAt, systemProgram, _, rentSysvar,
    _, rent, _, _, _, _, _, _, walletMade, walletInit, walletWritten, walletStore, authSpace, _, authMade, authInit,
    material, _, authStore⟩ := success
  have wallet : Keeps accounts m walletWritten := .of_created walletInit payerAt walletAt (.of_writeData walletStore)
  exact wallet.trans (.of_created authInit payerAt authAt (.of_writeData authStore))

private theorem processAddAuthority_keeps (success : processAddAuthority dep fr accounts data m = .ok m') :
    Keeps accounts m m' := by
  simp only [processAddAuthority, Except.bind_eq_ok, Except.ensure_eq_ok, exists_const, Except.ofOption_eq_ok,
    checkZeroData] at success
  obtain ⟨args, _, payer, payerAt, _, walletPda, _, adminAuthPda, _, newAuthPda, newAt, systemProgram, _, _, _, _, _,
    rentSysvar, _, rent, _, _, _, _, _, approvedBy, authentication, _, _, _, _, _, _, fixedLen, _, made, creation,
    counted, counting, material, _, store⟩ := success
  have recounted : Keeps accounts made counted := .of_stored (countOwner_eq_ok counting).1
  exact (Keeps.of_authenticate authentication rfl).trans
    (.of_created creation payerAt newAt (recounted.trans (.of_writeData store)))

/-- The new authority is paid for, then the old one is closed. -/
theorem processTransferOwnership_keeps (success : processTransferOwnership dep fr accounts data m = .ok m') :
    Keeps accounts m m' := by
  obtain ⟨funded, payer, new, _, _, closed, refund, payerAt, newAt, _, _, moved, closedAt, refundAt, distinct, _,
    emptied⟩ := processTransferOwnership_empties success
  have within {i j : ℕ} {first second : Pubkey} (one : KeyAt accounts i first) (two : KeyAt accounts j second) :
      {first, second} ⊆ keysOf accounts := by
    intro key member
    rcases Finset.mem_insert.mp member with rfl | member
    · exact one.mem_keysOf
    · cases Finset.mem_singleton.mp member
      exact two.mem_keysOf
  exact (moved.conserves.mono (within payerAt newAt)).trans
    ((emptied.transfers distinct).conserves.mono (within closedAt refundAt))

private theorem authenticateExecute_balances {walletPda authorityPda : AccountInfo} {ixs : List CompactInstruction}
    {compactLen : ℕ} {session : Option Pubkey}
    (success : authenticateExecute dep fr accounts data m walletPda authorityPda ixs compactLen = .ok (m', session)) :
    m'.ledger.balances = m.ledger.balances := by
  simp only [authenticateExecute] at success
  split at success
  · simp only [authenticateExecuteAuthority, Except.bind_eq_ok, Except.ensure_eq_ok, exists_const] at success
    obtain ⟨approved, ⟨_, _, _, success⟩, same⟩ := success
    cases Except.ok.inj same
    split at success
    · next kind => exact authenticate_balances success kind.symm
    · next kind =>
      simp only [Except.bind_eq_ok] at success
      obtain ⟨_, _, success⟩ := success
      exact authenticate_balances success kind.symm
    · cases success
  · split at success
    · simp only [Except.bind_eq_ok] at success
      obtain ⟨_, _, same⟩ := success
      cases Except.ok.inj same
      rfl
    · cases success

private theorem processExecute_keeps (balanced : fr.Balanced dep.toRuntime)
    (success : processExecute dep fr accounts data m = .ok m') : Keeps accounts m m' := by
  simp only [processExecute, Except.bind_eq_ok, Except.ensure_eq_ok, exists_const] at success
  obtain ⟨_, payer, _, _, walletPda, _, authorityPda, _, vaultPda, _, _, _, _, _, _, parsed, _, ⟨approvedBy, session⟩,
    authentication, _, _, _, progress, loop, tail⟩ := success
  have approved : Keeps accounts m approvedBy := .of_balances (authenticateExecute_balances authentication)
  have ran : Keeps accounts approvedBy progress.machine :=
    executeInner_foldlM_conserves balanced (executeTracked_foldlM loop)
  apply (approved.trans ran).trans
  split at tail
  · simp only [Except.bind_eq_ok] at tail
    obtain ⟨_, _, store⟩ := tail
    exact .of_writeData store
  · cases tail
    exact .refl _ _

/-- ExecuteDeferred conserves lamports up to the point where it closes the authorization. -/
theorem processExecuteDeferred_keeps (balanced : fr.Balanced dep.toRuntime)
    (success : processExecuteDeferred dep fr accounts data m = .ok m') :
    ∃ (executed : Machine Approval) (closed refund : Pubkey), KeyAt accounts 3 closed ∧ KeyAt accounts 4 refund ∧
      Keeps accounts m executed ∧ (m.ledger closed).lamports ≤ (executed.ledger closed).lamports ∧
      registry dep m.ledger closed = some (m.data closed) ∧ EmptiedInto executed.ledger m'.ledger closed refund := by
  obtain ⟨payer, vault, closed, refund, zeroed, executed, parsed, _, _, closedAt, refundAt, zero, _, loop, more, record,
    emptied⟩ := processExecuteDeferred_empties success
  have prepared : Keeps accounts m zeroed := .of_balances (zeroData_eq_ok zero).1.balances
  exact ⟨executed, closed.key, refund.key, ⟨_, closedAt, rfl⟩, ⟨_, refundAt, rfl⟩,
    prepared.trans (executeInner_foldlM_conserves balanced loop), more, record, emptied⟩

private theorem processAuthorize_keeps (success : processAuthorize dep fr accounts data m = .ok m') :
    Keeps accounts m m' := by
  simp only [processAuthorize, Except.bind_eq_ok, Except.ensure_eq_ok, exists_const] at success
  obtain ⟨payer, payerAt, walletPda, _, authorityPda, _, deferredPda, deferredAt, systemProgram, _, _, _, _, _, _, _,
    _, _, _, _, _, _, kind, _, _, approvedBy, authentication, _, _, made, creation, store⟩ := success
  exact (Keeps.of_authenticate authentication kind.symm).trans
    (.of_created creation payerAt deferredAt (.of_writeData store))

private theorem processCreateSession_keeps (success : processCreateSession dep fr accounts data m = .ok m') :
    Keeps accounts m m' := by
  simp only [processCreateSession, Except.bind_eq_ok, Except.ensure_eq_ok, exists_const, checkZeroData] at success
  obtain ⟨args, _, payer, payerAt, _, walletPda, _, authorizerPda, _, sessionPda, sessionAt, systemProgram, _,
    rentSysvar, _, rent, _, _, _, _, _, _, _, _, _, _, _, _, approvedBy, authentication, _, _, made, creation,
    store⟩ := success
  exact (Keeps.of_authenticate authentication rfl).trans
    (.of_created creation payerAt sessionAt (.of_writeData store))

private theorem processInitializeProtocol_keeps (success : processInitializeProtocol dep accounts data m = .ok m') :
    Keeps accounts m m' := by
  simp only [processInitializeProtocol, Except.bind_eq_ok, Except.ensure_eq_ok, exists_const, checkZeroData] at success
  obtain ⟨_, _, _, _, payer, payerAt, configPda, configAt, systemProgram, _, rentSysvar, _, _, _, _, _, rent, _, made,
    creation, store⟩ := success
  exact .of_created creation payerAt configAt (.of_writeData store)

private theorem processUpdateProtocol_keeps (success : processUpdateProtocol dep accounts data m = .ok m') :
    Keeps accounts m m' := by
  simp only [processUpdateProtocol, Except.bind_eq_ok, Except.ensure_eq_ok, exists_const] at success
  obtain ⟨_, _, _, _, admin, _, configPda, _, _, _, _, _, store⟩ := success
  exact .of_writeData store

private theorem processRegisterIntegrator_keeps (success : processRegisterIntegrator dep fr accounts m = .ok m') :
    Keeps accounts m m' := by
  simp only [processRegisterIntegrator, Except.bind_eq_ok, Except.ensure_eq_ok, exists_const, checkZeroData] at success
  obtain ⟨payer, payerAt, recordPda, recordAt, systemProgram, _, rentSysvar, _, _, _, _, rent, _, made, creation,
    store⟩ := success
  exact .of_created creation payerAt recordAt (.of_writeData store)

private theorem processInitializeTreasuryShard_keeps
    (success : processInitializeTreasuryShard dep accounts data m = .ok m') : Keeps accounts m m' := by
  simp only [processInitializeTreasuryShard, Except.bind_eq_ok, Except.ensure_eq_ok, exists_const,
    checkZeroData] at success
  obtain ⟨_, payer, payerAt, _, configPda, _, admin, _, shardPda, shardAt, systemProgram, _, rentSysvar, _, _, _, _, _,
    _, _, _, rent, _, made, creation, store⟩ := success
  exact .of_created creation payerAt shardAt (.of_writeData store)

private theorem processProposeProtocolAdmin_keeps (success : processProposeProtocolAdmin dep accounts data m = .ok m') :
    Keeps accounts m m' := by
  simp only [processProposeProtocolAdmin, Except.bind_eq_ok, Except.ensure_eq_ok, exists_const] at success
  obtain ⟨_, admin, _, configPda, _, _, _, _, _, store⟩ := success
  exact .of_writeData store

private theorem processAcceptProtocolAdmin_keeps (success : processAcceptProtocolAdmin dep accounts m = .ok m') :
    Keeps accounts m m' := by
  simp only [processAcceptProtocolAdmin, Except.bind_eq_ok, Except.ensure_eq_ok, exists_const] at success
  obtain ⟨newAdmin, _, configPda, _, _, _, _, _, store⟩ := success
  exact .of_writeData store

/-- A withdrawal is a transfer, also when the treasury is the shard itself. -/
theorem processWithdrawTreasury_keeps (success : processWithdrawTreasury dep accounts m = .ok m') :
    Keeps accounts m m' := by
  simp only [processWithdrawTreasury, Except.bind_eq_ok, Except.ensure_eq_ok, exists_const] at success
  obtain ⟨admin, _, configPda, _, shardPda, shardAt, treasury, treasuryAt, rentSysvar, _, _, _, _, _, _, _, _, _, rent,
    _, sweep⟩ := success
  split at sweep
  · cases sweep
    exact .refl _ _
  · next surplus =>
    simp only [Except.bind_eq_ok, Except.ensure_eq_ok, exists_const] at sweep
    obtain ⟨swept, debit, _, credit⟩ := sweep
    have moved : Transfers m.ledger.balances m'.ledger.balances shardPda.key treasury.key
        (m.lamports shardPda.key - rent.minimumBalance TreasuryShard.size) := by
      have debited (key : Pubkey) : swept.ledger.balances key = if key = shardPda.key then
          m.ledger.balances shardPda.key - (m.lamports shardPda.key - rent.minimumBalance TreasuryShard.size)
          else m.ledger.balances key := by
        change swept.lamports key = if key = shardPda.key then _ else m.lamports key
        rw [Machine.writeLamports_eq_ok debit, Machine.lamports_setAccount]
        split
        · exact (Nat.sub_sub_self (Nat.le_of_not_le surplus)).symm
        · rfl
      apply Transfers.of_steps (Nat.sub_le _ _) debited
      intro key
      change m'.lamports key = if key = treasury.key then _ else swept.lamports key
      rw [Machine.writeLamports_eq_ok credit, Machine.lamports_setAccount]
      rfl
    exact .of_transfers moved (keyAt_of_accountAt shardAt) (keyAt_of_accountAt treasuryAt)

private theorem migrateToken_keeps {v1Vault destination refundDest : AccountInfo} {i : ℕ}
    (balanced : fr.Balanced dep.toRuntime) (vaultListed : v1Vault ∈ accounts) (refundListed : refundDest ∈ accounts)
    (success : migrateToken dep fr accounts v1Vault destination refundDest m i = .ok m') : Keeps accounts m m' := by
  simp only [migrateToken, Except.bind_eq_ok, Except.ensure_eq_ok, exists_const, accountAt_eq_ok] at success
  obtain ⟨source, sourceAt, dest, destAt, mint, mintAt, tokenProgram, _, _, _, _, _, _, _, _, _, sent, transfer,
    close⟩ := success
  have fromSource := mem_keysOf (List.mem_of_getElem? sourceAt)
  have toDest := mem_keysOf (List.mem_of_getElem? destAt)
  have ofMint := mem_keysOf (List.mem_of_getElem? mintAt)
  have signs := mem_keysOf vaultListed
  have refunds := mem_keysOf refundListed
  refine (Keeps.of_invoke_if balanced ?_ transfer).trans (.of_invoke balanced ?_ close)
  · simpa only [List.forall_mem_cons, metaW, metaRo, metaSigner, List.not_mem_nil, false_implies,
      implies_true, and_true]
      using ⟨fromSource, ofMint, toDest, signs⟩
  · simpa only [List.forall_mem_cons, metaW, metaSigner, List.not_mem_nil, false_implies, implies_true, and_true]
      using ⟨fromSource, refunds, signs⟩

private theorem closeProgramAccount_keeps {account refundDest : AccountInfo} {i j : ℕ}
    (accountIs : accountAt accounts i = .ok account) (refundIs : accountAt accounts j = .ok refundDest)
    (success : closeProgramAccount dep m account refundDest = .ok m') : Keeps accounts m m' := by
  simp only [closeProgramAccount, Except.bind_eq_ok, Except.ensure_eq_ok, exists_const] at success
  obtain ⟨distinct, drained, drain, zero⟩ := success
  exact .of_transfers ((emptiedInto_of_drain_zero drain zero).transfers (Ne.symm distinct))
    (keyAt_of_accountAt accountIs) (keyAt_of_accountAt refundIs)

private theorem processMigrateWallet_keeps (balanced : fr.Balanced dep.toRuntime)
    (success : processMigrateWallet dep fr accounts data m = .ok m') : Keeps accounts m m' := by
  simp only [processMigrateWallet, Except.bind_eq_ok, Except.ensure_eq_ok, exists_const] at success
  obtain ⟨_, payer, _, v1Wallet, walletAt, v1Authority, authorityAt, v1Vault, vaultAt, destination, destinationAt,
    refundDest, refundAt, systemProgram, _, _, _, _, _, _, _, _, _, _, _, _, _, sources, _, approvedBy, authentication,
    _, moved, tokens, paid, payment, _, closedAuthority, closeAuthority, closeWallet⟩ := success
  have listed {i : ℕ} {acc : AccountInfo} (at_ : accountAt accounts i = .ok acc) : acc ∈ accounts :=
    List.mem_of_getElem? (accountAt_eq_ok.mp at_)
  have sent : Keeps accounts approvedBy moved :=
    Except.foldlM_preserves (Keeps.refl accounts) (fun _ _ _ => Keeps.trans)
      (fun _ _ _ _ => migrateToken_keeps balanced (listed vaultAt) (listed refundAt)) tokens
  have swept : Keeps accounts moved paid := by
    refine Keeps.of_invoke_if balanced ?_ payment
    simpa only [List.forall_mem_cons, metaW, metaSignerW, List.not_mem_nil, false_implies, implies_true, and_true]
      using ⟨mem_keysOf (listed vaultAt), mem_keysOf (listed destinationAt)⟩
  exact (Keeps.of_authenticate authentication rfl).trans (sent.trans (swept.trans
    ((closeProgramAccount_keeps authorityAt refundAt closeAuthority).trans
      (closeProgramAccount_keeps walletAt refundAt closeWallet))))

private theorem dispatch_keeps (balanced : fr.Balanced dep.toRuntime) (within : processorAccounts ⊆ accounts)
    (other : discriminator ≠ 7)
    (success : dispatch dep fr discriminator processorAccounts accounts data m = .ok m') : Keeps accounts m m' := by
  unfold dispatch at success
  split at success
  · exact (processCreateWallet_keeps success).mono within
  · exact (processAddAuthority_keeps success).mono within
  · exact (Keeps.of_empties (processRemoveAuthority_empties success)).mono within
  · exact (processTransferOwnership_keeps success).mono within
  · exact (processExecute_keeps balanced success).mono within
  · exact (processCreateSession_keeps success).mono within
  · exact (processAuthorize_keeps success).mono within
  · exact absurd rfl other
  · exact (Keeps.of_empties (processReclaimDeferred_empties success)).mono within
  · exact (Keeps.of_empties (processRevokeSession_empties success)).mono within
  · exact processInitializeProtocol_keeps success
  · exact processUpdateProtocol_keeps success
  · exact processRegisterIntegrator_keeps success
  · exact processWithdrawTreasury_keeps success
  · exact processInitializeTreasuryShard_keeps success
  · exact processProposeProtocolAdmin_keeps success
  · exact processAcceptProtocolAdmin_keeps success
  · exact processMigrateWallet_keeps balanced success
  · exact (Keeps.of_empties (processCloseExpiredSession_empties success)).mono within
  · cases success

/-- What an account drained into itself held is gone. -/
theorem EmptiedInto.sum_add {before after : Ledger} {closed : Pubkey} {keys : Finset Pubkey}
    (emptied : EmptiedInto before after closed closed) (listed : closed ∈ keys) :
    ∑ key ∈ keys, after.balances key + (before closed).lamports = ∑ key ∈ keys, before.balances key := by
  have rest : ∑ key ∈ keys.erase closed, after.balances key = ∑ key ∈ keys.erase closed, before.balances key := by
    apply Finset.sum_congr rfl
    intro key among
    have notClosed := Finset.ne_of_mem_erase among
    exact emptied.others key notClosed notClosed
  rw [← Finset.add_sum_erase keys after.balances listed, ← Finset.add_sum_erase keys before.balances listed, rest,
    show after.balances closed = 0 from emptied.drained, Nat.zero_add, Nat.add_comm]
  rfl

/-- ExecuteDeferred is asked to close the authorization into itself. -/
def Call.RefundsItself (call : Call) : Prop :=
  call.discriminator = 7 ∧ ∃ key, KeyAt call.processorAccounts 3 key ∧ KeyAt call.processorAccounts 4 key

/-- An accepted call conserves lamports unless it closes an authorization into itself, and then some are lost. -/
theorem processInstruction_total (funded : Funded dep ledger) (balanced : call.frame.Balanced dep.toRuntime)
    (accepted : processInstruction dep call.frame call.accounts.infos call.data (Machine.start ledger) = .ok m) :
    (¬ call.RefundsItself ∧ Conserves (keysOf call.accounts.infos) ledger.balances m.ledger.balances) ∨
      (call.RefundsItself ∧
        ∑ key ∈ keysOf call.accounts.infos, m.ledger.balances key <
          ∑ key ∈ keysOf call.accounts.infos, ledger.balances key) := by
  obtain ⟨collected, start, dispatched⟩ := processInstruction_eq_ok accepted
  have fee : Conserves (keysOf call.accounts.infos) ledger.balances collected.ledger.balances := start.conserves
  by_cases deferred : call.discriminator = 7
  · rw [deferred] at dispatched
    obtain ⟨executed, closed, refund, closedAt, refundAt, ran, more, record, emptied⟩ :=
      processExecuteDeferred_keeps balanced dispatched
    have prior : Conserves (keysOf call.accounts.infos) ledger.balances executed.ledger.balances :=
      fee.trans (ran.mono call.processorAccounts_subset)
    have within := Call.pair_subset closedAt refundAt
    by_cases itself : refund = closed
    · subst itself
      have held : 0 < (collected.ledger refund).lamports := by
        apply start.quiet.funded funded
        rw [record]
        exact Option.some_ne_none _
      have lost := emptied.sum_add (within (Finset.mem_insert_self _ _))
      have before := prior _ (Finset.Subset.refl _)
      exact .inr ⟨⟨deferred, refund, closedAt, refundAt⟩, by omega⟩
    · refine .inl ⟨?_, prior.trans ((emptied.transfers itself).conserves.mono within)⟩
      rintro ⟨_, key, first, second⟩
      exact itself ((refundAt.unique second).trans (first.unique closedAt))
  · refine .inl ⟨fun refunds => deferred refunds.1, fee.trans ?_⟩
    exact dispatch_keeps balanced call.processorAccounts_subset deferred dispatched

/-- The runtime refuses what the program accepted exactly if an authorization was to be closed into itself. -/
theorem refused_iff (funded : Funded dep ledger) (balanced : call.frame.Balanced dep.toRuntime)
    (accepted : processInstruction dep call.frame call.accounts.infos call.data (Machine.start ledger) = .ok m) :
    (call.execute dep ledger = .error (.runtime .unbalancedInstruction) ↔ call.RefundsItself) ∧
      (¬ call.RefundsItself → call.execute dep ledger = .ok m ∧
        Conserves (keysOf call.accounts.infos) ledger.balances m.ledger.balances) := by
  have checked : call.execute dep ledger = if m.ledger.total (call.accounts.infos.map (·.key)) =
      ledger.total (call.accounts.infos.map (·.key)) then .ok m else .error (.runtime .unbalancedInstruction) := by
    by_cases same : m.ledger.total (call.accounts.infos.map (·.key)) = ledger.total (call.accounts.infos.map (·.key))
    · rw [if_pos same, Call.execute, accepted]
      simp only [Except.ensure, bind, Except.bind, if_pos same]
    · rw [if_neg same, Call.execute, accepted]
      simp only [Except.ensure, bind, Except.bind, if_neg same]
  rw [checked]
  rcases processInstruction_total funded balanced accepted with ⟨regular, conserved⟩ | ⟨refunds, lost⟩
  · have same : m.ledger.total (call.accounts.infos.map (·.key)) = ledger.total (call.accounts.infos.map (·.key)) :=
      conserved _ (Finset.Subset.refl _)
    rw [if_pos same]
    constructor
    · constructor
      · intro refused
        cases refused
      · intro refunds
        exact absurd refunds regular
    · exact fun _ => ⟨rfl, conserved⟩
  · have differ : m.ledger.total (call.accounts.infos.map (·.key)) ≠ ledger.total (call.accounts.infos.map (·.key)) :=
      lost.ne
    rw [if_neg differ]
    exact ⟨⟨fun _ => refunds, fun _ => rfl⟩, fun regular => absurd refunds regular⟩

/-- An authorization is paid back to the payer it names. -/
theorem processExecuteDeferred_refund {closed refund : Pubkey}
    (success : processExecuteDeferred dep fr accounts data m = .ok m') (closedAt : KeyAt accounts 3 closed)
    (refundAt : KeyAt accounts 4 refund) : DeferredExecAccount.check (m.data closed) = .ok () ∧
      registry dep m.ledger closed = some (m.data closed) ∧
        (DeferredExecAccount.read (m.data closed)).payer = refund := by
  simp only [processExecuteDeferred, Except.bind_eq_ok, Except.ensure_eq_ok, exists_const] at success
  obtain ⟨_, payer, _, walletPda, _, vaultPda, _, deferredPda, deferredAt, refundDest, refundDestAt, _,
    ⟨_, deferredOwned⟩, _, _, _, deferredChecked, _, paidBy, _⟩ := success
  cases closedAt.unique (keyAt_of_accountAt deferredAt)
  cases refundAt.unique (keyAt_of_accountAt refundDestAt)
  exact ⟨deferredChecked, registry_of_tag deferredOwned (isRecordTag_deferred deferredChecked), paidBy⟩

/-- Whoever pays for an authorization signed for it. -/
theorem processAuthorize_payer (success : processAuthorize dep fr accounts data m = .ok m') :
    ∃ payer, accounts[0]? = some payer ∧ payer.isSigner = true := by
  simp only [processAuthorize, Except.bind_eq_ok, Except.ensure_eq_ok, exists_const, accountAt_eq_ok] at success
  obtain ⟨payer, payerAt, _, _, _, _, _, _, _, _, _, _, signs, _⟩ := success
  exact ⟨payer, payerAt, signs⟩

variable {start : Ledger} {events : List Event} {i : ℕ}

/-- An authorization of a run does not name itself as its payer, for it lives at a derived address. -/
theorem payer_ne_deferred (unwritten : Unwritten dep start) (unsigned : DerivedNeverSign dep events) {key : Pubkey}
    {bytes : Bytes} (recorded : registryAt dep start events i key = some bytes)
    (checked : DeferredExecAccount.check bytes = .ok ()) : (DeferredExecAccount.read bytes).payer ≠ key := by
  obtain ⟨kind, typed⟩ := typed_registryAt unwritten events i recorded
  obtain ⟨seeds, address⟩ := typed.exists_seeds
  obtain ⟨k, creation, authority, _, authorized, _⟩ := deferred_provenance unwritten.records recorded checked
  obtain ⟨made, _, success, _⟩ := authorized.succeeds
  obtain ⟨collected, _, dispatched⟩ := Call.execute_eq_ok success.2
  rw [authorized.isAuthorize] at dispatched
  obtain ⟨payer, payerAt, signs⟩ := processAuthorize_payer dispatched
  rw [authorized.payer.unique ⟨payer, payerAt, rfl⟩, address]
  have few := unsigned creation (List.mem_of_getElem? success.1)
  exact few payer (creation.processorAccounts_subset (List.mem_of_getElem? payerAt)) signs seeds

/-- In every state of a run the runtime lets through whatever the program accepts, and no lamport is made or lost
among the accounts of the instruction. -/
theorem accepted_conserves (unwritten : Unwritten dep start) (unsigned : DerivedNeverSign dep events)
    (balanced : call.frame.Balanced dep.toRuntime)
    (accepted : processInstruction dep call.frame call.accounts.infos call.data
      (Machine.start (ledgerAt dep start events i)) = .ok m) :
    call.execute dep (ledgerAt dep start events i) = .ok m ∧
      ∀ keys, keysOf call.accounts.infos ⊆ keys →
        ∑ key ∈ keys, (m.ledger key).lamports = ∑ key ∈ keys, (ledgerAt dep start events i key).lamports := by
  have regular : ¬ call.RefundsItself := by
    rintro ⟨deferred, key, closedAt, refundAt⟩
    obtain ⟨collected, collects, dispatched⟩ := processInstruction_eq_ok accepted
    rw [deferred] at dispatched
    obtain ⟨checked, recorded, paidBy⟩ := processExecuteDeferred_refund dispatched closedAt refundAt
    rw [collects.quiet.registry] at recorded
    exact payer_ne_deferred unwritten unsigned recorded checked paidBy
  exact (refused_iff (funded_ledgerAt events unwritten.records.funded i) balanced accepted).2 regular

namespace Sample

/-- Moving nothing is balanced. -/
theorem balanced_transfers_zero (rt : Runtime) (slot : UInt64) (earlier : List (Pubkey × Bytes)) (data : Bytes) :
    (topLevel slot earlier 0 data).Balanced rt := by
  intro ix ledger changes after invoked applied
  have unchanged (before : Ledger) (key : Pubkey) (same : before = ledger) :
      before.set key { ledger key with lamports := (ledger key).lamports } = ledger := by
    subst same
    funext other
    rw [Ledger.set_apply]
    split
    · next is => rw [is]
    · rfl
  cases Option.some.inj invoked
  have same : after = ledger := (Machine.applyChanges_eq applied).trans (unchanged _ recipient (unchanged _ vault rfl))
  rw [same]

end Sample

/-- A wallet is created for a fee: the payer funds the two records and the treasury, and nothing is lost. -/
theorem accepted_conserves_sample : ∃ m,
    Sample.createWalletPaid.execute Sample.configured
        (ledgerAt Sample.configured Ledger.empty Sample.protocolEvents 4) = .ok m ∧
      (∀ keys, keysOf Sample.createWalletPaid.accounts.infos ⊆ keys → ∑ key ∈ keys, (m.ledger key).lamports =
        ∑ key ∈ keys, (ledgerAt Sample.configured Ledger.empty Sample.protocolEvents 4 key).lamports) ∧
      (m.ledger Sample.shard).lamports =
        (ledgerAt Sample.configured Ledger.empty Sample.protocolEvents 4 Sample.shard).lamports + 5000 ∧
      (m.ledger Sample.owner).lamports = 1447680 := by
  have success : (processInstruction Sample.configured Sample.createWalletPaid.frame
      Sample.createWalletPaid.accounts.infos Sample.createWalletPaid.data
      (Machine.start (ledgerAt Sample.configured Ledger.empty Sample.protocolEvents 4))).succeeded = true := by
    decide +kernel
  have unsigned : DerivedNeverSign Sample.configured Sample.protocolEvents :=
    Sample.derivedNeverSign_of_apart _ rfl (by decide +kernel)
  have moved : (ledgerAt Sample.configured Ledger.empty Sample.protocolEvents 5 Sample.shard).lamports =
        (ledgerAt Sample.configured Ledger.empty Sample.protocolEvents 4 Sample.shard).lamports + 5000 ∧
      (ledgerAt Sample.configured Ledger.empty Sample.protocolEvents 5 Sample.owner).lamports = 1447680 := by
    decide +kernel
  obtain ⟨m, accepted⟩ := Except.exists_of_succeeded success
  obtain ⟨executed, conserved⟩ := accepted_conserves (unwritten_empty Sample.configured) unsigned
    (Sample.balanced_transfers_zero _ _ _ _) accepted
  have left_ : ledgerAt Sample.configured Ledger.empty Sample.protocolEvents 5 = m.ledger :=
    SucceedsAt.ledgerAt_succ ⟨rfl, executed⟩
  rw [left_] at moved
  exact ⟨m, executed, conserved, moved⟩

end LazorKit
