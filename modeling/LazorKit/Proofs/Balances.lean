import LazorKit.Machine.Balance
import LazorKit.Proofs.ProtocolRefine

/-! # What the processors do to balances

Creating an account moves lamports from the payer to it, a fee moves them from the payer to the treasury, and
closing an account moves everything it holds to the refund destination. Inner instructions conserve lamports
where the runtime checks them.
-/

namespace LazorKit

open Solana Balances

variable {dep : Deployment} {fr : Frame} {accounts : List AccountInfo} {m m' m'' : Machine Approval}

theorem Stored.balances {key : Pubkey} {bytes : Bytes} (stored : Stored m m' key bytes) :
    m'.ledger.balances = m.ledger.balances := funext stored.lamports

theorem KeyAt.mem_keysOf {i : ℕ} {key : Pubkey} (at_ : KeyAt accounts i key) : key ∈ keysOf accounts := by
  obtain ⟨acc, found, rfl⟩ := at_
  exact Solana.mem_keysOf (List.mem_of_getElem? found)

/-- What a new account lacks of its rent comes from the payer. -/
theorem initializePdaAccount_transfers {payer target system : AccountInfo} {space rent : ℕ}
    (success : initializePdaAccount dep m payer target system space rent = .ok m') :
    Transfers m.ledger.balances m'.ledger.balances payer.key target.key (rent - m.lamports target.key) := by
  simp only [initializePdaAccount, Except.bind_eq_ok, Except.ensure_eq_ok, exists_const] at success
  obtain ⟨_, paid, payment, allocated, allocation, assignment⟩ := success
  have funded : Transfers m.ledger.balances paid.ledger.balances payer.key target.key
      (rent - m.lamports target.key) := by
    split at payment
    · exact Machine.systemTransfer_transfers payment
    · next enough =>
      cases payment
      rw [Nat.sub_eq_zero_of_le (Nat.le_of_not_lt enough)]
      intro key
      simp only [ite_self]
  have kept : m'.ledger.balances = paid.ledger.balances := by
    funext key
    rw [Machine.systemAssign_eq_ok assignment, (Machine.systemAllocate_eq_ok allocation).2.2]
    change ((paid.setAccount target.key _).setAccount target.key _).lamports key = paid.lamports key
    simp only [Machine.lamports_setAccount]
    split
    · next same => rw [same, Machine.ledger_setAccount, Ledger.set_self]; rfl
    · rfl
  rwa [kept]

/-- An account with data neither pays for a new account nor is it. -/
theorem initializePdaAccount_keeps {payer target system : AccountInfo} {space rent : ℕ}
    (success : initializePdaAccount dep m payer target system space rent = .ok m') {key : Pubkey}
    (present : m.data key ≠ []) : m'.lamports key = m.lamports key := by
  have moved := initializePdaAccount_transfers success
  simp only [initializePdaAccount, Except.bind_eq_ok, Except.ensure_eq_ok, exists_const] at success
  obtain ⟨_, paid, payment, allocated, allocation, _⟩ := success
  have notTarget : key ≠ target.key := by
    rintro rfl
    apply present
    split at payment
    · exact ((Machine.systemTransfer_eq_ok payment).2.2.1.data _).symm.trans (Machine.systemAllocate_eq_ok allocation).1
    · cases payment
      exact (Machine.systemAllocate_eq_ok allocation).1
  split at payment
  · apply moved.of_ne _ notTarget
    rintro rfl
    exact present (Machine.systemTransfer_eq_ok payment).1
  · next enough =>
    have same := moved key
    rw [Nat.sub_eq_zero_of_le (Nat.le_of_not_lt enough)] at same
    simp only [ite_self, Nat.add_zero] at same
    exact same

private theorem ensureFeeRecord_transfers {payer record system : AccountInfo} {bump : UInt8}
    (success : ensureFeeRecord dep fr m payer record system bump = .ok m') :
    ∃ amount, Transfers m.ledger.balances m'.ledger.balances payer.key record.key amount := by
  unfold ensureFeeRecord at success
  split at success
  · simp only [Except.bind_eq_ok] at success
    obtain ⟨made, creation, store⟩ := success
    rw [(writeData_eq_ok store).1.balances]
    exact ⟨_, initializePdaAccount_transfers creation⟩
  · split at success
    · cases success
    · simp only [Except.bind_eq_ok, Except.mapError_eq_ok] at success
      obtain ⟨_, _, same⟩ := success
      cases Except.ok.inj same
      refine ⟨0, fun key => ?_⟩
      simp only [ite_self]

/-- Collecting a fee moves lamports among the accounts of the instruction. -/
theorem tryCollectFee_conserves {discriminator : UInt8} {rest : List AccountInfo}
    (success : tryCollectFee dep fr discriminator accounts m = .ok (m', rest)) :
    Conserves (keysOf accounts) m.ledger.balances m'.ledger.balances := by
  simp only [tryCollectFee, Except.bind_eq_ok, Except.ensure_eq_ok, exists_const, accountAt_eq_ok] at success
  obtain ⟨_, config, _, record, recordAt, shard, shardAt, system, _, _, _, success⟩ := success
  split at success
  · cases success
    exact .refl _ _
  · simp only [Except.bind_eq_ok, Except.ensure_eq_ok, exists_const, accountAt_eq_ok] at success
    obtain ⟨_, _, _, payer, payerAt, _, _, recorded, ensured, paid, transfer, _, charged, store, result⟩ := success
    cases Except.ok.inj result
    have fromPayer := List.mem_of_getElem? payerAt
    obtain ⟨amount, opened⟩ := ensureFeeRecord_transfers ensured
    rw [(writeData_eq_ok store).1.balances]
    have opening := opened.conserves.mono (pair_subset_keysOf fromPayer (List.mem_of_getElem? recordAt))
    have paying := (Machine.systemTransfer_transfers transfer).conserves.mono
      (pair_subset_keysOf fromPayer (List.mem_of_getElem? shardAt))
    exact opening.trans paying

/-- No account with data lost lamports, or its data. -/
def Preserves (m m' : Machine Approval) : Prop :=
  ∀ key, m.data key ≠ [] → m'.data key ≠ [] ∧ m.lamports key ≤ m'.lamports key

theorem Preserves.refl (m : Machine Approval) : Preserves m m := fun _ present => ⟨present, le_refl _⟩

theorem Preserves.trans (first : Preserves m m') (second : Preserves m' m'') : Preserves m m'' := by
  intro key present
  obtain ⟨present', more⟩ := first key present
  obtain ⟨present'', more'⟩ := second key present'
  exact ⟨present'', more.trans more'⟩

private theorem preserves_systemTransfer {source target : AccountInfo} {signs : Bool} {amount : ℕ}
    (success : m.systemTransfer source target signs amount = .ok m') : Preserves m m' := by
  obtain ⟨empty, _, unmoved, more, _⟩ := Machine.systemTransfer_eq_ok success
  intro key present
  refine ⟨by rwa [unmoved.data], more key ?_⟩
  rintro rfl
  exact present empty

private theorem preserves_stored {key : Pubkey} {bytes : Bytes} (stored : Stored m m' key bytes)
    (present : bytes ≠ []) :
    Preserves m m' := by
  intro other had
  refine ⟨?_, (stored.lamports other).ge⟩
  rw [stored.data]
  split
  · exact present
  · exact had

private theorem preserves_initializePdaAccount {payer target system : AccountInfo} {space rent : ℕ}
    (success : initializePdaAccount dep m payer target system space rent = .ok m') : Preserves m m' := by
  simp only [initializePdaAccount, Except.bind_eq_ok, Except.ensure_eq_ok, exists_const] at success
  obtain ⟨_, paid, payment, allocated, allocation, assignment⟩ := success
  have transferred : Preserves m paid := by
    split at payment
    · exact preserves_systemTransfer payment
    · cases payment
      exact .refl m
  apply transferred.trans
  intro key present
  obtain ⟨empty, _, rfl⟩ := Machine.systemAllocate_eq_ok allocation
  have other : key ≠ target.key := by
    rintro rfl
    exact present empty
  rw [Machine.systemAssign_eq_ok assignment]
  simp only [Machine.data_setAccount, Machine.lamports_setAccount, if_neg other]
  exact ⟨present, le_refl _⟩

theorem preserves_tryCollectFee {discriminator : UInt8} {rest : List AccountInfo}
    (success : tryCollectFee dep fr discriminator accounts m = .ok (m', rest)) : Preserves m m' := by
  have header (old : Bytes) (record : FeeRecord) : FeeRecord.write old record ≠ [] := by
    simp [FeeRecord.write, Bytes.splice, FeeRecord.toBytes]
  simp only [tryCollectFee, Except.bind_eq_ok, Except.ensure_eq_ok, exists_const, accountAt_eq_ok] at success
  obtain ⟨_, config, _, record, _, shard, _, system, _, _, _, success⟩ := success
  split at success
  · cases success
    exact .refl m
  · simp only [Except.bind_eq_ok, Except.ensure_eq_ok, exists_const, accountAt_eq_ok] at success
    obtain ⟨_, _, _, payer, _, _, _, recorded, ensured, paid, transfer, _, charged, store, result⟩ := success
    cases Except.ok.inj result
    have first : Preserves m recorded := by
      unfold ensureFeeRecord at ensured
      split at ensured
      · simp only [Except.bind_eq_ok] at ensured
        obtain ⟨made, creation, store⟩ := ensured
        exact (preserves_initializePdaAccount creation).trans
          (preserves_stored (writeData_eq_ok store).1 (header _ _))
      · split at ensured
        · cases ensured
        · simp only [Except.bind_eq_ok, Except.mapError_eq_ok] at ensured
          obtain ⟨_, _, same⟩ := ensured
          cases Except.ok.inj same
          exact .refl m
    exact (first.trans (preserves_systemTransfer transfer)).trans
      (preserves_stored (writeData_eq_ok store).1 (header _ _))

/-- An inner instruction is handed accounts of the outer list only. -/
theorem innerInstruction_subset {payer vault : Pubkey} {session : Option Pubkey} {ix : CompactInstruction}
    {decompressed : DecompressedInstruction} (expanded : ix.decompress accounts = .ok decompressed) :
    ((innerInstruction payer vault session decompressed).accounts.map (·.pubkey)).toFinset ⊆ keysOf accounts := by
  simp only [CompactInstruction.decompress, Except.bind_eq_ok, Except.mapM_eq_ok, Except.ok.injEq] at expanded
  obtain ⟨_, _, resolved, each, rfl⟩ := expanded
  intro key member
  simp only [innerInstruction, List.map_map, List.mem_toFinset, List.mem_map] at member
  obtain ⟨entry, listed, rfl⟩ := member
  obtain ⟨byte, _, found⟩ := each.exists_left listed
  simp only [resolveAccount, accountByIndex, Except.bind_eq_ok, Except.ofOption_eq_ok, Except.ok.injEq] at found
  obtain ⟨acc, at_, rfl⟩ := found
  exact mem_keysOf (List.mem_of_getElem? at_)

private theorem executeInner_conserves {payer vault : Pubkey} {session : Option Pubkey} {ix : CompactInstruction}
    (balanced : fr.Balanced dep.toRuntime)
    (success : executeInner dep fr accounts payer vault session m ix = .ok m') :
    Conserves (keysOf accounts) m.ledger.balances m'.ledger.balances := by
  simp only [executeInner, Except.bind_eq_ok, Except.ensure_eq_ok, exists_const] at success
  obtain ⟨decompressed, expanded, _, issued⟩ := success
  exact (Machine.invoke_conserves balanced issued).mono (innerInstruction_subset expanded)

theorem executeInner_foldlM_conserves {payer vault : Pubkey} {session : Option Pubkey}
    {ixs : List CompactInstruction} (balanced : fr.Balanced dep.toRuntime)
    (success : ixs.foldlM (executeInner dep fr accounts payer vault session) m = .ok m') :
    Conserves (keysOf accounts) m.ledger.balances m'.ledger.balances := by
  refine Except.foldlM_preserves
    (R := fun before after : Machine Approval => Conserves (keysOf accounts)
      before.ledger.balances after.ledger.balances)
    (fun before => .refl _ _) (fun _ _ _ => Conserves.trans) ?_ success
  intro ix _ before after issued
  exact executeInner_conserves balanced issued

/-- The closed account is zeroed and drained, the refund destination has what it held, and no other balance
changed. -/
structure EmptiedInto (before after : Ledger) (closed refund : Pubkey) : Prop where
  zeroed : (after closed).data.isZero = true
  drained : (after closed).lamports = 0
  fits : (before refund).lamports + (before closed).lamports < 2 ^ 64
  credited : refund ≠ closed → (after refund).lamports = (before refund).lamports + (before closed).lamports
  others : ∀ key, key ≠ closed → key ≠ refund → (after key).lamports = (before key).lamports

namespace EmptiedInto

variable {before after : Ledger} {closed refund : Pubkey}

theorem congr {before' : Ledger} (emptied : EmptiedInto before after closed refund)
    (same : before'.balances = before.balances) : EmptiedInto before' after closed refund := by
  have lamports (key : Pubkey) : (before' key).lamports = (before key).lamports := congrFun same key
  obtain ⟨zeroed, drained, fits, credited, others⟩ := emptied
  simp only [← lamports] at fits credited others
  exact ⟨zeroed, drained, fits, credited, others⟩

theorem transfers (emptied : EmptiedInto before after closed refund) (distinct : refund ≠ closed) :
    Transfers before.balances after.balances closed refund (before closed).lamports := by
  intro key
  simp only [Ledger.balances]
  by_cases isClosed : key = closed
  · subst isClosed
    rw [emptied.drained, if_pos rfl, if_neg distinct.symm, Nat.zero_add, Nat.add_zero]
  · rw [if_neg isClosed, Nat.add_zero]
    by_cases isRefund : key = refund
    · subst isRefund
      rw [if_pos rfl, emptied.credited distinct]
    · rw [if_neg isRefund, emptied.others key isClosed isRefund, Nat.add_zero]

end EmptiedInto

private theorem drainInto_fits {closed refund : AccountInfo} (success : drainInto dep m closed refund = .ok m') :
    m.lamports refund.key + m.lamports closed.key < 2 ^ 64 := by
  simp only [drainInto, Except.bind_eq_ok, Except.ensure_eq_ok, exists_const] at success
  exact success.1

/-- Draining an account whose data is zeroed before or afterwards empties it. -/
theorem emptiedInto_of_drain {closed refund : AccountInfo} (drain : drainInto dep m closed refund = .ok m')
    {after : Ledger} (same : after.balances = m'.ledger.balances) (zeroed : (after closed.key).data.isZero = true) :
    EmptiedInto m.ledger after closed.key refund.key := by
  have lamports (key : Pubkey) : (after key).lamports = _ := (congrFun same key).trans (drainInto_lamports drain key)
  refine ⟨zeroed, ?_, drainInto_fits drain, fun distinct => ?_, fun key notClosed notRefund => ?_⟩
  · rw [lamports, if_pos rfl]
  · rw [lamports, if_neg distinct, if_pos rfl]
    rfl
  · rw [lamports, if_neg notClosed, if_neg notRefund]
    rfl

theorem emptiedInto_of_drain_zero {closed refund : AccountInfo} (drain : drainInto dep m closed refund = .ok m')
    (zero : zeroData dep m' closed = .ok m'') : EmptiedInto m.ledger m''.ledger closed.key refund.key := by
  have stored := (zeroData_eq_ok zero).1
  apply emptiedInto_of_drain drain stored.balances
  rw [show (m''.ledger closed.key).data = _ from stored.data_self]
  exact Bytes.isZero_replicate _

theorem emptiedInto_of_zero_drain {closed refund : AccountInfo} (zero : zeroData dep m closed = .ok m')
    (drain : drainInto dep m' closed refund = .ok m'') : EmptiedInto m.ledger m''.ledger closed.key refund.key := by
  have stored := (zeroData_eq_ok zero).1
  have zeroed : (m''.ledger closed.key).data.isZero = true := by
    rw [show (m''.ledger closed.key).data = _ from (drainInto_eq_ok drain).1.data _,
      show m'.data closed.key = _ from stored.data_self]
    exact Bytes.isZero_replicate _
  exact (emptiedInto_of_drain drain rfl zeroed).congr stored.balances.symm

end LazorKit
