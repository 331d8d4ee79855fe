import LazorKit.Proofs.Balances
import LazorKit.Proofs.ConcreteRun
import LazorKit.Proofs.Outcome

/-! # Closing an account

Six instructions close an account: each zeroes it and moves everything it holds to the refund destination named
beside it. Five refuse to close an account into itself. ExecuteDeferred has no such check; there the runtime
refuses it, because the lamports would be gone, unless there are none.
-/

namespace LazorKit

open Solana Balances

/-- The instructions that close an account. -/
inductive Closer where
  | removeAuthority
  | transferOwnership
  | revokeSession
  | closeExpiredSession
  | reclaimDeferred
  | executeDeferred
deriving DecidableEq

namespace Closer

def discriminator : Closer → UInt8
  | .removeAuthority => 2
  | .transferOwnership => 3
  | .revokeSession => 9
  | .closeExpiredSession => 18
  | .reclaimDeferred => 8
  | .executeDeferred => 7

/-- Where the closed account stands. -/
def closedIndex : Closer → ℕ
  | .transferOwnership => 2
  | .closeExpiredSession | .reclaimDeferred => 1
  | _ => 3

/-- Where the refund destination stands. -/
def refundIndex : Closer → ℕ
  | .closeExpiredSession | .reclaimDeferred => 2
  | _ => 4

/-- What moved lamports before the account was closed: TransferOwnership has the payer fund the new authority,
ExecuteDeferred collects its fee and runs the authorized instructions, and the others do nothing. -/
def Earlier (dep : Deployment) (call : Call) (ledger before : Ledger) : Closer → Prop
  | .transferOwnership => ∃ payer new args space, KeyAt call.processorAccounts 0 payer ∧
      KeyAt call.processorAccounts 3 new ∧ TransferOwnershipArgs.parse call.arguments = .ok args ∧
      authorityFixedLen args.authType = some space ∧
      Transfers ledger.balances before.balances payer new
        (dep.rent.minimumBalance space - (ledger new).lamports)
  | .executeDeferred => ∃ collected payer vault deferred zeroed parsed executed,
      Collected dep call (Machine.start ledger) collected ∧ call.processorAccounts[0]? = some payer ∧
      call.processorAccounts[2]? = some vault ∧ call.processorAccounts[3]? = some deferred ∧
      zeroData dep collected deferred = .ok zeroed ∧
      parseCompactInstructionsRefWithLen call.arguments = .ok parsed ∧
      parsed.1.foldlM (executeInner dep call.frame call.processorAccounts payer.key vault.key none) zeroed =
        .ok executed ∧
      before = executed.ledger
  | _ => before.balances = ledger.balances

end Closer

section Processors

variable {dep : Deployment} {fr : Frame} {accounts : List AccountInfo} {data : Bytes} {m m' : Machine Approval}

/-- An account is emptied into another one, which the instruction names. -/
def Empties (accounts : List AccountInfo) (closer : Closer) (before after : Ledger) : Prop :=
  ∃ closed refund, KeyAt accounts closer.closedIndex closed ∧ KeyAt accounts closer.refundIndex refund ∧
    refund ≠ closed ∧ EmptiedInto before after closed refund

theorem authenticate_balances {authority : AccountInfo} {kind discriminator : UInt8} {authPayload signedPayload : Bytes}
    (success : authenticate dep fr accounts m authority kind authPayload signedPayload discriminator = .ok m')
    (type : kind = (AuthorityAccountHeader.read (m.data authority.key)).authorityType) :
    m'.ledger.balances = m.ledger.balances := by
  obtain ⟨_, _, _, stored, _⟩ := authenticate_eq_ok success type
  exact stored.balances

private theorem uncountOwner_balances {wallet : AccountInfo} {p : Prop} [Decidable p]
    (success : (if p then uncountOwner dep m wallet else .ok m) = .ok m') :
    m'.ledger.balances = m.ledger.balances := by
  split at success
  · simp only [uncountOwner, Except.bind_eq_ok, Except.ensure_eq_ok, exists_const] at success
    exact (writeData_eq_ok success.2).1.balances
  · cases success
    rfl

theorem processRemoveAuthority_empties (success : processRemoveAuthority dep fr accounts data m = .ok m') :
    Empties accounts .removeAuthority m.ledger m'.ledger := by
  simp only [processRemoveAuthority, Except.bind_eq_ok, Except.ensure_eq_ok, exists_const] at success
  obtain ⟨payer, _, _, walletPda, _, adminAuthPda, _, targetAuthPda, targetAt, refundDest, refundAt,
    _, _, _, _, _, _, _, approvedBy, authentication, _, _, _, _, _, distinct, counted, counting, drained, drain,
    zero⟩ := success
  refine ⟨_, _, keyAt_of_accountAt targetAt, keyAt_of_accountAt refundAt, distinct.symm, ?_⟩
  apply (emptiedInto_of_drain_zero drain zero).congr
  rw [uncountOwner_balances counting, authenticate_balances authentication rfl]

theorem processRevokeSession_empties (success : processRevokeSession dep fr accounts data m = .ok m') :
    Empties accounts .revokeSession m.ledger m'.ledger := by
  simp only [processRevokeSession, Except.bind_eq_ok, Except.ensure_eq_ok, exists_const] at success
  obtain ⟨payer, _, walletPda, _, adminAuthPda, _, sessionPda, sessionAt, refundDest, refundAt, _,
    _, _, _, _, _, _, _, _, approvedBy, authentication, _, _, _, distinct, zeroed, zero, drain⟩ := success
  refine ⟨_, _, keyAt_of_accountAt sessionAt, keyAt_of_accountAt refundAt, distinct.symm, ?_⟩
  apply (emptiedInto_of_zero_drain zero drain).congr
  rw [authenticate_balances authentication rfl]

theorem processCloseExpiredSession_empties (success : processCloseExpiredSession dep fr accounts m = .ok m') :
    Empties accounts .closeExpiredSession m.ledger m'.ledger := by
  simp only [processCloseExpiredSession, Except.bind_eq_ok, Except.ensure_eq_ok, exists_const] at success
  obtain ⟨caller, _, sessionPda, sessionAt, refundDest, refundAt, _, distinct, _, _, _, _, zeroed, zero,
    drain⟩ := success
  exact ⟨_, _, keyAt_of_accountAt sessionAt, keyAt_of_accountAt refundAt, distinct,
    emptiedInto_of_zero_drain zero drain⟩

theorem processReclaimDeferred_empties (success : processReclaimDeferred dep fr accounts m = .ok m') :
    Empties accounts .reclaimDeferred m.ledger m'.ledger := by
  simp only [processReclaimDeferred, Except.bind_eq_ok, Except.ensure_eq_ok, exists_const] at success
  obtain ⟨payer, _, deferredPda, deferredAt, refundDest, refundAt, _, _, terms, _, _, _, _, distinct, zeroed, zero,
    drain⟩ := success
  exact ⟨_, _, keyAt_of_accountAt deferredAt, keyAt_of_accountAt refundAt, distinct,
    emptiedInto_of_zero_drain zero drain⟩

/-- The current owner has data, so it neither pays for the new authority nor is it. -/
theorem processTransferOwnership_empties (success : processTransferOwnership dep fr accounts data m = .ok m') :
    ∃ funded payer new args space closed refund, KeyAt accounts 0 payer ∧ KeyAt accounts 3 new ∧
      TransferOwnershipArgs.parse data = .ok args ∧ authorityFixedLen args.authType = some space ∧
      Transfers m.ledger.balances funded.balances payer new (dep.rent.minimumBalance space - (m.ledger new).lamports) ∧
      KeyAt accounts 2 closed ∧ KeyAt accounts 4 refund ∧ refund ≠ closed ∧
      (funded closed).lamports = (m.ledger closed).lamports ∧ EmptiedInto funded m'.ledger closed refund := by
  simp only [processTransferOwnership, Except.bind_eq_ok, Except.ensure_eq_ok, exists_const,
    Except.ofOption_eq_ok, checkZeroData] at success
  obtain ⟨args, parsed, payer, payerAt, _, walletPda, _, currentOwner, currentAt, newOwner, newAt, refundDest,
    refundAt, systemProgram, _, rentSysvar, _, rent, rentIs, _, distinct, _, _, _, _, checked, _, _, _, approvedBy,
    authentication, address, _, fixedLen, fixed, made, creation, _, material, stored, written, store, drained, drain,
    zero⟩ := success
  cases Rent.fromAccountInfo_eq_ok rentIs
  obtain ⟨_, _, step, stored, _⟩ := authenticate_eq_ok authentication rfl
  have present : approvedBy.data currentOwner.key ≠ [] := by
    have fits := (AuthorityAccountHeader.check_eq_ok.mp (step.check_eq checked)).1
    rw [stored.data_self]
    rintro absent
    rw [absent] at fits
    exact absurd fits (by decide)
  have moved := initializePdaAccount_transfers creation
  rw [stored.balances, stored.lamports] at moved
  refine ⟨made.ledger, _, _, _, _, _, _, keyAt_of_accountAt payerAt, keyAt_of_accountAt newAt, parsed, fixed, moved,
    keyAt_of_accountAt currentAt, keyAt_of_accountAt refundAt, distinct.symm, ?_, ?_⟩
  · exact (initializePdaAccount_keeps creation present).trans (stored.lamports _)
  · exact (emptiedInto_of_drain_zero drain zero).congr (writeData_eq_ok store).1.balances.symm

/-- ExecuteDeferred zeroes the authorization, runs it and then drains the account. -/
theorem processExecuteDeferred_empties (success : processExecuteDeferred dep fr accounts data m = .ok m') :
    ∃ (payer vault closed refund : AccountInfo) (zeroed executed : Machine Approval)
      (parsed : List CompactInstruction × ℕ), accounts[0]? = some payer ∧ accounts[2]? = some vault ∧
      accounts[3]? = some closed ∧ accounts[4]? = some refund ∧ zeroData dep m closed = .ok zeroed ∧
      parseCompactInstructionsRefWithLen data = .ok parsed ∧
      parsed.1.foldlM (executeInner dep fr accounts payer.key vault.key none) zeroed = .ok executed ∧
      (m.ledger closed.key).lamports ≤ (executed.ledger closed.key).lamports ∧
      registry dep m.ledger closed.key = some (m.data closed.key) ∧
      EmptiedInto executed.ledger m'.ledger closed.key refund.key := by
  simp only [processExecuteDeferred, Except.bind_eq_ok, Except.ensure_eq_ok, exists_const, accountAt_eq_ok] at success
  obtain ⟨_, payer, payerAt, walletPda, _, vaultPda, vaultAt, deferredPda, deferredAt, refundDest, refundAt, _,
    ⟨_, deferredOwned⟩, _, _, _, deferredChecked, _, _, _, parsed, parse, _, _, _, _, _, zeroed, zero, executed, loop,
    drain⟩ := success
  obtain ⟨stored, _, _⟩ := zeroData_eq_ok zero
  obtain ⟨_, kept, more⟩ := (executeInner_foldlM_foreign loop).owned (by rw [stored.owner, deferredOwned])
  have zeroData : (m'.ledger deferredPda.key).data.isZero = true := by
    rw [show (m'.ledger deferredPda.key).data = _ from (drainInto_eq_ok drain).1.data _, kept, stored.data_self]
    exact Bytes.isZero_replicate _
  refine ⟨payer, vaultPda, deferredPda, refundDest, zeroed, executed, parsed, payerAt, vaultAt, deferredAt, refundAt,
    zero, parse, loop, ?_, registry_of_tag deferredOwned (isRecordTag_deferred deferredChecked),
    emptiedInto_of_drain drain rfl zeroData⟩
  exact (stored.lamports _).symm.trans_le more

end Processors

section Calls

variable {dep : Deployment} {call : Call} {ledger : Ledger} {m : Machine Approval}

/-- A closing instruction went through: `closed` was emptied into `refund` as they stood after what came before,
and no lamport was made or lost. A closed account that is its own refund destination held none. -/
structure Closes (dep : Deployment) (call : Call) (ledger after : Ledger) (closer : Closer) (closed refund : Pubkey)
    (before : Ledger) : Prop where
  closedAt : KeyAt call.processorAccounts closer.closedIndex closed
  refundAt : KeyAt call.processorAccounts closer.refundIndex refund
  earlier : closer.Earlier dep call ledger before
  prior : closer ≠ .executeDeferred → (before closed).lamports = (ledger closed).lamports
  priorDeferred : (ledger closed).lamports ≤ (before closed).lamports
  emptied : EmptiedInto before after closed refund
  distinct : closer ≠ .executeDeferred → refund ≠ closed
  conserved : (closer = .executeDeferred → call.frame.Balanced dep.toRuntime) →
    Conserves (keysOf call.accounts.infos) ledger.balances after.balances
  emptyItself : call.frame.Balanced dep.toRuntime → refund = closed → (before closed).lamports = 0
  fundedDistinct : call.frame.Balanced dep.toRuntime → Funded dep ledger → refund ≠ closed

theorem Call.processorAccounts_subset (call : Call) : call.processorAccounts ⊆ call.accounts.infos := by
  unfold Call.processorAccounts
  split
  · exact List.take_subset _ _
  · exact List.Subset.refl _

theorem Call.pair_subset {i j : ℕ} {first second : Pubkey} (one : KeyAt call.processorAccounts i first)
    (two : KeyAt call.processorAccounts j second) : {first, second} ⊆ keysOf call.accounts.infos := by
  have within := keysOf_subset call.processorAccounts_subset
  intro key member
  rcases Finset.mem_insert.mp member with rfl | member
  · exact within one.mem_keysOf
  · cases Finset.mem_singleton.mp member
    exact within two.mem_keysOf

/-- The four instructions that move nothing before they close the account. -/
theorem Empties.closes {closer : Closer} {after : Ledger} (empties : Empties call.processorAccounts closer ledger after)
    (plain : closer.Earlier dep call ledger ledger) :
    ∃ closed refund before, Closes dep call ledger after closer closed refund before := by
  obtain ⟨closed, refund, closedAt, refundAt, distinct, emptied⟩ := empties
  exact ⟨closed, refund, ledger, {
    closedAt := closedAt
    refundAt := refundAt
    earlier := plain
    prior := fun _ => rfl
    priorDeferred := le_refl _
    emptied := emptied
    distinct := fun _ => distinct
    conserved := fun _ => (emptied.transfers distinct).conserves.mono (Call.pair_subset closedAt refundAt)
    emptyItself := fun _ same => absurd same distinct
    fundedDistinct := fun _ _ => distinct }⟩

/-- Where no fee is due the processor starts from the ledger as it is. -/
theorem Collected.free {collected : Machine Approval} (start : Collected dep call (Machine.start ledger) collected)
    (free : isFeeEligible call.discriminator = false) : collected = Machine.start ledger := by
  rw [Collected, if_neg (by rw [free]; decide)] at start
  exact start

theorem Collected.conserves {collected : Machine Approval} (start : Collected dep call m collected) :
    Conserves (keysOf call.accounts.infos) m.ledger.balances collected.ledger.balances := by
  unfold Collected at start
  split at start
  · exact tryCollectFee_conserves start
  · subst start
    exact .refl _ _

/-- What ExecuteDeferred's accounts hold before it drains the authorization is what they held at first. -/
theorem executeDeferred_closes (which : call.discriminator = 7) (success : call.execute dep ledger = .ok m) :
    ∃ closed refund before, Closes dep call ledger m.ledger .executeDeferred closed refund before := by
  have balanced : m.ledger.total (call.accounts.infos.map (·.key)) =
      ledger.total (call.accounts.infos.map (·.key)) := by
    simp only [Call.execute, Except.bind_eq_ok, Except.ensure_eq_ok, exists_const] at success
    obtain ⟨_, _, same, result⟩ := success
    cases Except.ok.inj result
    exact same
  obtain ⟨collected, start, dispatched⟩ := Call.execute_eq_ok success
  have recorded : registry dep collected.ledger = registry dep ledger := start.quiet.registry
  have fee := start.conserves
  rw [which] at dispatched
  obtain ⟨payer, vault, ⟨closed, signs, writes⟩, ⟨refund, signs', writes'⟩, zeroed, executed, parsed, payerAt, vaultAt,
    closedFound, refundFound, zero, parse, loop, more, record, emptied⟩ := processExecuteDeferred_empties dispatched
  have closedAt : KeyAt call.processorAccounts 3 closed := ⟨_, closedFound, rfl⟩
  have refundAt : KeyAt call.processorAccounts 4 refund := ⟨_, refundFound, rfl⟩
  have same : zeroed.ledger.balances = collected.ledger.balances := (zeroData_eq_ok zero).1.balances
  rw [recorded] at record
  have held : (ledger closed).lamports ≤ (executed.ledger closed).lamports := by
    have present : (ledger closed).data ≠ [] := by
      obtain ⟨_, bytes, tag⟩ := registry_eq_some.mp record
      rw [← bytes] at tag
      intro empty
      rw [empty] at tag
      exact absurd tag (by decide)
    simp only [Collected, which] at start
    exact (preserves_tryCollectFee start closed present).2.trans more
  have earlier (checked : call.frame.Balanced dep.toRuntime) :
      Conserves (keysOf call.accounts.infos) ledger.balances executed.ledger.balances := by
    have ran := (executeInner_foldlM_conserves checked loop).mono (keysOf_subset call.processorAccounts_subset)
    rw [same] at ran
    exact fee.trans ran
  have within := Call.pair_subset closedAt refundAt
  have closedListed := within (Finset.mem_insert_self closed {refund})
  have drained (checked : call.frame.Balanced dep.toRuntime) :
      Conserves (keysOf call.accounts.infos) executed.ledger.balances m.ledger.balances := by
    apply Conserves.of_sum_eq
    · exact balanced.trans (earlier checked _ (Finset.Subset.refl _)).symm
    · intro key absent
      apply emptied.others
      · rintro rfl
        exact absent closedListed
      · rintro rfl
        exact absent (within (Finset.mem_insert_of_mem (Finset.mem_singleton_self key)))
  -- An account drained into itself loses what it held, and nobody gained it.
  have emptyItself (checked : call.frame.Balanced dep.toRuntime) (itself : refund = closed) :
      (executed.ledger closed).lamports = 0 := by
    have kept := (drained checked).le_of_others_le (Finset.Subset.refl _) closedListed fun other _ notClosed =>
      (emptied.others other notClosed (itself ▸ notClosed)).le
    exact Nat.le_zero.mp (kept.trans_eq emptied.drained)
  exact ⟨closed, refund, executed.ledger, {
    closedAt := closedAt
    refundAt := refundAt
    earlier := ⟨collected, payer, vault, _, zeroed, parsed, executed, start, payerAt, vaultAt, closedFound, zero, parse,
      loop, rfl⟩
    prior := fun other => absurd rfl other
    priorDeferred := held
    emptied := emptied
    distinct := fun other => absurd rfl other
    conserved := fun checked => (earlier (checked rfl)).trans (drained (checked rfl))
    emptyItself := emptyItself
    fundedDistinct := by
      intro checked funded itself
      have live : registry dep ledger closed ≠ none := by
        rw [record]
        exact Option.some_ne_none _
      have positive : 0 < (ledger closed).lamports := funded closed live
      have none := emptyItself checked itself
      omega }⟩

theorem reclaimDeferred_closes (which : call.discriminator = 8) (success : call.execute dep ledger = .ok m) :
    ∃ closed refund before, Closes dep call ledger m.ledger .reclaimDeferred closed refund before := by
  obtain ⟨collected, start, dispatched⟩ := Call.execute_eq_ok success
  cases start.free (by rw [which]; decide)
  rw [which] at dispatched
  exact (processReclaimDeferred_empties dispatched).closes rfl

/-- Everything a closing instruction does to balances, for any accounts passed to it. -/
theorem closer_conserves (closer : Closer) (which : call.discriminator = closer.discriminator)
    (success : call.execute dep ledger = .ok m) :
    ∃ closed refund before, Closes dep call ledger m.ledger closer closed refund before := by
  by_cases deferred : closer = .executeDeferred
  · subst deferred
    exact executeDeferred_closes which success
  obtain ⟨collected, start, dispatched⟩ := Call.execute_eq_ok success
  cases start.free (by rw [which]; cases closer <;> first | rfl | exact absurd rfl deferred)
  rw [which] at dispatched
  cases closer with
  | removeAuthority => exact (processRemoveAuthority_empties dispatched).closes rfl
  | revokeSession => exact (processRevokeSession_empties dispatched).closes rfl
  | closeExpiredSession => exact (processCloseExpiredSession_empties dispatched).closes rfl
  | reclaimDeferred => exact reclaimDeferred_closes which success
  | executeDeferred => exact absurd rfl deferred
  | transferOwnership =>
    obtain ⟨funded, payer, new, args, space, closed, refund, payerAt, newAt, parsed, fixed, moved, closedAt, refundAt,
      distinct, prior, emptied⟩ := processTransferOwnership_empties dispatched
    have drained := (emptied.transfers distinct).conserves.mono (Call.pair_subset closedAt refundAt)
    exact ⟨closed, refund, funded, {
      closedAt := closedAt
      refundAt := refundAt
      earlier := ⟨payer, new, args, space, payerAt, newAt, parsed, fixed, moved⟩
      prior := fun _ => prior
      priorDeferred := prior.ge
      emptied := emptied
      distinct := fun _ => distinct
      conserved := fun _ => (moved.conserves.mono (Call.pair_subset payerAt newAt)).trans drained
      emptyItself := fun _ itself => absurd itself distinct
      fundedDistinct := fun _ _ => distinct }⟩

end Calls

/-- A deferred transfer drained into the payer. -/
theorem closer_conserves_executeDeferred : ∃ closed refund before,
    Closes Sample.deployment Sample.executeDeferred (ledgerAt Sample.deployment Ledger.empty Sample.events 8)
      (resultAt Sample.deployment Ledger.empty Sample.events 8 Sample.executeDeferred).ledger .executeDeferred closed
      refund before :=
  closer_conserves .executeDeferred (by decide)
    (succeedsAt_resultAt (by rfl) (by decide +kernel) : SucceedsAt Sample.deployment Ledger.empty Sample.events 8
      Sample.executeDeferred _).2

namespace Sample

/-- A deferred account without lamports that names itself as its payer. -/
def selfPaid : Account where
  lamports := 0
  owner := programId
  data := DeferredExecAccount.toBytes
    { discriminator := AccountDiscriminator.deferredExec.toByte, version := currentAccountVersion, bump := 251,
      padding := .fill 0, instructionsHash := instructionsHash, accountsHash := accountsHash, wallet := wallet,
      authority := authorityB, payer := deferred, expiresAt := 1101 }

/-- The deferred transfer with the deferred account as its refund destination. -/
def executeSelfPaid : Call where
  frame := executeDeferred.frame
  accounts := ⟨[payerInfo, readonly wallet, writable vault, writable deferred, writable deferred,
    readonly systemProgram, writable recipient] ++ feeAccounts, by decide, by decide +kernel⟩
  data := executeDeferred.data

end Sample

/-- ExecuteDeferred alone lets an account be closed into itself: it holds no lamports, so none are lost. -/
theorem executeDeferred_into_itself :
    ¬ ∀ (dep : Deployment) (ledger : Ledger) (call : Call) (m : Machine Approval) (closer : Closer)
      (closed refund : Pubkey), call.discriminator = closer.discriminator → call.execute dep ledger = .ok m →
      KeyAt call.processorAccounts closer.closedIndex closed → KeyAt call.processorAccounts closer.refundIndex refund →
      refund ≠ closed := by
  intro always
  let ledger := (ledgerAt Sample.deployment Ledger.empty Sample.events 8).set Sample.deferred Sample.selfPaid
  have success : (Sample.executeSelfPaid.execute Sample.deployment ledger).succeeded = true := by decide +kernel
  obtain ⟨m, executed⟩ := Except.exists_of_succeeded success
  exact always Sample.deployment ledger Sample.executeSelfPaid m .executeDeferred Sample.deferred Sample.deferred
    (by decide) executed ⟨_, rfl, rfl⟩ ⟨_, rfl, rfl⟩ rfl

end LazorKit
