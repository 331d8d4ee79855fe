import LazorKit.Machine.Spec
import LazorKit.Model.Program
import LazorKit.Proofs.Layout

/-! # The registry of live records

Of a whole ledger, the registry keeps the accounts that carry authority: those this program owns
whose tag says wallet, authority, session or deferred execution. It is the state of the abstract
protocol. Each primitive and helper of the processors is given its effect on the registry here, and
its effect on `Funded`, the invariant that a live record holds lamports.
-/

namespace LazorKit

open Solana

abbrev Registry := Pubkey → Option Bytes

/-- The tags of the records that carry authority. -/
def isRecordTag (tag : UInt8) : Bool :=
  tag = AccountDiscriminator.wallet.toByte ∨ tag = AccountDiscriminator.authority.toByte ∨
    tag = AccountDiscriminator.session.toByte ∨ tag = AccountDiscriminator.deferredExec.toByte

/-- The record some bytes are, if their tag says so. -/
def recordData (bytes : Bytes) : Option Bytes := if isRecordTag (bytes.byte 0) then some bytes else none

/-- The live record at an account. -/
def recordOf (dep : Deployment) (account : Account) : Option Bytes :=
  if account.owner = dep.programId then recordData account.data else none

def registry (dep : Deployment) (ledger : Ledger) : Registry := fun key => recordOf dep (ledger key)

/-- Every live record holds lamports, so the runtime never removes one. -/
def Funded (dep : Deployment) (ledger : Ledger) : Prop :=
  ∀ key, registry dep ledger key ≠ none → 0 < (ledger key).lamports

section Records

variable {dep : Deployment} {ledger ledger' : Ledger} {key : Pubkey} {bytes : Bytes}

private theorem recordData_eq_some {data : Bytes} :
    recordData data = some bytes ↔ data = bytes ∧ isRecordTag (bytes.byte 0) = true := by
  unfold recordData
  constructor
  · split
    · next tag =>
      intro same
      cases Option.some.inj same
      exact ⟨rfl, tag⟩
    · intro none
      cases none
  · rintro ⟨rfl, tag⟩
    rw [if_pos tag]

theorem registry_eq_some :
    registry dep ledger key = some bytes ↔
      (ledger key).owner = dep.programId ∧ (ledger key).data = bytes ∧ isRecordTag (bytes.byte 0) = true := by
  unfold registry recordOf
  split
  · next owned => rw [recordData_eq_some, and_iff_right owned]
  · next other =>
    constructor
    · intro absurd
      cases absurd
    · rintro ⟨owned, _⟩
      exact absurd owned other

theorem registry_of_owned (owned : (ledger key).owner = dep.programId) :
    registry dep ledger key = recordData (ledger key).data := if_pos owned

theorem registry_of_not_owned (other : (ledger key).owner ≠ dep.programId) :
    registry dep ledger key = none := if_neg other

theorem recordData_of_tag (tag : isRecordTag (bytes.byte 0) = true) : recordData bytes = some bytes :=
  if_pos tag

theorem recordData_of_not_tag (other : isRecordTag (bytes.byte 0) = false) : recordData bytes = none := by
  rw [recordData, other]
  rfl

private theorem recordData_of_isZero (zero : bytes.isZero = true) : recordData bytes = none := by
  apply recordData_of_not_tag
  rw [Bytes.byte_zero_of_isZero zero]
  rfl

theorem recordData_replicate (count : ℕ) : recordData (List.replicate count 0) = none :=
  recordData_of_isZero (Bytes.isZero_replicate count)

/-- Two ledgers with the same owners and data have the same records. -/
theorem registry_congr (owner : ∀ key, (ledger' key).owner = (ledger key).owner)
    (data : ∀ key, (ledger' key).data = (ledger key).data) : registry dep ledger' = registry dep ledger := by
  funext key
  simp only [registry, recordOf, owner, data]

theorem registry_set (account : Account) :
    registry dep (ledger.set key account) = Function.update (registry dep ledger) key (recordOf dep account) := by
  funext other
  by_cases same : other = key
  · subst same
    rw [Function.update_self, registry, Ledger.set_self]
  · rw [Function.update_of_ne same, registry, registry, Ledger.set_of_ne same]

/-- Nothing another program does touches a record. -/
theorem registry_respects (respects : Machine.Respects dep.toRuntime ledger ledger') :
    registry dep ledger' = registry dep ledger := by
  funext key
  by_cases owned : (ledger key).owner = dep.programId
  · obtain ⟨owned', data, _⟩ := Machine.foreignChange_of_owned (respects key) owned
    rw [registry_of_owned owned, registry_of_owned owned', data]
  · rw [registry_of_not_owned owned]
    by_cases late : (ledger' key).owner = dep.programId
    · rw [registry_of_owned late]
      exact recordData_of_isZero (Machine.foreignChange_of_not_owned (respects key) owned late)
    · exact registry_of_not_owned late

theorem funded_respects (respects : Machine.Respects dep.toRuntime ledger ledger')
    (funded : Funded dep ledger) : Funded dep ledger' := by
  intro key live
  rw [registry_respects respects] at live
  have owned : (ledger key).owner = dep.programId := by
    by_contra other
    exact live (registry_of_not_owned other)
  exact (funded key live).trans_le (Machine.foreignChange_of_owned (respects key) owned).2.2

end Records

section Effects

variable {dep : Deployment} {fr : Frame} {m m' : Machine Approval}

theorem registry_unmoved (unmoved : Machine.Unmoved m m') :
    registry dep m'.ledger = registry dep m.ledger :=
  registry_congr unmoved.owner unmoved.data

/-- One account's data was replaced; owners and lamports are as they were. -/
structure Stored (m m' : Machine Approval) (key : Pubkey) (bytes : Bytes) : Prop where
  data : ∀ other, m'.data other = if other = key then bytes else m.data other
  owner : ∀ other, m'.owner other = m.owner other
  lamports : ∀ other, m'.lamports other = m.lamports other

namespace Stored

variable {key : Pubkey} {bytes : Bytes}

theorem data_self (stored : Stored m m' key bytes) : m'.data key = bytes := by
  rw [stored.data, if_pos rfl]

theorem data_of_ne (stored : Stored m m' key bytes) {other : Pubkey} (ne : other ≠ key) :
    m'.data other = m.data other := by
  rw [stored.data, if_neg ne]

/-- Storing into an account of this program replaces its record. -/
theorem registry (stored : Stored m m' key bytes) (owned : m.owner key = dep.programId) :
    registry dep m'.ledger = Function.update (registry dep m.ledger) key (recordData bytes) := by
  funext other
  by_cases same : other = key
  · subst same
    rw [Function.update_self, registry_of_owned ((stored.owner other).trans owned)]
    exact congrArg recordData stored.data_self
  · have data : (m'.ledger other).data = (m.ledger other).data := stored.data_of_ne same
    have owner : (m'.ledger other).owner = (m.ledger other).owner := stored.owner other
    rw [Function.update_of_ne same]
    simp only [LazorKit.registry, recordOf, data, owner]

theorem funded (stored : Stored m m' key bytes) (positive : 0 < m.lamports key)
    (funded : Funded dep m.ledger) : Funded dep m'.ledger := by
  intro other live
  have lamports : (m'.ledger other).lamports = (m.ledger other).lamports := stored.lamports other
  rw [lamports]
  by_cases same : other = key
  · exact same ▸ positive
  · apply funded other
    have data : (m'.ledger other).data = (m.ledger other).data := stored.data_of_ne same
    have owner : (m'.ledger other).owner = (m.ledger other).owner := stored.owner other
    simpa only [LazorKit.registry, recordOf, data, owner] using live

end Stored

theorem writeData_eq_ok {acc : AccountInfo} {bytes : Bytes}
    (success : m.writeData dep.toRuntime acc bytes = .ok m') :
    Stored m m' acc.key bytes ∧ m'.approved = m.approved ∧ m'.invoked = m.invoked := by
  rw [(Machine.writeData_eq_ok success).1]
  refine ⟨⟨fun other => ?_, fun other => ?_, fun other => ?_⟩, rfl, rfl⟩
  · rw [Machine.data_setAccount]
  · rw [Machine.owner_setAccount]
    split <;> simp_all [Machine.owner]
  · rw [Machine.lamports_setAccount]
    split <;> simp_all [Machine.lamports]

/-- A transfer debits only an account without data, which is no record. -/
theorem funded_systemTransfer {source target : AccountInfo} {signs : Bool} {amount : ℕ}
    (success : m.systemTransfer source target signs amount = .ok m') (funded : Funded dep m.ledger) :
    Funded dep m'.ledger := by
  obtain ⟨empty, _, unmoved, more, _⟩ := Machine.systemTransfer_eq_ok success
  intro key live
  rw [registry_unmoved unmoved] at live
  have other : key ≠ source.key := by
    rintro rfl
    apply live
    rw [registry, recordOf, show (m.ledger source.key).data = [] from empty]
    split <;> rfl
  exact (funded key live).trans_le (more key other)

/-- A fresh account at `target`: it had no data and was the System program's, and is now this
program's, zeroed and funded. Nothing else changed but lamports. -/
structure Created (dep : Deployment) (m m' : Machine Approval) (target : Pubkey) (space : ℕ) : Prop where
  wasEmpty : m.data target = []
  wasSystem : m.owner target = systemProgram
  data : ∀ key, m'.data key = if key = target then List.replicate space 0 else m.data key
  owner : ∀ key, m'.owner key = if key = target then dep.programId else m.owner key
  positive : 0 < m'.lamports target
  funded : Funded dep m.ledger → Funded dep m'.ledger
  approved : m'.approved = m.approved
  invoked : m'.invoked = m.invoked

namespace Created

variable {target : Pubkey} {space : ℕ}

theorem data_self (created : Created dep m m' target space) : m'.data target = List.replicate space 0 := by
  rw [created.data, if_pos rfl]

theorem owner_self (created : Created dep m m' target space) : m'.owner target = dep.programId := by
  rw [created.owner, if_pos rfl]

/-- The created account was no record and is none until something is stored in it. -/
theorem registry (created : Created dep m m' target space) :
    registry dep m'.ledger = registry dep m.ledger := by
  funext key
  have data : (m'.ledger key).data = _ := created.data key
  have owner : (m'.ledger key).owner = _ := created.owner key
  by_cases same : key = target
  · subst same
    rw [if_pos rfl] at data owner
    have before : LazorKit.registry dep m.ledger key = none := registry_of_not_owned (by
      rw [show (m.ledger key).owner = systemProgram from created.wasSystem]
      exact dep.programId_ne_system.symm)
    rw [registry_of_owned owner, data, recordData_replicate, before]
  · rw [if_neg same] at data owner
    simp only [LazorKit.registry, recordOf, data, owner]
    rfl

theorem wasUnrecorded (created : Created dep m m' target space) :
    LazorKit.registry dep m.ledger target = none :=
  registry_of_not_owned (by
    rw [show (m.ledger target).owner = systemProgram from created.wasSystem]
    exact dep.programId_ne_system.symm)

end Created

theorem initializePdaAccount_eq_ok {payer target system : AccountInfo} {space rent : ℕ}
    (success : initializePdaAccount dep m payer target system space rent = .ok m') (positive : 0 < rent) :
    Created dep m m' target.key space := by
  simp only [initializePdaAccount, Except.bind_eq_ok, Except.ensure_eq_ok, exists_const] at success
  obtain ⟨_, paid, payment, allocated, allocation, assignment⟩ := success
  have funding : Machine.Unmoved m paid ∧ 0 < paid.lamports target.key ∧
      (Funded dep m.ledger → Funded dep paid.ledger) := by
    split at payment
    · next short =>
      obtain ⟨_, _, unmoved, _, credited⟩ := Machine.systemTransfer_eq_ok payment
      exact ⟨unmoved, by omega, funded_systemTransfer payment⟩
    · next enough =>
      cases payment
      exact ⟨.refl m, by omega, id⟩
  obtain ⟨unmoved, held, keepsFunded⟩ := funding
  obtain ⟨empty, wasSystem, rfl⟩ := Machine.systemAllocate_eq_ok allocation
  have result := Machine.systemAssign_eq_ok assignment
  subst result
  refine ⟨(unmoved.data _).symm.trans empty, (unmoved.owner _).symm.trans wasSystem, fun key => ?_,
    fun key => ?_, ?_, fun funded => ?_, unmoved.approved, unmoved.invoked⟩
  · simp only [Machine.data_setAccount, unmoved.data]
    split <;> simp_all
  · simp only [Machine.owner_setAccount, unmoved.owner]
    split <;> simp_all
  · simpa [Machine.lamports_setAccount, Machine.lamports] using held
  · intro key live
    by_cases same : key = target.key
    · subst same
      simpa [Machine.lamports] using held
    · simp only [Machine.ledger_setAccount, Ledger.set_of_ne same]
      apply keepsFunded funded
      simpa only [registry, Machine.ledger_setAccount, Ledger.set_of_ne same] using live

/-- Draining moves the whole balance and touches no third account. -/
theorem drainInto_lamports {closed refund : AccountInfo} (success : drainInto dep m closed refund = .ok m')
    (key : Pubkey) : m'.lamports key =
      if key = closed.key then 0
      else if key = refund.key then m.lamports refund.key + m.lamports closed.key else m.lamports key := by
  simp only [drainInto, Except.bind_eq_ok, Except.ensure_eq_ok, exists_const] at success
  obtain ⟨_, funded, credit, debit⟩ := success
  rw [Machine.writeLamports_eq_ok credit] at debit
  rw [Machine.writeLamports_eq_ok debit]
  simp only [Machine.lamports_setAccount]

theorem drainInto_eq_ok {closed refund : AccountInfo} (success : drainInto dep m closed refund = .ok m') :
    Machine.Unmoved m m' ∧ m'.lamports closed.key = 0 ∧
      (∀ key, key ≠ closed.key → m.lamports key ≤ m'.lamports key) ∧
      (closed.key ≠ refund.key →
        m'.lamports refund.key = m.lamports refund.key + m.lamports closed.key) := by
  simp only [drainInto, Except.bind_eq_ok, Except.ensure_eq_ok, exists_const] at success
  obtain ⟨_, funded, credit, debit⟩ := success
  have first := Machine.writeLamports_unmoved credit
  have second := Machine.writeLamports_unmoved debit
  rw [Machine.writeLamports_eq_ok credit] at debit second first
  rw [Machine.writeLamports_eq_ok debit] at second ⊢
  refine ⟨first.trans second, by simp [Machine.lamports_setAccount], ?_, ?_⟩
  · intro key other
    simp only [Machine.lamports_setAccount, if_neg other]
    split
    · next same =>
      subst same
      omega
    · exact Nat.le_refl _
  · intro distinct
    simp [Machine.lamports_setAccount, distinct.symm]

theorem zeroData_eq_ok {acc : AccountInfo} (success : zeroData dep m acc = .ok m') :
    Stored m m' acc.key (List.replicate (m.data acc.key).length 0) ∧ m'.approved = m.approved ∧
      m'.invoked = m.invoked := writeData_eq_ok success

/-- A closed account: zeroed, drained into the refund destination, and no record any more. -/
structure Closed (dep : Deployment) (m m' : Machine Approval) (closed refund : Pubkey) : Prop where
  registry : registry dep m'.ledger = Function.update (registry dep m.ledger) closed none
  owner : ∀ key, m'.owner key = m.owner key
  data_of_ne : ∀ key, key ≠ closed → m'.data key = m.data key
  emptied : m'.lamports closed = 0
  refunded : closed ≠ refund → m'.lamports refund = m.lamports refund + m.lamports closed
  funded : Funded dep m.ledger → Funded dep m'.ledger
  approved : m'.approved = m.approved
  invoked : m'.invoked = m.invoked

theorem closed_of_drain_zero {closed refund : AccountInfo} {drained : Machine Approval}
    (owned : m.owner closed.key = dep.programId) (drain : drainInto dep m closed refund = .ok drained)
    (zero : zeroData dep drained closed = .ok m') : Closed dep m m' closed.key refund.key := by
  obtain ⟨unmoved, emptied, more, refunded⟩ := drainInto_eq_ok drain
  obtain ⟨stored, approved, invoked⟩ := zeroData_eq_ok zero
  have records : registry dep m'.ledger = Function.update (registry dep m.ledger) closed.key none := by
    rw [stored.registry ((unmoved.owner _).trans owned), registry_unmoved unmoved, recordData_replicate]
  refine ⟨records, fun key => (stored.owner key).trans (unmoved.owner key),
    fun key other => (stored.data_of_ne other).trans (unmoved.data key), (stored.lamports _).trans emptied,
    fun distinct => (stored.lamports _).trans (refunded distinct), fun funded key live => ?_,
    approved.trans unmoved.approved, invoked.trans unmoved.invoked⟩
  have other : key ≠ closed.key := by
    rintro rfl
    rw [records, Function.update_self] at live
    exact live rfl
  rw [records, Function.update_of_ne other] at live
  rw [show (m'.ledger key).lamports = drained.lamports key from stored.lamports key]
  exact (funded key live).trans_le (more key other)

theorem closed_of_zero_drain {closed refund : AccountInfo} {zeroed : Machine Approval}
    (owned : m.owner closed.key = dep.programId) (zero : zeroData dep m closed = .ok zeroed)
    (drain : drainInto dep zeroed closed refund = .ok m') : Closed dep m m' closed.key refund.key := by
  obtain ⟨stored, approved, invoked⟩ := zeroData_eq_ok zero
  obtain ⟨unmoved, emptied, more, refunded⟩ := drainInto_eq_ok drain
  have records : registry dep m'.ledger = Function.update (registry dep m.ledger) closed.key none := by
    rw [registry_unmoved unmoved, stored.registry owned, recordData_replicate]
  refine ⟨records, fun key => (unmoved.owner key).trans (stored.owner key),
    fun key other => (unmoved.data key).trans (stored.data_of_ne other), emptied,
    fun distinct => ?_, fun funded key live => ?_, unmoved.approved.trans approved,
    unmoved.invoked.trans invoked⟩
  · rw [refunded distinct, stored.lamports, stored.lamports]
  · have other : key ≠ closed.key := by
      rintro rfl
      rw [records, Function.update_self] at live
      exact live rfl
    rw [records, Function.update_of_ne other] at live
    have before : 0 < zeroed.lamports key := by
      rw [stored.lamports]
      exact funded key live
    exact before.trans_le (more key other)

end Effects

end LazorKit
