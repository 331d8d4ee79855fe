import LazorKit.Soundness.AdminRotation
import LazorKit.ToMathlib.CountUpdate

/-! # Fees

CreateWallet, Execute and ExecuteDeferred pay the configured fee in front of their processor. Every fee moves
from the payer to a shard and is entered in the payer's record, nothing else ever touches a record's total,
and so the totals of all records are what the shards were credited with.
-/

namespace LazorKit

open Solana

/-- The fee due for an instruction under a configuration, when there is one. -/
def configuredFee (config : Option ProtocolConfig) (discriminator : UInt8) : ℕ :=
  match config with
  | some config =>
    if config.enabled = 1 then if discriminator = 0 then config.creationFee else config.executionFee else 0
  | none => 0

variable {dep : Deployment} {ledger : Ledger} {events : List Event} {i : ℕ} {call : Call} {m m' : Machine Approval}
  {fr : Frame} {discriminator : UInt8} {accounts : List AccountInfo} {fee : ℕ} {key : Pubkey}

theorem resolveFee_eq {config : AccountInfo} (address : config.key = ProtocolConfig.pda dep)
    (discriminator : UInt8) :
    resolveFee dep m config discriminator = configuredFee (configIn dep (book dep m.ledger)) discriminator := by
  unfold resolveFee
  split
  · next valid =>
    obtain ⟨owned, checks⟩ := valid
    obtain ⟨_, checked⟩ := Except.exists_of_succeeded checks
    have entry : book dep m.ledger (ProtocolConfig.pda dep) = some (m.data config.key) := by
      rw [← address]
      exact book_of_tag owned (by rw [(ProtocolConfig.check_eq_ok.mp checked).2.1]; rfl)
    rw [configIn_of_entry entry checked]
    rfl
  · next invalid =>
    have absent : configIn dep (book dep m.ledger) = none := by
      rw [configIn, Option.bind_eq_none_iff]
      intro bytes entry
      obtain ⟨owned, rfl, _⟩ := book_eq_some.mp entry
      rw [if_neg]
      intro checked
      apply invalid
      rw [address]
      exact ⟨owned, congrArg Except.succeeded checked⟩
    rw [absent]
    rfl

/-- The fee record an entry holds, when it passes the check of one. -/
def recordIn (entry : Option Bytes) : Option FeeRecord :=
  entry.bind fun bytes => if FeeRecord.check bytes = .ok () then some (FeeRecord.read bytes) else none

/-- What an entry has paid in fees. -/
def feesPaid (entry : Option Bytes) : ℕ := ((recordIn entry).map (·.totalFeesPaid)).getD 0

private theorem recordIn_of_check {bytes : Bytes} (checked : FeeRecord.check bytes = .ok ()) :
    recordIn (some bytes) = some (FeeRecord.read bytes) := by
  rw [recordIn, Option.bind_some, if_pos checked]

private theorem recordIn_of_tag {bytes : Bytes} (other : bytes.byte 0 ≠ AccountDiscriminator.feeRecord.toByte) :
    recordIn (some bytes) = none := by
  rw [recordIn, Option.bind_some, if_neg]
  intro checked
  exact other (FeeRecord.check_eq_ok.mp checked).2.1

private theorem recordIn_loaded {book : Registry} {bytes : Bytes} (loaded : LoadedConfig dep book bytes) :
    recordIn (book (ProtocolConfig.pda dep)) = none := by
  rw [loaded.recorded]
  apply recordIn_of_tag
  rw [(ProtocolConfig.check_eq_ok.mp loaded.checked).2.1]
  decide

theorem FeeRecord.check_newFeeRecord (bump : UInt8) (slot : ℕ) : check (newFeeRecord bump slot).toBytes = .ok () :=
  check_eq_ok.mpr ⟨(length_toBytes _).ge, rfl, rfl⟩

private theorem recordIn_newFeeRecord (bump : UInt8) (slot : UInt64) :
    recordIn (some (newFeeRecord bump slot.toNat).toBytes) = some (newFeeRecord bump slot.toNat) := by
  have read : FeeRecord.read ((newFeeRecord bump slot.toNat).toBytes ++ []) = newFeeRecord bump slot.toNat :=
    FeeRecord.read_toBytes_append [] (Nat.two_pow_pos 64) (Nat.two_pow_pos 32) (Nat.two_pow_pos 32) slot.toNat_lt
  rw [List.append_nil] at read
  rw [recordIn_of_check (FeeRecord.check_newFeeRecord ..), read]

/-- A charged record is a record. -/
theorem FeeRecord.check_write_charge {old : Bytes} (checked : check old = .ok ()) (fee : ℕ) (discriminator : UInt8) :
    check (write old ((read old).charge fee discriminator)) = .ok () := by
  obtain ⟨long, tag, version⟩ := check_eq_ok.mp checked
  apply check_eq_ok.mpr
  refine ⟨?_, ?_, ?_⟩
  · rw [write_eq, List.length_append, length_toBytes]
    omega
  · rw [byte_zero_charge, tag]
  · change ((read old).charge fee discriminator).version = _
    rw [← version]
    unfold charge
    split <;> rfl

private theorem recordIn_charge {old : Bytes} (checked : FeeRecord.check old = .ok ()) (discriminator : UInt8)
    (bound : (FeeRecord.read old).totalFeesPaid + fee < 2 ^ 64) :
    recordIn (some (FeeRecord.write old ((FeeRecord.read old).charge fee discriminator))) =
      some ((FeeRecord.read old).charge fee discriminator) := by
  rw [recordIn_of_check (FeeRecord.check_write_charge checked ..), FeeRecord.read_write_charge bound]

/-- An instruction leaves every fee record as it is; RegisterIntegrator makes one that has paid nothing. -/
theorem BookStep.record {data : Bytes} {book after : Registry}
    (step : BookStep dep fr accounts data book discriminator after) (key : Pubkey) :
    recordIn (after key) = recordIn (book key) ∨
      book key = none ∧ ∃ record, recordIn (after key) = some record ∧ record.totalFeesPaid = 0 := by
  -- All but `register` write an entry that neither was nor becomes a fee record.
  have elsewhere {at_ : Pubkey} {bytes : Bytes} (before : recordIn (book at_) = none)
      (other : bytes.byte 0 ≠ AccountDiscriminator.feeRecord.toByte) :
      recordIn (Function.update book at_ (some bytes) key) = recordIn (book key) := by
    by_cases same : key = at_
    · subst same
      rw [Function.update_self, before, recordIn_of_tag other]
    · rw [Function.update_of_ne same]
  have configTag {old : Bytes} {config : ProtocolConfig} (loaded : LoadedConfig dep book old)
      (tag : config.discriminator = (ProtocolConfig.read old).discriminator) :
      (ProtocolConfig.write old config).byte 0 ≠ AccountDiscriminator.feeRecord.toByte := by
    change config.discriminator ≠ _
    rw [tag, show (ProtocolConfig.read old).discriminator = _ from (ProtocolConfig.check_eq_ok.mp loaded.checked).2.1]
    decide
  cases step with
  | spared => exact .inl rfl
  | initializeConfig _ _ fresh =>
    left
    apply elsewhere (by rw [fresh]; rfl)
    exact fun same => absurd same (by decide : AccountDiscriminator.protocolConfig.toByte ≠ _)
  | update loaded => exact .inl (elsewhere (recordIn_loaded loaded) (configTag loaded rfl))
  | @register payer bump signed fresh =>
    by_cases same : key = feeRecordAddress dep payer
    · right
      subst same
      exact ⟨fresh, _, by rw [Function.update_self, recordIn_newFeeRecord], rfl⟩
    · left
      rw [Function.update_of_ne same]
  | initializeShard loaded _ fresh =>
    left
    apply elsewhere (by rw [fresh]; rfl)
    exact fun same => absurd same (by decide : AccountDiscriminator.treasuryShard.toByte ≠ _)
  | propose loaded => exact .inl (elsewhere (recordIn_loaded loaded) (configTag loaded rfl))
  | accept loaded => exact .inl (elsewhere (recordIn_loaded loaded) (configTag loaded rfl))

/-- A fee was paid: the payer, who signed as the first account, sent it to a shard at its address, and it is
entered in the record at the payer's address. Where there was no record, the payer also funded a new one. -/
structure FeePaid (dep : Deployment) (call : Call) (m collected : Machine Approval) (fee : ℕ)
    (payer record shard : Pubkey) : Prop where
  signed : SignerAt call.accounts.infos 0 payer
  recordAt : KeyAt call.accounts.infos (call.accounts.infos.length - 3) record ∧ record = feeRecordAddress dep payer
  shardAt : KeyAt call.accounts.infos (call.accounts.infos.length - 2) shard ∧
    ∃ bytes, book dep m.ledger shard = some bytes ∧ TreasuryShard.check bytes = .ok () ∧
      shard = shardAddress dep (TreasuryShard.readShardId bytes)
  moved : ∃ rent, (book dep m.ledger record ≠ none → rent = 0) ∧ rent + fee ≤ m.lamports payer ∧
    ∀ key, collected.lamports key =
      if key = shard then m.lamports shard + fee
      else if key = payer then m.lamports payer - (rent + fee)
      else if key = record then m.lamports record + rent else m.lamports key
  entered : ∃ old bytes, (recordIn (book dep m.ledger record) = some old ∨
      book dep m.ledger record = none ∧ ∃ bump, old = newFeeRecord bump call.frame.slot.toNat) ∧
    recordIn (some bytes) = some (old.charge fee call.discriminator) ∧
    book dep collected.ledger = Function.update (book dep m.ledger) record (some bytes)

/-- Collecting a fee pays what the configuration asks for, or nothing happens because that is nothing. -/
theorem FeeStep.paid (step : FeeStep dep call.frame call.discriminator call.accounts.infos m m' fee) :
    fee = configuredFee (configIn dep (book dep m.ledger)) call.discriminator ∧
      (fee = 0 ∧ m' = m ∨ 0 < fee ∧ ∃ payer record shard, FeePaid dep call m m' fee payer record shard) := by
  cases step with
  | skipped _ address free same =>
    rw [resolveFee_eq address] at free
    exact ⟨free.symm, .inl ⟨rfl, same⟩⟩
  | @charged config payer record shard old shardBytes bump topUp _ address due signed recordAt recordIs shardAt
      shardRecorded shardChecked shardIs previous bound after affordable balances =>
    refine ⟨resolveFee_eq address _, .inr ⟨due, payer, record, shard, signed, ⟨recordAt, recordIs⟩,
      ⟨shardAt, shardBytes, shardRecorded, shardChecked, shardIs⟩, ⟨topUp, ?_, affordable, balances⟩, ?_⟩⟩
    · intro there
      rcases previous with ⟨_, _, none_⟩ | ⟨fresh, _⟩
      · exact none_
      · exact absurd fresh there
    · rcases previous with ⟨there, checked, _⟩ | ⟨fresh, rfl⟩
      · exact ⟨_, _, .inl (by rw [there, recordIn_of_check checked]), recordIn_charge checked _ bound, after⟩
      · have seen := recordIn_newFeeRecord bump call.frame.slot
        have checked := FeeRecord.check_newFeeRecord bump call.frame.slot.toNat
        rw [recordIn_of_check checked, Option.some.injEq] at seen
        refine ⟨_, _, .inr ⟨fresh, bump, seen⟩, recordIn_charge checked _ bound, after⟩

/-- The totals of all records of a book. -/
noncomputable def totalFeesPaid (book : Registry) : ℕ := ∑ᶠ key, feesPaid (book key)

private theorem FeeRecord.totalFeesPaid_charge (record : FeeRecord) (fee : ℕ) (discriminator : UInt8) :
    (record.charge fee discriminator).totalFeesPaid = record.totalFeesPaid + fee := by
  unfold FeeRecord.charge
  split <;> rfl

theorem FeePaid.total {collected : Machine Approval} {payer record shard : Pubkey}
    (paid : FeePaid dep call m collected fee payer record shard) :
    totalFeesPaid (book dep collected.ledger) = totalFeesPaid (book dep m.ledger) + fee := by
  obtain ⟨old, bytes, previous, charged, after⟩ := paid.entered
  have before : feesPaid (book dep m.ledger record) = old.totalFeesPaid := by
    rcases previous with there | ⟨fresh, _, rfl⟩
    · rw [feesPaid, there]
      rfl
    · rw [fresh]
      rfl
  have now : feesPaid (some bytes) = old.totalFeesPaid + fee := by
    rw [feesPaid, charged, Option.map_some, Option.getD_some, FeeRecord.totalFeesPaid_charge]
  have balance := Function.finsum_update (book dep m.ledger) record (some bytes) feesPaid
  rw [← after, before, now] at balance
  rw [totalFeesPaid, totalFeesPaid]
  omega

/-- Paying a fee charges one record and keeps the others. -/
theorem FeePaid.record {collected : Machine Approval} {payer record shard : Pubkey} {stored : FeeRecord}
    (paid : FeePaid dep call m collected fee payer record shard)
    (there : recordIn (book dep m.ledger key) = some stored) :
    recordIn (book dep collected.ledger key) = some stored ∨
      recordIn (book dep collected.ledger key) = some (stored.charge fee call.discriminator) := by
  obtain ⟨old, bytes, previous, charged, after⟩ := paid.entered
  rw [after]
  by_cases same : key = record
  · subst same
    right
    rcases previous with isOld | ⟨fresh, _⟩
    · rw [there, Option.some.injEq] at isOld
      rw [Function.update_self, charged, isOld]
    · rw [fresh] at there
      cases there
  · left
    rwa [Function.update_of_ne same]

private theorem isBookkeeping_of_eligible (eligible : isFeeEligible discriminator = true) :
    isBookkeeping discriminator = false := by
  simp only [isFeeEligible, decide_eq_true_eq] at eligible
  rcases eligible with rfl | rfl | rfl <;> rfl

/-- An instruction that does not keep the book leaves it alone. -/
theorem BookStep.eq_of_spared {data : Bytes} {book after : Registry}
    (step : BookStep dep fr accounts data book discriminator after) (other : isBookkeeping discriminator = false) :
    after = book := by
  cases step with
  | spared => rfl
  | _ => cases other

/-- A successful fee-eligible call collects its fee and leaves the rest to its processor, which does not
touch the book. -/
theorem SucceedsAt.collects (success : SucceedsAt dep ledger events i call m)
    (eligible : isFeeEligible call.discriminator = true) :
    ∃ collected fee,
      tryCollectFee dep call.frame call.discriminator call.accounts.infos
        (Machine.start (ledgerAt dep ledger events i)) =
        .ok (collected, call.processorAccounts) ∧
      FeeStep dep call.frame call.discriminator call.accounts.infos (Machine.start (ledgerAt dep ledger events i))
        collected fee ∧
      dispatch dep call.frame call.discriminator call.processorAccounts call.accounts.infos call.arguments collected =
        .ok m ∧
      bookAt dep ledger events (i + 1) = book dep collected.ledger := by
  obtain ⟨collected, start, dispatched⟩ := Call.execute_eq_ok success.2
  rw [Collected, if_pos eligible] at start
  obtain ⟨fee, step⟩ := tryCollectFee_book start
  refine ⟨collected, fee, start, step, dispatched, ?_⟩
  have refines := dispatch_book (fun free => by rw [eligible] at free; cases free) dispatched
  rw [bookAt, success.ledgerAt_succ]
  exact refines.step.eq_of_spared (isBookkeeping_of_eligible eligible)

/-- A call without a fee takes none. -/
theorem FeeTaken.of_ineligible {collected : Machine Approval} (taken : FeeTaken dep call m collected fee)
    (free : isFeeEligible call.discriminator = false) : collected = m := by
  rw [FeeTaken, free] at taken
  exact taken.1

end LazorKit
