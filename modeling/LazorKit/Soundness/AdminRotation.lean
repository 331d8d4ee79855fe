import LazorKit.Proofs.BookRuns
import LazorKit.Proofs.ConcreteRun

/-! # The protocol configuration and its admin

The configuration is written by four instructions. As a transition system it starts absent, is created once
and then changes by updates and proposals of its admin and by acceptances of the proposed key. What a
pending admin stands for is a statement about the past: the last proposal or acceptance was a proposal that
named it.
-/

namespace LazorKit

open Solana

/-- The configuration of a book: the entry at its address, when that passes the check of one. -/
def configIn (dep : Deployment) (book : Registry) : Option ProtocolConfig :=
  (book (ProtocolConfig.pda dep)).bind fun bytes =>
    if ProtocolConfig.check bytes = .ok () then some (ProtocolConfig.read bytes) else none

/-- The configuration in front of the `i`th event. -/
def configAt (dep : Deployment) (ledger : Ledger) (events : List Event) (i : ℕ) : Option ProtocolConfig :=
  configIn dep (bookAt dep ledger events i)

/-- What one instruction can do to the configuration. -/
inductive ConfigStep (dep : Deployment) (call : Call) : Option ProtocolConfig → Option ProtocolConfig → Prop
  | kept {config : Option ProtocolConfig}
      (other : call.discriminator ≠ 11 ∧ call.discriminator ≠ 15 ∧ call.discriminator ≠ 16) :
      ConfigStep dep call config config
  | initialized {bump : UInt8} (is : call.discriminator = 10)
      (signed : SignerAt call.processorAccounts 0 dep.protocolInitAuthority)
      (fees : (newConfig bump call.arguments).creationFee ≤ maxProtocolFeeLamports ∧
        (newConfig bump call.arguments).executionFee ≤ maxProtocolFeeLamports) :
      ConfigStep dep call none (some (newConfig bump call.arguments))
  | updated {config : ProtocolConfig} (is : call.discriminator = 11)
      (signed : SignerAt call.processorAccounts 0 config.admin)
      (fees : (updatedConfig config call.arguments).creationFee ≤ maxProtocolFeeLamports ∧
        (updatedConfig config call.arguments).executionFee ≤ maxProtocolFeeLamports)
      (flag : (updatedConfig config call.arguments).enabled ≤ 1) :
      ConfigStep dep call (some config) (some (updatedConfig config call.arguments))
  | proposed {config : ProtocolConfig} (is : call.discriminator = 15)
      (signed : SignerAt call.processorAccounts 0 config.admin) :
      ConfigStep dep call (some config) (some { config with pendingAdmin := readKey call.arguments 0 })
  | accepted {config : ProtocolConfig} (is : call.discriminator = 16)
      (signed : SignerAt call.processorAccounts 0 config.pendingAdmin) (named : config.pendingAdmin ≠ .fill 0) :
      ConfigStep dep call (some config)
        (some { config with admin := config.pendingAdmin, pendingAdmin := .fill 0 })

variable {dep : Deployment} {ledger : Ledger} {events : List Event} {i : ℕ} {call : Call} {m : Machine Approval}
  {config : ProtocolConfig} {view view' : Option ProtocolConfig}

theorem configIn_of_entry {book : Registry} {bytes : Bytes} (entry : book (ProtocolConfig.pda dep) = some bytes)
    (checked : ProtocolConfig.check bytes = .ok ()) : configIn dep book = some (ProtocolConfig.read bytes) := by
  rw [configIn, entry, Option.bind_some, if_pos checked]

private theorem configIn_of_none {book : Registry} (fresh : book (ProtocolConfig.pda dep) = none) :
    configIn dep book = none := by
  rw [configIn, fresh, Option.bind_none]

/-- An entry under another tag is no configuration. -/
theorem configIn_of_tag {book : Registry} {bytes : Bytes} (entry : book (ProtocolConfig.pda dep) = some bytes)
    (other : bytes.byte 0 ≠ AccountDiscriminator.protocolConfig.toByte) : configIn dep book = none := by
  rw [configIn, entry, Option.bind_some, if_neg]
  intro checked
  exact other (ProtocolConfig.check_eq_ok.mp checked).2.1

/-- Entries elsewhere have no part in the configuration. -/
theorem configIn_update_of_ne {book : Registry} {key : Pubkey} {entry : Option Bytes}
    (ne : key ≠ ProtocolConfig.pda dep) : configIn dep (Function.update book key entry) = configIn dep book := by
  rw [configIn, configIn, Function.update_of_ne ne.symm]

/-- An entry under another tag, where there was none, makes no configuration. -/
theorem configIn_update_of_tag {book : Registry} {key : Pubkey} {bytes : Bytes}
    (before : key = ProtocolConfig.pda dep → configIn dep book = none)
    (other : bytes.byte 0 ≠ AccountDiscriminator.protocolConfig.toByte) :
    configIn dep (Function.update book key (some bytes)) = configIn dep book := by
  by_cases same : key = ProtocolConfig.pda dep
  · rw [before same]
    subst same
    exact configIn_of_tag (Function.update_self ..) other
  · exact configIn_update_of_ne same

private theorem LoadedConfig.configIn_eq {book : Registry} {bytes : Bytes} (loaded : LoadedConfig dep book bytes) :
    configIn dep book = some (ProtocolConfig.read bytes) :=
  configIn_of_entry loaded.recorded loaded.checked

/-- Rewriting a configuration under its own header keeps it one. -/
theorem ProtocolConfig.check_write {old : Bytes} {config : ProtocolConfig} (checked : check old = .ok ())
    (header : config.discriminator = (read old).discriminator ∧ config.version = (read old).version) :
    check (write old config) = .ok () := by
  obtain ⟨long, oldTag, oldVersion⟩ := check_eq_ok.mp checked
  apply check_eq_ok.mpr
  refine ⟨?_, ?_, ?_⟩
  · rw [write_eq, List.length_append, length_toBytes]
    omega
  · exact header.1.trans oldTag
  · exact header.2.trans oldVersion

/-- A rewritten configuration is seen as it was meant. -/
theorem configIn_update_write {book : Registry} {old : Bytes} {config : ProtocolConfig}
    (loaded : LoadedConfig dep book old)
    (header : config.discriminator = (ProtocolConfig.read old).discriminator ∧
      config.version = (ProtocolConfig.read old).version)
    (fees : config.creationFee < 2 ^ 64 ∧ config.executionFee < 2 ^ 64) :
    configIn dep (Function.update book (ProtocolConfig.pda dep) (some (ProtocolConfig.write old config))) =
      some config := by
  rw [configIn_of_entry (Function.update_self ..) (ProtocolConfig.check_write loaded.checked header),
    ProtocolConfig.read_write fees.1 fees.2]

theorem ProtocolConfig.check_newConfig (bump : UInt8) (data : Bytes) : check (newConfig bump data).toBytes = .ok () :=
  check_eq_ok.mpr ⟨(length_toBytes _).ge, rfl, rfl⟩

theorem byte_zero_charge (old : Bytes) (fee : ℕ) (discriminator : UInt8) :
    (FeeRecord.write old ((FeeRecord.read old).charge fee discriminator)).byte 0 = old.byte 0 := by
  change ((FeeRecord.read old).charge fee discriminator).discriminator = _
  rw [FeeRecord.discriminator_charge]
  rfl

/-- Collecting a fee leaves the configuration alone: what it writes is a fee record. -/
theorem FeeStep.configIn_eq {fr : Frame} {discriminator : UInt8} {accounts : List AccountInfo}
    {m m' : Machine Approval} {fee : ℕ} (step : FeeStep dep fr discriminator accounts m m' fee) :
    configIn dep (book dep m'.ledger) = configIn dep (book dep m.ledger) := by
  cases step with
  | skipped _ _ _ same => rw [same]
  | @charged _ _ record _ old _ _ _ _ _ _ _ _ _ _ _ _ _ previous _ after =>
    have tag : old.byte 0 = AccountDiscriminator.feeRecord.toByte := by
      rcases previous with ⟨_, checked, _⟩ | ⟨_, rfl⟩
      · exact (FeeRecord.check_eq_ok.mp checked).2.1
      · rfl
    rw [after]
    apply configIn_update_of_tag
    · intro here
      rcases previous with ⟨there, _⟩ | ⟨fresh, _⟩
      · apply configIn_of_tag (by rw [← here]; exact there)
        rw [tag]
        decide
      · exact configIn_of_none (by rw [← here]; exact fresh)
    · rw [byte_zero_charge, tag]
      decide

private theorem FeeTaken.configIn_eq {m collected : Machine Approval} {fee : ℕ}
    (taken : FeeTaken dep call m collected fee) :
    configIn dep (book dep collected.ledger) = configIn dep (book dep m.ledger) := by
  unfold FeeTaken at taken
  split at taken
  · exact taken.configIn_eq
  · rw [taken.1]

private theorem lt_of_le_maxFee {fee : ℕ} (bounded : fee ≤ maxProtocolFeeLamports) : fee < 2 ^ 64 :=
  bounded.trans_lt (by decide)

/-- A step of the book is a step of the configuration. -/
theorem BookStep.configStep {book after : Registry} {discriminator : UInt8} (is : call.discriminator = discriminator)
    (step : BookStep dep call.frame call.processorAccounts call.arguments book discriminator after) :
    ConfigStep dep call (configIn dep book) (configIn dep after) := by
  cases step with
  | spared other =>
    apply ConfigStep.kept
    simp only [isBookkeeping, decide_eq_false_iff_not, not_or] at other
    rw [is]
    exact ⟨other.2.1, other.2.2.2.2⟩
  | @initializeConfig bump signed fees fresh =>
    have read := ProtocolConfig.read_toBytes_append [] (lt_of_le_maxFee fees.1) (lt_of_le_maxFee fees.2)
    rw [List.append_nil] at read
    rw [configIn_of_none fresh, configIn_of_entry (Function.update_self ..) (ProtocolConfig.check_newConfig ..), read]
    exact .initialized is signed fees
  | update loaded signed fees flag =>
    rw [loaded.configIn_eq, configIn_update_write loaded]
    · exact .updated is signed fees flag
    · exact ⟨rfl, rfl⟩
    · exact ⟨lt_of_le_maxFee fees.1, lt_of_le_maxFee fees.2⟩
  | register signed fresh =>
    rw [configIn_update_of_tag fun here => configIn_of_none (by rw [← here]; exact fresh)]
    · exact .kept (by rw [is]; decide)
    · exact fun same => absurd same (by decide : AccountDiscriminator.feeRecord.toByte ≠ _)
  | initializeShard loaded signed fresh =>
    rw [configIn_update_of_tag fun here => configIn_of_none (by rw [← here]; exact fresh)]
    · exact .kept (by rw [is]; decide)
    · exact fun same => absurd same (by decide : AccountDiscriminator.treasuryShard.toByte ≠ _)
  | propose loaded signed =>
    rw [loaded.configIn_eq, configIn_update_write loaded]
    · exact .proposed is signed
    · exact ⟨rfl, rfl⟩
    · exact ProtocolConfig.fees_lt _
  | accept loaded signed named =>
    rw [loaded.configIn_eq, configIn_update_write loaded]
    · exact .accepted is signed named
    · exact ⟨rfl, rfl⟩
    · exact ProtocolConfig.fees_lt _

/-- A successful call takes the configuration one step further. -/
theorem SucceedsAt.configStep (success : SucceedsAt dep ledger events i call m) :
    ConfigStep dep call (configAt dep ledger events i) (configAt dep ledger events (i + 1)) := by
  obtain ⟨collected, fee, taken, step⟩ := success.bookStep
  have stepped := step.configStep rfl
  rw [taken.configIn_eq] at stepped
  exact stepped

/-- From one position of a run to the next, the configuration stays or a call takes it one step further. -/
theorem configAt_succ (events : List Event) (start : Unwritten dep ledger) (i : ℕ) :
    configAt dep ledger events (i + 1) = configAt dep ledger events i ∨
      ∃ call m, SucceedsAt dep ledger events i call m ∧
        ConfigStep dep call (configAt dep ledger events i) (configAt dep ledger events (i + 1)) := by
  rcases bookAt_succ events start.bookFunded i with ⟨same, _⟩ | ⟨call, m, success⟩
  · left
    rw [configAt, same, configAt]
  · exact .inr ⟨call, m, success, success.configStep⟩

/-- A configuration within its limits. -/
structure Bounded (config : ProtocolConfig) : Prop where
  creation : config.creationFee ≤ maxProtocolFeeLamports
  execution : config.executionFee ≤ maxProtocolFeeLamports
  enabled : config.enabled ≤ 1

theorem ConfigStep.bounded (step : ConfigStep dep call view view') (before : ∀ config ∈ view, Bounded config) :
    ∀ config ∈ view', Bounded config := by
  cases step with
  | kept => exact before
  | initialized _ _ fees =>
    rintro _ ⟨rfl⟩
    exact ⟨fees.1, fees.2, UInt8.le_refl 1⟩
  | updated _ _ fees flag =>
    rintro _ ⟨rfl⟩
    exact ⟨fees.1, fees.2, flag⟩
  | proposed =>
    rintro _ ⟨rfl⟩
    obtain ⟨creation, execution, enabled⟩ := before _ rfl
    exact ⟨creation, execution, enabled⟩
  | accepted =>
    rintro _ ⟨rfl⟩
    obtain ⟨creation, execution, enabled⟩ := before _ rfl
    exact ⟨creation, execution, enabled⟩

private theorem configAt_zero (start : Unwritten dep ledger) (events : List Event) :
    configAt dep ledger events 0 = none :=
  configIn_of_none (start.entries _)

/-- In every state a configuration is within its limits. -/
theorem bounded_configAt (start : Unwritten dep ledger) (events : List Event) (i : ℕ) :
    ∀ config ∈ configAt dep ledger events i, Bounded config := by
  induction i with
  | zero =>
    rw [configAt_zero start]
    exact fun config absent => nomatch absent
  | succ i ih =>
    rcases configAt_succ events start i with same | ⟨call, m, _, step⟩
    · rwa [same]
    · exact step.bounded ih

/-- The admin of the moment named this key and nothing has been proposed or accepted since. -/
def LastProposed (dep : Deployment) (ledger : Ledger) (events : List Event) (i : ℕ) (admin key : Pubkey) : Prop :=
  ∃ j < i, ∃ call m config, SucceedsAt dep ledger events j call m ∧ call.discriminator = 15 ∧
    readKey call.arguments 0 = key ∧ configAt dep ledger events j = some config ∧ config.admin = admin ∧
    SignerAt call.processorAccounts 0 admin ∧
    ∀ l, j < l → l < i → ∀ other m', SucceedsAt dep ledger events l other m' →
      other.discriminator ≠ 15 ∧ other.discriminator ≠ 16

/-- The configuration of a ledger has this admin and this key is proposed to it. -/
def Pending (dep : Deployment) (admin key : Pubkey) (ledger : Ledger) : Prop :=
  ∃ config, configIn dep (book dep ledger) = some config ∧ config.admin = admin ∧ config.pendingAdmin = key

/-- A proposal or an acceptance. -/
def Rotates (dep : Deployment) (ledger : Ledger) (events : List Event) (i : ℕ) : Prop :=
  ∃ call m, SucceedsAt dep ledger events i call m ∧ (call.discriminator = 15 ∨ call.discriminator = 16)

/-- Only a proposal or an acceptance changes who is proposed to whom. -/
theorem pending_of_succ {admin key : Pubkey} (start : Unwritten dep ledger) (named : key ≠ .fill 0)
    (rests : ¬Rotates dep ledger events i) (after : Pending dep admin key (ledgerAt dep ledger events (i + 1))) :
    Pending dep admin key (ledgerAt dep ledger events i) := by
  obtain ⟨next, isNext, isAdmin, isKey⟩ := after
  rcases configAt_succ events start i with same | ⟨call, m, success, step⟩
  · exact ⟨next, same.symm.trans isNext, isAdmin, isKey⟩
  · rw [show configAt dep ledger events (i + 1) = some next from isNext] at step
    generalize seen : configAt dep ledger events i = view at step
    cases step with
    | kept => exact ⟨next, seen, isAdmin, isKey⟩
    | initialized => exact absurd isKey.symm named
    | updated => exact ⟨_, seen, isAdmin, isKey⟩
    | proposed is => exact absurd ⟨call, m, success, .inl is⟩ rests
    | accepted is => exact absurd ⟨call, m, success, .inr is⟩ rests

/-- A pending key was named by the last proposal, which the admin signed. -/
theorem lastProposed_of_pending (start : Unwritten dep ledger) (now : configAt dep ledger events i = some config)
    (named : config.pendingAdmin ≠ .fill 0) :
    LastProposed dep ledger events i config.admin config.pendingAdmin := by
  have absent : ¬Pending dep config.admin config.pendingAdmin ledger := by
    rintro ⟨other, isOther, _⟩
    have none_ := configAt_zero start events
    rw [show configAt dep ledger events 0 = some other from isOther] at none_
    cases none_
  obtain ⟨j, before, ⟨call, m, success, is⟩, ⟨next, isNext, isAdmin, isKey⟩, since⟩ :=
    Run.exists_last_writer absent (fun k rests => pending_of_succ start named rests) ⟨config, now, rfl, rfl⟩
  have step := success.configStep
  rw [show configAt dep ledger events (j + 1) = some next from isNext] at step
  generalize seen : configAt dep ledger events j = view at step
  cases step with
  | kept other =>
    rcases is with fifteen | sixteen
    · exact absurd fifteen other.2.1
    · exact absurd sixteen other.2.2
  | initialized => exact absurd isKey.symm named
  | updated eleven =>
    rw [eleven] at is
    exact absurd is (by decide)
  | accepted => exact absurd isKey.symm named
  | proposed fifteen signed =>
    refine ⟨j, before, call, m, _, success, fifteen, isKey, seen, isAdmin, ?_, fun l late early other m' later => ?_⟩
    · rwa [← isAdmin]
    · have rests := since l late early
      exact ⟨fun is => rests ⟨other, m', later, .inl is⟩, fun is => rests ⟨other, m', later, .inr is⟩⟩

/-- The admin changed the configuration: it signed an update or a proposal and stays the admin. -/
structure EditedByAdmin (dep : Deployment) (ledger : Ledger) (events : List Event) (i : ℕ)
    (config next : ProtocolConfig) : Prop where
  signed : ∃ call m, SucceedsAt dep ledger events i call m ∧ SignerAt call.processorAccounts 0 config.admin ∧
    (call.discriminator = 11 ∧ next = updatedConfig config call.arguments ∨
      call.discriminator = 15 ∧ next = { config with pendingAdmin := readKey call.arguments 0 })
  admin : next.admin = config.admin

/-- The configuration changed hands: the new admin signed an acceptance of the last proposal, which the admin
had made to it, and the proposal is gone. Nothing else changed. -/
structure HandedOver (dep : Deployment) (ledger : Ledger) (events : List Event) (i : ℕ)
    (config next : ProtocolConfig) : Prop where
  signed : ∃ call m, SucceedsAt dep ledger events i call m ∧ call.discriminator = 16 ∧
    SignerAt call.processorAccounts 0 next.admin
  proposed : LastProposed dep ledger events i config.admin next.admin
  named : next.admin ≠ .fill 0
  changed : next = { config with admin := next.admin, pendingAdmin := .fill 0 }

/-- Along every run, a configuration is within its limits, is there for good, and changes only by its admin's
updates and proposals and by acceptances of the last proposal. -/
theorem admin_rotation (start : Unwritten dep ledger) (events : List Event) (i : ℕ) (config : ProtocolConfig)
    (now : configAt dep ledger events i = some config) :
    (config.creationFee ≤ maxProtocolFeeLamports ∧ config.executionFee ≤ maxProtocolFeeLamports ∧
      (config.enabled = 0 ∨ config.enabled = 1)) ∧
    ∃ next, configAt dep ledger events (i + 1) = some next ∧
      (next = config ∨ EditedByAdmin dep ledger events i config next ∨
        HandedOver dep ledger events i config next) := by
  obtain ⟨creation, execution, enabled⟩ := bounded_configAt start events i config now
  refine ⟨⟨creation, execution, ?_⟩, ?_⟩
  · have small : config.enabled.toNat ≤ 1 := enabled
    rcases Nat.le_one_iff_eq_zero_or_eq_one.mp small with zero | one
    · exact .inl (UInt8.toNat_inj.mp zero)
    · exact .inr (UInt8.toNat_inj.mp one)
  · rcases configAt_succ events start i with same | ⟨call, m, success, step⟩
    · exact ⟨config, same.trans now, .inl rfl⟩
    · rw [now] at step
      generalize seen : configAt dep ledger events (i + 1) = view at step
      cases step with
      | kept => exact ⟨config, rfl, .inl rfl⟩
      | updated is signed => exact ⟨_, rfl, .inr (.inl ⟨⟨call, m, success, signed, .inl ⟨is, rfl⟩⟩, rfl⟩)⟩
      | proposed is signed => exact ⟨_, rfl, .inr (.inl ⟨⟨call, m, success, signed, .inr ⟨is, rfl⟩⟩, rfl⟩)⟩
      | accepted is signed named =>
        exact ⟨_, rfl, .inr (.inr ⟨⟨call, m, success, is, signed⟩, lastProposed_of_pending start now named, named,
          rfl⟩)⟩

/-- In the sample the admin's key and the configuration's owner are two people after the last call. -/
theorem admin_rotation_sample :
    ∃ config next, configAt Sample.configured Ledger.empty Sample.protocolEvents 6 = some config ∧
      configAt Sample.configured Ledger.empty Sample.protocolEvents 7 = some next ∧
      HandedOver Sample.configured Ledger.empty Sample.protocolEvents 6 config next := by
  have shown : ((configAt Sample.configured Ledger.empty Sample.protocolEvents 6).map (·.admin),
      (configAt Sample.configured Ledger.empty Sample.protocolEvents 7).map (·.admin)) =
      (some Sample.admin, some Sample.nextAdmin) := by decide +kernel
  obtain ⟨before, after⟩ := Prod.mk.inj shown
  obtain ⟨config, now, isAdmin⟩ := Option.map_eq_some_iff.mp before
  obtain ⟨_, next, later, change⟩ :=
    admin_rotation (unwritten_empty Sample.configured) Sample.protocolEvents 6 config now
  rw [later, Option.map_some, Option.some.injEq] at after
  have moved : next.admin ≠ config.admin := by
    rw [after, isAdmin]
    decide
  rcases change with same | edited | handed
  · exact absurd (congrArg ProtocolConfig.admin same) moved
  · exact absurd edited.admin moved
  · exact ⟨config, next, now, later, handed⟩

end LazorKit
