import LazorKit.Soundness.AccountTypes

/-! # No account is taken for another

The types of the protocol layer's accounts, what closing leaves behind, and which tags each processor accepts
at which position. Together with the types of records they give the safety of the tag byte along every run,
next to accounts of the previous version that live under the same program.
-/

namespace LazorKit

open Solana

variable {dep : Deployment} {fr : Frame} {accounts : List AccountInfo} {data : Bytes} {key : Pubkey}
  {kind : AccountDiscriminator} {bytes old new : Bytes} {discriminator : UInt8} {m m' : Machine Approval}

/-- Entries keep their types, and new ones have one. -/
def Retyped (dep : Deployment) (before after : Registry) : Prop :=
  ∀ key, (∀ kind old, before key = some old → Typed dep kind key old →
      ∃ new, after key = some new ∧ Typed dep kind key new) ∧
    (before key = none → ∀ new, after key = some new → ∃ kind, Typed dep kind key new)

theorem Retyped.refl (dep : Deployment) (book : Registry) : Retyped dep book book := by
  intro key
  refine ⟨fun kind old there typed => ⟨old, there, typed⟩, fun fresh new there => ?_⟩
  rw [fresh] at there
  cases there

/-- Writing one entry: over one of the same type, or a new one. -/
theorem Retyped.update {book : Registry} {at_ : Pubkey}
    (rewrites : ∀ kind old, book at_ = some old → Typed dep kind at_ old → Typed dep kind at_ bytes)
    (creates : book at_ = none → ∃ kind, Typed dep kind at_ bytes) :
    Retyped dep book (Function.update book at_ (some bytes)) := by
  intro key
  by_cases same : key = at_
  · subst same
    rw [Function.update_self]
    refine ⟨fun kind old there typed => ⟨bytes, rfl, rewrites kind old there typed⟩, fun fresh new there => ?_⟩
    cases Option.some.inj there
    exact creates fresh
  · rw [Function.update_of_ne same]
    exact Retyped.refl dep book key

/-- A new entry. -/
theorem Retyped.create {book : Registry} {at_ : Pubkey} (fresh : book at_ = none) (kind : AccountDiscriminator)
    (typed : Typed dep kind at_ bytes) :
    Retyped dep book (Function.update book at_ (some bytes)) := by
  refine .update (fun kind old there => ?_) fun _ => ⟨kind, typed⟩
  rw [fresh] at there
  cases there

/-- A rewritten configuration. -/
theorem Retyped.config {book : Registry} {config : ProtocolConfig} (loaded : LoadedConfig dep book old)
    (header : config.discriminator = (ProtocolConfig.read old).discriminator ∧
      config.version = (ProtocolConfig.read old).version) :
    Retyped dep book (Function.update book (ProtocolConfig.pda dep) (some (ProtocolConfig.write old config))) := by
  refine .update (fun kind before there typed => ?_) fun fresh => ?_
  · cases Option.some.inj (loaded.recorded.symm.trans there)
    cases typed.kind_eq (ProtocolConfig.check_eq_ok.mp loaded.checked).2.1
    exact ⟨ProtocolConfig.check_write loaded.checked header, rfl⟩
  · rw [loaded.recorded] at fresh
    cases fresh

private theorem BookStep.retyped {book after : Registry}
    (step : BookStep dep fr accounts data book discriminator after) :
    Retyped dep book after := by
  cases step with
  | spared => exact .refl dep _
  | initializeConfig _ _ fresh => exact .create fresh .protocolConfig ⟨ProtocolConfig.check_newConfig .., rfl⟩
  | update loaded => exact .config loaded ⟨rfl, rfl⟩
  | @register payer _ _ fresh => exact .create fresh .feeRecord ⟨FeeRecord.check_newFeeRecord .., payer, rfl⟩
  | initializeShard _ _ fresh =>
    exact .create fresh .treasuryShard
      ⟨TreasuryShard.check_eq_ok.mpr ⟨(TreasuryShard.length_toBytes _).ge, rfl⟩, rfl⟩
  | propose loaded => exact .config loaded ⟨rfl, rfl⟩
  | accept loaded => exact .config loaded ⟨rfl, rfl⟩

private theorem FeeStep.retyped {fee : ℕ} (step : FeeStep dep fr discriminator accounts m m' fee) :
    Retyped dep (book dep m.ledger) (book dep m'.ledger) := by
  cases step with
  | skipped _ _ _ same =>
    rw [same]
    exact .refl dep _
  | @charged _ payer record _ old _ _ _ _ _ _ _ _ recordIs _ _ _ _ previous _ after =>
    rw [after]
    rcases previous with ⟨there, checked, _⟩ | ⟨fresh, rfl⟩
    · refine .update (fun kind before there' typed => ?_) fun fresh => ?_
      · cases Option.some.inj (there.symm.trans there')
        cases typed.kind_eq (FeeRecord.check_eq_ok.mp checked).2.1
        exact ⟨FeeRecord.check_write_charge checked .., typed.address⟩
      · rw [there] at fresh
        cases fresh
    · exact .create fresh .feeRecord
        ⟨FeeRecord.check_write_charge (FeeRecord.check_newFeeRecord ..) .., payer, recordIs⟩

/-- Where the account an instruction closes stands. -/
def closeSlot : UInt8 → Option ℕ
  | 2 => some 3
  | 3 => some 2
  | 7 => some 3
  | 8 => some 1
  | 9 => some 3
  | 18 => some 1
  | _ => none

/-- A record only disappears from the position of the account that is closed. -/
theorem Transition.closes {reg reg' : Registry} {approvals : List Approval}
    (transition : Transition dep fr accounts data reg discriminator approvals reg') (here : reg key = some old)
    (gone : reg' key = none) : ∃ slot, closeSlot discriminator = some slot ∧ KeyAt accounts slot key := by
  have live : reg key ≠ none := by
    rw [here]
    exact Option.some_ne_none old
  cases transition with
  | protocol | migrate | reclaimLegacy | closeLegacy => exact absurd gone live
  | createWallet => exact absurd (fresh_of_update (fresh_of_update gone).2).2 live
  | addAuthority =>
    exact absurd (fresh_of_update (fresh_of_update (fresh_of_update gone).2).2).2 live
  | @removeAuthority _ _ target _ _ _ _ _ _ _ _ _ _ _ _ _ targetAt =>
    by_cases atTarget : key = target
    · exact ⟨3, rfl, atTarget ▸ targetAt⟩
    · rw [Function.update_of_ne atTarget] at gone
      exact absurd (fresh_of_update (fresh_of_update gone).2).2 live
  | @transferOwnership _ current _ _ _ _ _ _ _ _ _ _ _ _ acting =>
    by_cases atCurrent : key = current
    · exact ⟨2, rfl, atCurrent ▸ acting.authorityAt⟩
    · rw [Function.update_of_ne atCurrent] at gone
      exact absurd (fresh_of_update gone).2 live
  | execute | executeSession => exact absurd (fresh_of_update gone).2 live
  | createSession | authorize => exact absurd (fresh_of_update (fresh_of_update gone).2).2 live
  | @executeDeferred _ deferred _ _ _ _ _ _ deferredAt =>
    by_cases same : key = deferred
    · exact ⟨3, rfl, same ▸ deferredAt⟩
    · rw [Function.update_of_ne same, here] at gone
      cases gone
  | @reclaimDeferred deferred _ deferredAt =>
    by_cases same : key = deferred
    · exact ⟨1, rfl, same ▸ deferredAt⟩
    · rw [Function.update_of_ne same, here] at gone
      cases gone
  | @revokeSession _ _ session _ _ _ _ _ _ _ _ _ _ _ _ sessionAt =>
    by_cases same : key = session
    · exact ⟨3, rfl, same ▸ sessionAt⟩
    · rw [Function.update_of_ne same] at gone
      exact absurd (fresh_of_update gone).2 live
  | @closeExpiredSession session _ sessionAt =>
    by_cases same : key = session
    · exact ⟨1, rfl, same ▸ sessionAt⟩
    · rw [Function.update_of_ne same, here] at gone
      cases gone

private theorem isZero_of_zeroData {acc : AccountInfo} (success : zeroData dep m acc = .ok m') :
    (m'.data acc.key).isZero = true := by
  rw [(zeroData_eq_ok success).1.data_self]
  exact Bytes.isZero_replicate _

/-- Draining an account does not touch what was zeroed. -/
theorem isZero_of_drainInto {acc refund : AccountInfo} (zeroed : (m.data acc.key).isZero = true)
    (success : drainInto dep m acc refund = .ok m') : (m'.data acc.key).isZero = true := by
  rw [(drainInto_eq_ok success).1.data]
  exact zeroed

private theorem keyAt_eq {i : ℕ} {acc : AccountInfo} (at_ : accounts[i]? = some acc) (listed : KeyAt accounts i key) :
    key = acc.key := by
  obtain ⟨other, otherAt, rfl⟩ := listed
  rw [Option.some.inj (otherAt.symm.trans at_)]

private theorem processRemoveAuthority_zeroes (success : processRemoveAuthority dep fr accounts data m = .ok m')
    (listed : KeyAt accounts 3 key) : (m'.data key).isZero = true := by
  simp only [processRemoveAuthority, Except.bind_eq_ok, Except.ensure_eq_ok, exists_const, accountAt_eq_ok] at success
  obtain ⟨_, _, _, _, _, _, _, target, targetAt, _, _, _, _, _, _, _, _, _, _, _, _, _, _, _, _, _, counted, _, drained,
    _, zero⟩ := success
  rw [keyAt_eq targetAt listed]
  exact isZero_of_zeroData zero

private theorem processTransferOwnership_zeroes (success : processTransferOwnership dep fr accounts data m = .ok m')
    (listed : KeyAt accounts 2 key) : (m'.data key).isZero = true := by
  simp only [processTransferOwnership, Except.bind_eq_ok, Except.ensure_eq_ok, exists_const, accountAt_eq_ok,
    Except.ofOption_eq_ok, checkZeroData] at success
  obtain ⟨_, _, _, _, _, _, _, current, currentAt, _, _, _, _, _, _, _, _, _, _, _, _, _, _, _, _, _, _, _, _,
    approvedBy, _, _, _, _, _, made, _, _, material, _, written, _, drained, _, zero⟩ := success
  rw [keyAt_eq currentAt listed]
  exact isZero_of_zeroData zero

private theorem processExecuteDeferred_zeroes (success : processExecuteDeferred dep fr accounts data m = .ok m')
    (listed : KeyAt accounts 3 key) : (m'.data key).isZero = true := by
  simp only [processExecuteDeferred, Except.bind_eq_ok, Except.ensure_eq_ok, exists_const, accountAt_eq_ok] at success
  obtain ⟨_, _, _, _, _, _, _, deferred, deferredAt, _, _, _, ⟨_, owned⟩, _, _, _, _, _, _, _, _, _, _, _, _, _, _,
    zeroed, zero, executed, loop, drain⟩ := success
  rw [keyAt_eq deferredAt listed]
  -- The inner instructions cannot write an account of this program.
  have kept := ((executeInner_foldlM_foreign loop).owned (((zeroData_eq_ok zero).1.owner _).trans owned)).2.1
  apply isZero_of_drainInto _ drain
  rw [kept]
  exact isZero_of_zeroData zero

private theorem processReclaimDeferred_zeroes (success : processReclaimDeferred dep fr accounts m = .ok m')
    (listed : KeyAt accounts 1 key) : (m'.data key).isZero = true := by
  simp only [processReclaimDeferred, Except.bind_eq_ok, Except.ensure_eq_ok, exists_const, accountAt_eq_ok] at success
  obtain ⟨_, _, deferred, deferredAt, _, _, _, _, _, _, _, _, _, _, zeroed, zero, drain⟩ := success
  rw [keyAt_eq deferredAt listed]
  exact isZero_of_drainInto (isZero_of_zeroData zero) drain

private theorem processRevokeSession_zeroes (success : processRevokeSession dep fr accounts data m = .ok m')
    (listed : KeyAt accounts 3 key) : (m'.data key).isZero = true := by
  simp only [processRevokeSession, Except.bind_eq_ok, Except.ensure_eq_ok, exists_const, accountAt_eq_ok,
    Except.mapError_eq_ok] at success
  obtain ⟨_, _, _, _, _, _, session, sessionAt, _, _, _, _, _, _, _, _, _, _, _, approvedBy, _, _, _, _, _, zeroed,
    zero, drain⟩ := success
  rw [keyAt_eq sessionAt listed]
  exact isZero_of_drainInto (isZero_of_zeroData zero) drain

private theorem processCloseExpiredSession_zeroes (success : processCloseExpiredSession dep fr accounts m = .ok m')
    (listed : KeyAt accounts 1 key) : (m'.data key).isZero = true := by
  simp only [processCloseExpiredSession, Except.bind_eq_ok, Except.ensure_eq_ok, exists_const,
    accountAt_eq_ok] at success
  obtain ⟨_, _, session, sessionAt, _, _, _, _, _, _, _, _, zeroed, zero, drain⟩ := success
  rw [keyAt_eq sessionAt listed]
  exact isZero_of_drainInto (isZero_of_zeroData zero) drain

/-- The account an instruction closes is zeroed when it ends. -/
theorem dispatch_closes {whole : List AccountInfo} {slot : ℕ}
    (success : dispatch dep fr discriminator accounts whole data m = .ok m')
    (closing : closeSlot discriminator = some slot) (listed : KeyAt accounts slot key) :
    (m'.data key).isZero = true := by
  unfold closeSlot at closing
  split at closing
  · cases closing
    exact processRemoveAuthority_zeroes success listed
  · cases closing
    exact processTransferOwnership_zeroes success listed
  · cases closing
    exact processExecuteDeferred_zeroes success listed
  · cases closing
    exact processReclaimDeferred_zeroes success listed
  · cases closing
    exact processRevokeSession_zeroes success listed
  · cases closing
    exact processCloseExpiredSession_zeroes success listed
  · cases closing

/-- The records an instruction takes: their positions, with the one tag accepted there. -/
def recordSlots : UInt8 → List (ℕ × AccountDiscriminator)
  | 1 | 3 | 5 | 6 => [(1, .wallet), (2, .authority)]
  | 2 => [(1, .wallet), (2, .authority), (3, .authority)]
  | 4 => [(1, .wallet)]
  | 7 => [(1, .wallet), (3, .deferredExec)]
  | 9 => [(1, .wallet), (2, .authority), (3, .session)]
  | _ => []

/-- The other typed accounts: those of the protocol layer, those that may have one of two tags, and those of the
previous version. -/
def taggedSlots : UInt8 → List (ℕ × List UInt8)
  | 4 => [(2, [AccountDiscriminator.authority.toByte, AccountDiscriminator.session.toByte])]
  | 8 => [(1, [AccountDiscriminator.deferredExec.toByte, v1DiscDeferred])]
  | 11 | 14 | 15 | 16 => [(1, [AccountDiscriminator.protocolConfig.toByte])]
  | 13 => [(1, [AccountDiscriminator.protocolConfig.toByte]), (2, [AccountDiscriminator.treasuryShard.toByte])]
  | 17 => [(1, [legacyDiscriminatorWallet]), (2, [legacyDiscriminatorAuthority])]
  | 18 => [(1, [AccountDiscriminator.session.toByte, v1DiscSession])]
  | _ => []

/-- Every typed account of an instruction, with the tags accepted there. -/
def slotTags (discriminator : UInt8) : List (ℕ × List UInt8) :=
  (recordSlots discriminator).map (fun slot => (slot.1, [slot.2.toByte])) ++ taggedSlots discriminator

/-- The account at a position belongs to this program and carries one of these tags. -/
def TaggedAt (dep : Deployment) (ledger : Ledger) (accounts : List AccountInfo) (slot : ℕ) (tags : List UInt8) : Prop :=
  ∃ acc, accounts[slot]? = some acc ∧ (ledger acc.key).owner = dep.programId ∧ (ledger acc.key).data.byte 0 ∈ tags

private theorem taggedAt_of_registry {ledger : Ledger} {slot : ℕ} (kind : AccountDiscriminator)
    (listed : KeyAt accounts slot key)
    (recorded : registry dep ledger key = some bytes) (checked : kind.check bytes = .ok ()) :
    TaggedAt dep ledger accounts slot [kind.toByte] := by
  obtain ⟨acc, at_, rfl⟩ := listed
  obtain ⟨owned, rfl, _⟩ := registry_eq_some.mp recorded
  exact ⟨acc, at_, owned, by rw [AccountDiscriminator.check_tag checked]; exact List.mem_singleton_self _⟩

private theorem Acting.taggedAt {ledger : Ledger} {wallet authority : Pubkey} {authPayload signedPayload : Bytes}
    {approval : Approval} (acting : Acting dep fr accounts (registry dep ledger) wallet authority authPayload
      signedPayload discriminator old new approval) :
    TaggedAt dep ledger accounts 2 [AccountDiscriminator.authority.toByte] :=
  taggedAt_of_registry .authority acting.authorityAt acting.recorded acting.checked

private theorem WalletRecord.taggedAt {ledger : Ledger} {wallet : Pubkey} {slot : ℕ}
    (live : WalletRecord (registry dep ledger) wallet bytes) (listed : KeyAt accounts slot wallet) :
    TaggedAt dep ledger accounts slot [AccountDiscriminator.wallet.toByte] :=
  taggedAt_of_registry .wallet listed live.recorded live.checked

private theorem recordSlots_of_protocol (layer : 10 ≤ discriminator ∧ discriminator ≤ 16) :
    recordSlots discriminator = [] := by
  unfold recordSlots
  split <;> first | rfl | exact absurd layer (by decide)

/-- A successful instruction found the records it takes. -/
theorem Transition.recordSlots {ledger : Ledger} {reg' : Registry} {approvals : List Approval}
    (transition : Transition dep fr accounts data (registry dep ledger) discriminator approvals reg') :
    ∀ slot ∈ recordSlots discriminator, TaggedAt dep ledger accounts slot.1 [slot.2.toByte] := by
  cases transition with
  | protocol layer =>
    rw [recordSlots_of_protocol layer]
    exact List.forall_mem_nil _
  | migrate | reclaimLegacy | closeLegacy | createWallet | reclaimDeferred | closeExpiredSession =>
    exact List.forall_mem_nil _
  | addAuthority _ live acting =>
    simp only [LazorKit.recordSlots, List.forall_mem_cons]
    exact ⟨live.taggedAt acting.walletAt, acting.taggedAt, List.forall_mem_nil _⟩
  | transferOwnership _ live acting | createSession _ live acting | authorize _ live acting =>
    simp only [LazorKit.recordSlots, List.forall_mem_cons]
    exact ⟨live.taggedAt acting.walletAt, acting.taggedAt, List.forall_mem_nil _⟩
  | removeAuthority live acting recorded checked _ _ _ targetAt =>
    simp only [LazorKit.recordSlots, List.forall_mem_cons]
    exact ⟨live.taggedAt acting.walletAt, acting.taggedAt,
      taggedAt_of_registry .authority targetAt recorded checked, List.forall_mem_nil _⟩
  | execute live acting =>
    simp only [LazorKit.recordSlots, List.forall_mem_cons]
    exact ⟨live.taggedAt acting.walletAt, List.forall_mem_nil _⟩
  | executeSession walletAt live =>
    simp only [LazorKit.recordSlots, List.forall_mem_cons]
    exact ⟨live.taggedAt walletAt, List.forall_mem_nil _⟩
  | executeDeferred walletAt live deferredAt recorded checked =>
    simp only [LazorKit.recordSlots, List.forall_mem_cons]
    exact ⟨live.taggedAt walletAt, taggedAt_of_registry .deferredExec deferredAt recorded checked,
      List.forall_mem_nil _⟩
  | revokeSession live acting _ recorded checked _ sessionAt =>
    simp only [LazorKit.recordSlots, List.forall_mem_cons]
    exact ⟨live.taggedAt acting.walletAt, acting.taggedAt,
      taggedAt_of_registry .session sessionAt recorded checked, List.forall_mem_nil _⟩

private theorem processExecute_tagged (success : processExecute dep fr accounts data m = .ok m') :
    TaggedAt dep m.ledger accounts 2
      [AccountDiscriminator.authority.toByte, AccountDiscriminator.session.toByte] := by
  simp only [processExecute, Except.bind_eq_ok, Except.ensure_eq_ok, exists_const, accountAt_eq_ok] at success
  obtain ⟨_, _, _, _, _, _, authorityPda, authorityAt, _, _, ⟨_, owned⟩, _, _, _, _, _, _, _, authentication, _⟩ :=
    success
  refine ⟨authorityPda, authorityAt, owned, ?_⟩
  simp only [authenticateExecute] at authentication
  split at authentication
  · next tag =>
    rw [show (m.ledger authorityPda.key).data.byte 0 = _ from tag]
    exact List.mem_cons_self
  · split at authentication
    · next tag =>
      rw [show (m.ledger authorityPda.key).data.byte 0 = _ from tag]
      exact List.mem_cons_of_mem _ List.mem_cons_self
    · cases authentication

private theorem byte_zero_of_head {tag : UInt8} (head : bytes.head? = some tag) : bytes.byte 0 = tag := by
  rw [Bytes.byte, List.getD_eq_getElem?_getD, ← List.head?_eq_getElem?, head, Option.getD_some]

private theorem processReclaimDeferred_tagged (success : processReclaimDeferred dep fr accounts m = .ok m') :
    TaggedAt dep m.ledger accounts 1 [AccountDiscriminator.deferredExec.toByte, v1DiscDeferred] := by
  simp only [processReclaimDeferred, Except.bind_eq_ok, Except.ensure_eq_ok, exists_const, accountAt_eq_ok] at success
  obtain ⟨_, _, deferredPda, deferredAt, _, _, _, owned, terms, read, _⟩ := success
  refine ⟨deferredPda, deferredAt, owned, ?_⟩
  unfold readDeferredTerms at read
  split at read
  · next legacy =>
    rw [show (m.ledger deferredPda.key).data.byte 0 = _ from byte_zero_of_head legacy]
    exact List.mem_cons_of_mem _ List.mem_cons_self
  · simp only [Except.bind_eq_ok] at read
    obtain ⟨_, checked, _⟩ := read
    rw [show (m.ledger deferredPda.key).data.byte 0 = _ from (DeferredExecAccount.check_eq_ok.mp checked).2.1]
    exact List.mem_cons_self

private theorem processCloseExpiredSession_tagged (success : processCloseExpiredSession dep fr accounts m = .ok m') :
    TaggedAt dep m.ledger accounts 1 [AccountDiscriminator.session.toByte, v1DiscSession] := by
  simp only [processCloseExpiredSession, Except.bind_eq_ok, Except.ensure_eq_ok, exists_const,
    accountAt_eq_ok] at success
  obtain ⟨_, _, sessionPda, sessionAt, _, _, _, _, owned, _, tag, _⟩ := success
  refine ⟨sessionPda, sessionAt, owned, ?_⟩
  rw [List.mem_cons, List.mem_singleton]
  exact tag.symm

private theorem processMigrateWallet_tagged (success : processMigrateWallet dep fr accounts data m = .ok m') :
    TaggedAt dep m.ledger accounts 1 [legacyDiscriminatorWallet] ∧
      TaggedAt dep m.ledger accounts 2 [legacyDiscriminatorAuthority] := by
  simp only [processMigrateWallet, Except.bind_eq_ok, Except.ensure_eq_ok, exists_const, accountAt_eq_ok] at success
  obtain ⟨_, _, _, v1Wallet, walletAt, v1Authority, authorityAt, _, _, _, _, _, _, _, _, _, _, _, _, _, _,
    ⟨walletOwned, authorityOwned⟩, walletTag, _, authorityTag, _⟩ := success
  refine ⟨⟨v1Wallet, walletAt, walletOwned, ?_⟩, v1Authority, authorityAt, authorityOwned, ?_⟩
  · exact List.mem_singleton.mpr (byte_zero_of_head walletTag)
  · exact List.mem_singleton.mpr authorityTag

/-- A loaded configuration at the second position. -/
theorem taggedAt_of_load {acc : AccountInfo} (at_ : accounts[1]? = some acc)
    (load : ProtocolConfig.load dep m acc = .ok ()) :
    TaggedAt dep m.ledger accounts 1 [AccountDiscriminator.protocolConfig.toByte] :=
  ⟨acc, at_, (ProtocolConfig.load_eq_ok load).2.1, List.mem_singleton.mpr (ProtocolConfig.load_tag load)⟩

/-- A processor found the typed accounts it takes. Those that only some processors see in full are the same. -/
theorem dispatch_tagged {whole : List AccountInfo} (same : isFeeEligible discriminator = false → whole = accounts)
    (success : dispatch dep fr discriminator accounts whole data m = .ok m') :
    ∀ slot ∈ taggedSlots discriminator, TaggedAt dep m.ledger accounts slot.1 slot.2 := by
  unfold dispatch at success
  split at success
  · exact List.forall_mem_nil _
  · exact List.forall_mem_nil _
  · exact List.forall_mem_nil _
  · exact List.forall_mem_nil _
  · simp only [taggedSlots, List.forall_mem_cons]
    exact ⟨processExecute_tagged success, List.forall_mem_nil _⟩
  · exact List.forall_mem_nil _
  · exact List.forall_mem_nil _
  · exact List.forall_mem_nil _
  · simp only [taggedSlots, List.forall_mem_cons]
    exact ⟨processReclaimDeferred_tagged success, List.forall_mem_nil _⟩
  · exact List.forall_mem_nil _
  · exact List.forall_mem_nil _
  · rw [same rfl] at success
    simp only [processUpdateProtocol, Except.bind_eq_ok, Except.ensure_eq_ok, exists_const, accountAt_eq_ok] at success
    obtain ⟨_, _, _, _, _, _, configPda, configAt, _, _, load, _⟩ := success
    simp only [taggedSlots, List.forall_mem_cons]
    exact ⟨taggedAt_of_load configAt load, List.forall_mem_nil _⟩
  · exact List.forall_mem_nil _
  · rw [same rfl] at success
    simp only [processWithdrawTreasury, Except.bind_eq_ok, Except.ensure_eq_ok, exists_const,
      accountAt_eq_ok] at success
    obtain ⟨_, _, configPda, configAt, shardPda, shardAt, _, _, _, _, _, _, load, owned, _, _, _, shard, _⟩ := success
    simp only [taggedSlots, List.forall_mem_cons]
    exact ⟨taggedAt_of_load configAt load,
      ⟨shardPda, shardAt, owned, List.mem_singleton.mpr (loadTreasuryShard_tag shard)⟩, List.forall_mem_nil _⟩
  · rw [same rfl] at success
    simp only [processInitializeTreasuryShard, Except.bind_eq_ok, Except.ensure_eq_ok, exists_const,
      accountAt_eq_ok] at success
    obtain ⟨_, _, _, _, configPda, configAt, _, _, _, _, _, _, _, _, _, _, load, _⟩ := success
    simp only [taggedSlots, List.forall_mem_cons]
    exact ⟨taggedAt_of_load configAt load, List.forall_mem_nil _⟩
  · rw [same rfl] at success
    simp only [processProposeProtocolAdmin, Except.bind_eq_ok, Except.ensure_eq_ok, exists_const,
      accountAt_eq_ok] at success
    obtain ⟨_, _, _, configPda, configAt, _, _, load, _⟩ := success
    simp only [taggedSlots, List.forall_mem_cons]
    exact ⟨taggedAt_of_load configAt (loadConfig_eq_ok load), List.forall_mem_nil _⟩
  · rw [same rfl] at success
    simp only [processAcceptProtocolAdmin, Except.bind_eq_ok, Except.ensure_eq_ok, exists_const,
      accountAt_eq_ok] at success
    obtain ⟨_, _, configPda, configAt, _, _, load, _⟩ := success
    simp only [taggedSlots, List.forall_mem_cons]
    exact ⟨taggedAt_of_load configAt (loadConfig_eq_ok load), List.forall_mem_nil _⟩
  · rw [same rfl] at success
    obtain ⟨wallet, authority⟩ := processMigrateWallet_tagged success
    simp only [taggedSlots, List.forall_mem_cons]
    exact ⟨wallet, authority, List.forall_mem_nil _⟩
  · simp only [taggedSlots, List.forall_mem_cons]
    exact ⟨processCloseExpiredSession_tagged success, List.forall_mem_nil _⟩
  · cases success

theorem Retyped.trans {first second third : Registry} (before : Retyped dep first second)
    (after : Retyped dep second third) : Retyped dep first third := by
  intro key
  refine ⟨fun kind old there typed => ?_, fun fresh new born => ?_⟩
  · obtain ⟨middle, isMiddle, typedMiddle⟩ := (before key).1 kind old there typed
    exact (after key).1 kind middle isMiddle typedMiddle
  · cases between : second key with
    | none => exact (after key).2 between new born
    | some middle =>
      obtain ⟨kind, typed⟩ := (before key).2 fresh middle between
      obtain ⟨final, isFinal, typedFinal⟩ := (after key).1 kind middle between typed
      cases Option.some.inj (isFinal.symm.trans born)
      exact ⟨kind, typedFinal⟩

variable {ledger : Ledger} {events : List Event} {i : ℕ} {call : Call}

private theorem FeeTaken.retyped {collected : Machine Approval} {fee : ℕ} (taken : FeeTaken dep call m collected fee) :
    Retyped dep (book dep m.ledger) (book dep collected.ledger) := by
  unfold FeeTaken at taken
  split at taken
  · exact taken.retyped
  · rw [taken.1]
    exact .refl dep _

/-- The entries of the book keep their types along a run. -/
theorem retyped_bookAt (start : Unwritten dep ledger) (events : List Event) (i : ℕ) :
    Retyped dep (bookAt dep ledger events i) (bookAt dep ledger events (i + 1)) := by
  rcases bookAt_succ events start.bookFunded i with ⟨same, _⟩ | ⟨call, m, success⟩
  · rw [same]
    exact .refl dep _
  · obtain ⟨collected, fee, taken, step⟩ := success.bookStep
    exact taken.retyped.trans step.retyped

private theorem typed_bookAt (start : Unwritten dep ledger) (events : List Event) (i : ℕ)
    (there : bookAt dep ledger events i key = some bytes) : ∃ kind, Typed dep kind key bytes := by
  induction i generalizing bytes with
  | zero =>
    rw [show bookAt dep ledger events 0 key = none from start.entries key] at there
    cases there
  | succ i ih =>
    cases before : bookAt dep ledger events i key with
    | none => exact (retyped_bookAt start events i key).2 before bytes there
    | some old =>
      obtain ⟨kind, typed⟩ := ih before
      obtain ⟨new, isNew, typedNew⟩ := (retyped_bookAt start events i key).1 kind old before typed
      cases Option.some.inj (isNew.symm.trans there)
      exact ⟨kind, typedNew⟩

/-- A record that appears along a run has a type. -/
theorem SucceedsAt.typed_birth (success : SucceedsAt dep ledger events i call m)
    (fresh : registryAt dep ledger events i key = none) (born : registryAt dep ledger events (i + 1) key = some bytes) :
    ∃ kind, Typed dep kind key bytes := by
  by_cases isCreate : call.discriminator = 0
  · obtain ⟨collected, start, dispatched⟩ := Call.execute_eq_ok success.2
    rw [isCreate] at dispatched
    apply processCreateWallet_typed dispatched
    · rw [start.quiet.registry]
      exact fresh
    · rwa [registryAt, success.ledgerAt_succ] at born
  · exact success.transition.typed_birth isCreate fresh born

theorem typed_registryAt (start : Unwritten dep ledger) (events : List Event) (i : ℕ)
    (there : registryAt dep ledger events i key = some bytes) : ∃ kind, Typed dep kind key bytes := by
  induction i generalizing bytes with
  | zero =>
    rw [show registryAt dep ledger events 0 key = none from start.records key] at there
    cases there
  | succ i ih =>
    rcases registryAt_succ events start.records.funded i with ⟨same, _⟩ | ⟨call, m, success⟩
    · rw [same] at there
      exact ih there
    · cases before : registryAt dep ledger events i key with
      | none => exact success.typed_birth before there
      | some old =>
        obtain ⟨kind, typed⟩ := ih before
        have fate := success.transition.fate before
        rw [there] at fate
        exact ⟨kind, fate.typed typed⟩

/-- Every tag of this version is one of the registry's or one of the book's. -/
theorem tag_cases (kind : AccountDiscriminator) :
    isRecordTag kind.toByte = true ∨ isProtocolTag kind.toByte = true := by
  cases kind <;> decide

/-- In every state, an account under a tag of this version is of that type. -/
theorem typed_ledgerAt (start : Unwritten dep ledger) (events : List Event) (i : ℕ)
    (owned : (ledgerAt dep ledger events i key).owner = dep.programId)
    (tag : (ledgerAt dep ledger events i key).data.byte 0 = kind.toByte) :
    Typed dep kind key (ledgerAt dep ledger events i key).data := by
  have typed : ∃ other, Typed dep other key (ledgerAt dep ledger events i key).data := by
    rcases tag_cases kind with record | protocol
    · exact typed_registryAt start events i (registry_eq_some.mpr ⟨owned, rfl, by rwa [tag]⟩)
    · exact typed_bookAt start events i (book_eq_some.mpr ⟨owned, rfl, by rwa [tag]⟩)
  obtain ⟨other, typed⟩ := typed
  rwa [typed.kind_eq tag] at typed

/-- A typed account stays of its type, or the next event zeroes it. -/
theorem typed_ledgerAt_succ (start : Unwritten dep ledger) (events : List Event) (i : ℕ)
    (owned : (ledgerAt dep ledger events i key).owner = dep.programId)
    (tag : (ledgerAt dep ledger events i key).data.byte 0 = kind.toByte) :
    (ledgerAt dep ledger events (i + 1) key).owner = dep.programId ∧
        Typed dep kind key (ledgerAt dep ledger events (i + 1) key).data ∨
      (ledgerAt dep ledger events (i + 1) key).data.isZero = true := by
  have typed := typed_ledgerAt start events i owned tag
  rcases tag_cases kind with record | protocol
  · have recorded : registryAt dep ledger events i key = some _ := registry_eq_some.mpr ⟨owned, rfl, by rwa [tag]⟩
    cases after : registryAt dep ledger events (i + 1) key with
    | some new =>
      obtain ⟨stillOwned, rfl, _⟩ := registry_eq_some.mp after
      refine .inl ⟨stillOwned, ?_⟩
      rcases registryAt_succ events start.records.funded i with ⟨same, _⟩ | ⟨call, m, success⟩
      · rw [same, recorded] at after
        rwa [← Option.some.inj after]
      · have fate := success.transition.fate recorded
        rw [after] at fate
        exact fate.typed typed
    | none =>
      right
      rcases registryAt_succ events start.records.funded i with ⟨same, _⟩ | ⟨call, m, success⟩
      · rw [same, recorded] at after
        cases after
      · obtain ⟨slot, closing, listed⟩ := success.transition.closes recorded after
        obtain ⟨collected, _, dispatched⟩ := Call.execute_eq_ok success.2
        rw [success.ledgerAt_succ]
        exact dispatch_closes dispatched closing listed
  · have recorded : bookAt dep ledger events i key = some _ := book_eq_some.mpr ⟨owned, rfl, by rwa [tag]⟩
    obtain ⟨new, isNew, typedNew⟩ := (retyped_bookAt start events i key).1 kind _ recorded typed
    obtain ⟨stillOwned, rfl, _⟩ := book_eq_some.mp isNew
    exact .inl ⟨stillOwned, typedNew⟩

/-- Behind a fee, processors only look for records. -/
theorem isRecordTag_of_eligible (eligible : isFeeEligible discriminator = true) :
    ∀ slot ∈ taggedSlots discriminator, ∀ tag ∈ slot.2, isRecordTag tag = true := by
  simp only [isFeeEligible, decide_eq_true_eq] at eligible
  rcases eligible with rfl | rfl | rfl
  · exact List.forall_mem_nil _
  · decide +kernel
  · exact List.forall_mem_nil _

/-- A successful call found, at every typed position, an account of this program under an accepted tag. -/
theorem SucceedsAt.taggedAt (success : SucceedsAt dep ledger events i call m) :
    ∀ slot ∈ slotTags call.discriminator,
      TaggedAt dep (ledgerAt dep ledger events i) call.processorAccounts slot.1 slot.2 := by
  intro slot member
  rcases List.mem_append.mp member with record | tagged
  · obtain ⟨⟨position, kind⟩, listed, rfl⟩ := List.mem_map.mp record
    exact success.transition.recordSlots _ listed
  · obtain ⟨collected, start, dispatched⟩ := Call.execute_eq_ok success.2
    have same : isFeeEligible call.discriminator = false → call.accounts.infos = call.processorAccounts := by
      intro free
      rw [Call.processorAccounts, if_neg (by rw [free]; decide)]
    obtain ⟨acc, at_, owned, accepted⟩ := dispatch_tagged same dispatched slot tagged
    refine ⟨acc, at_, ?_⟩
    cases eligible : isFeeEligible call.discriminator with
    | false =>
      rw [Collected, eligible] at start
      cases start
      exact ⟨owned, accepted⟩
    | true =>
      -- The fee was collected in front of the processor, but no record changed.
      have recorded : registry dep collected.ledger acc.key = some _ :=
        registry_eq_some.mpr ⟨owned, rfl, isRecordTag_of_eligible eligible slot tagged _ accepted⟩
      rw [start.quiet.registry] at recorded
      obtain ⟨owned', data, _⟩ := registry_eq_some.mp recorded
      refine ⟨owned', ?_⟩
      rwa [← data] at accepted

/-- A v1 branch was taken: migration, or closing an account under a v1 tag. -/
def TakesV1Branch (call : Call) (ledger : Ledger) : Prop :=
  call.discriminator = 17 ∨
    call.discriminator = 8 ∧
        (∃ acc, call.processorAccounts[1]? = some acc ∧ (ledger acc.key).data.byte 0 = v1DiscDeferred) ∨
    call.discriminator = 18 ∧
      ∃ acc, call.processorAccounts[1]? = some acc ∧ (ledger acc.key).data.byte 0 = v1DiscSession

/-- A v1 branch leaves the registry alone. -/
theorem SucceedsAt.v1_registry (success : SucceedsAt dep ledger events i call m)
    (legacy : TakesV1Branch call (ledgerAt dep ledger events i)) :
    registryAt dep ledger events (i + 1) = registryAt dep ledger events i := by
  have transition := success.transition
  have other {tag v1 : UInt8} {slot : ℕ} {key : Pubkey} {bytes : Bytes} {acc : AccountInfo} (distinct : tag ≠ v1)
      (listed : KeyAt call.processorAccounts slot key) (at_ : call.processorAccounts[slot]? = some acc)
      (recorded : registryAt dep ledger events i key = some bytes) (isTag : bytes.byte 0 = tag)
      (isV1 : (ledgerAt dep ledger events i acc.key).data.byte 0 = v1) : False := by
    obtain ⟨_, rfl, _⟩ := registry_eq_some.mp recorded
    rw [keyAt_eq at_ listed, isV1] at isTag
    exact distinct isTag.symm
  generalize isDiscriminator : call.discriminator = discriminator at transition
  rw [TakesV1Branch, isDiscriminator] at legacy
  clear isDiscriminator
  generalize m.approved = approvals at transition
  generalize registryAt dep ledger events (i + 1) = after at transition ⊢
  cases transition with
  | protocol | migrate | reclaimLegacy | closeLegacy => rfl
  | reclaimDeferred deferredAt recorded checked =>
    rcases legacy with no | ⟨_, acc, at_, isV1⟩ | ⟨no, _⟩
    · exact absurd no (by decide)
    · exact (other (by decide) deferredAt at_ recorded (DeferredExecAccount.check_eq_ok.mp checked).2.1 isV1).elim
    · exact absurd no (by decide)
  | closeExpiredSession sessionAt recorded tag =>
    rcases legacy with no | ⟨no, _⟩ | ⟨_, acc, at_, isV1⟩
    · exact absurd no (by decide)
    · exact absurd no (by decide)
    · exact (other (by decide) sessionAt at_ recorded tag isV1).elim
  | createWallet | addAuthority | removeAuthority | transferOwnership | execute | executeSession | createSession
  | authorize | executeDeferred | revokeSession =>
    rcases legacy with no | ⟨no, _⟩ | ⟨no, _⟩ <;> exact absurd no (by decide)

theorem TakesV1Branch.cases (legacy : TakesV1Branch call ledger) :
    call.discriminator = 17 ∨ call.discriminator = 8 ∨ call.discriminator = 18 := by
  rcases legacy with is | ⟨is, _⟩ | ⟨is, _⟩
  · exact .inl is
  · exact .inr (.inl is)
  · exact .inr (.inr is)

/-- Neither does it touch the book. -/
theorem SucceedsAt.v1_book (success : SucceedsAt dep ledger events i call m)
    (legacy : TakesV1Branch call (ledgerAt dep ledger events i)) :
    bookAt dep ledger events (i + 1) = bookAt dep ledger events i := by
  obtain ⟨collected, fee, taken, step⟩ := success.bookStep
  have free : isFeeEligible call.discriminator = false := by
    rcases legacy.cases with is | is | is <;> rw [is] <;> rfl
  have other : isBookkeeping call.discriminator = false := by
    rcases legacy.cases with is | is | is <;> rw [is] <;> rfl
  rw [step.eq_of_spared other, taken.of_ineligible free]
  rfl

/-- No position accepts a zeroed account. -/
theorem zero_notMem_slotTags (discriminator : UInt8) : ∀ slot ∈ slotTags discriminator, 0 ∉ slot.2 := by
  intro slot member
  rcases List.mem_append.mp member with record | tagged
  · obtain ⟨⟨_, kind⟩, _, rfl⟩ := List.mem_map.mp record
    rw [List.mem_singleton]
    exact (AccountDiscriminator.toByte_ne_v1 (by decide)).symm
  · clear member
    revert slot
    unfold taggedSlots
    split <;> decide

/-- The fee accounts a charged call names: the configuration, the shard, and the record where there is one. -/
structure FeeAccountsTyped (dep : Deployment) (ledger : Ledger) (call : Call) : Prop where
  config : ∃ acc, call.accounts.infos[call.accounts.infos.length - 4]? = some acc ∧
    Typed dep .protocolConfig acc.key (ledger acc.key).data
  record : ∃ acc, call.accounts.infos[call.accounts.infos.length - 3]? = some acc ∧
    (book dep ledger acc.key = none ∨ Typed dep .feeRecord acc.key (ledger acc.key).data)
  shard : ∃ acc, call.accounts.infos[call.accounts.infos.length - 2]? = some acc ∧
    Typed dep .treasuryShard acc.key (ledger acc.key).data

private theorem entry_typed (start : Unwritten dep ledger) (events : List Event) (i : ℕ)
    (there : bookAt dep ledger events i key = some bytes) (checked : kind.check bytes = .ok ()) :
    Typed dep kind key (ledgerAt dep ledger events i key).data := by
  obtain ⟨owned, rfl, _⟩ := book_eq_some.mp there
  exact typed_ledgerAt start events i owned (AccountDiscriminator.check_tag checked)

private theorem SucceedsAt.feeAccountsTyped (start : Unwritten dep ledger)
    (success : SucceedsAt dep ledger events i call m) (eligible : isFeeEligible call.discriminator = true)
    (due : 0 < configuredFee (configAt dep ledger events i) call.discriminator) :
    FeeAccountsTyped dep (ledgerAt dep ledger events i) call := by
  obtain ⟨collected, fee, _, step, _⟩ := success.collects eligible
  cases step with
  | skipped _ address free =>
    rw [resolveFee_eq address] at free
    exact absurd free due.ne'
  | @charged config payer record shard old shardBytes _ _ configAt address _ _ recordAt _ shardAt shardRecorded
      shardChecked _ previous =>
    obtain ⟨recordAcc, recordListed, rfl⟩ := recordAt
    obtain ⟨shardAcc, shardListed, rfl⟩ := shardAt
    refine ⟨⟨config, configAt, ?_⟩, ⟨recordAcc, recordListed, ?_⟩, shardAcc, shardListed,
      entry_typed start events i shardRecorded shardChecked⟩
    · rw [address]
      unfold configuredFee at due
      split at due
      · next stored seen =>
        rw [LazorKit.configAt, configIn, Option.bind_eq_some_iff] at seen
        obtain ⟨bytes, there, checks⟩ := seen
        split at checks
        · next checked => exact entry_typed start events i there checked
        · cases checks
      · exact absurd due (Nat.lt_irrefl 0)
    · rcases previous with ⟨there, checked, _⟩ | ⟨fresh, _⟩
      · exact .inr (entry_typed start events i there checked)
      · exact .inl fresh

/-- In every state of every run: an account under a tag of this version passes that type's check, lives at an
address of that type and stays so until it is zeroed; processors find at each typed position an account under
a tag they accept, which passes the checks of that tag's type and of no other; a v1 branch leaves every account
of this version as it is; and bytes under a v1 tag, or zeroed ones, are accepted nowhere. -/
theorem account_types (start : Unwritten dep ledger) (events : List Event) (i : ℕ) :
    (∀ key kind, (ledgerAt dep ledger events i key).owner = dep.programId →
      (ledgerAt dep ledger events i key).data.byte 0 = kind.toByte →
      Typed dep kind key (ledgerAt dep ledger events i key).data ∧
        ((ledgerAt dep ledger events (i + 1) key).owner = dep.programId ∧
            Typed dep kind key (ledgerAt dep ledger events (i + 1) key).data ∨
          (ledgerAt dep ledger events (i + 1) key).data.isZero = true)) ∧
    (∀ call m, SucceedsAt dep ledger events i call m →
      (∀ slot ∈ slotTags call.discriminator, ∃ acc, call.processorAccounts[slot.1]? = some acc ∧
        (ledgerAt dep ledger events i acc.key).owner = dep.programId ∧
        (ledgerAt dep ledger events i acc.key).data.byte 0 ∈ slot.2 ∧
        ∀ kind : AccountDiscriminator, kind.check (ledgerAt dep ledger events i acc.key).data = .ok () ↔
          (ledgerAt dep ledger events i acc.key).data.byte 0 = kind.toByte) ∧
      (isFeeEligible call.discriminator = true →
        0 < configuredFee (configAt dep ledger events i) call.discriminator →
        FeeAccountsTyped dep (ledgerAt dep ledger events i) call) ∧
      (TakesV1Branch call (ledgerAt dep ledger events i) → ∀ key kind,
        (ledgerAt dep ledger events i key).owner = dep.programId →
        (ledgerAt dep ledger events i key).data.byte 0 = AccountDiscriminator.toByte kind →
        (ledgerAt dep ledger events (i + 1) key).owner = dep.programId ∧
          (ledgerAt dep ledger events (i + 1) key).data = (ledgerAt dep ledger events i key).data)) ∧
    ∀ bytes : Bytes, (bytes.byte 0 ≤ 7 ∨ bytes.isZero = true →
        ∀ kind : AccountDiscriminator, kind.check bytes ≠ .ok ()) ∧
      (bytes.isZero = true → ∀ discriminator, ∀ slot ∈ slotTags discriminator, bytes.byte 0 ∉ slot.2) := by
  refine ⟨fun key kind owned tag =>
    ⟨typed_ledgerAt start events i owned tag, typed_ledgerAt_succ start events i owned tag⟩,
    fun call m success => ⟨fun slot member => ?_, success.feeAccountsTyped start, fun legacy key kind owned tag => ?_⟩,
    fun bytes => ⟨fun old kind => ?_, fun zero discriminator slot member => ?_⟩⟩
  · obtain ⟨acc, at_, owned, accepted⟩ := success.taggedAt slot member
    exact ⟨acc, at_, owned, accepted, fun kind => ⟨AccountDiscriminator.check_tag,
      fun tag => (typed_ledgerAt start events i owned tag).checked⟩⟩
  · rcases tag_cases kind with record | protocol
    · have recorded : registryAt dep ledger events i key = some _ := registry_eq_some.mpr ⟨owned, rfl, by rwa [tag]⟩
      rw [← success.v1_registry legacy] at recorded
      obtain ⟨stillOwned, same, _⟩ := registry_eq_some.mp recorded
      exact ⟨stillOwned, same⟩
    · have recorded : bookAt dep ledger events i key = some _ := book_eq_some.mpr ⟨owned, rfl, by rwa [tag]⟩
      rw [← success.v1_book legacy] at recorded
      obtain ⟨stillOwned, same, _⟩ := book_eq_some.mp recorded
      exact ⟨stillOwned, same⟩
  · apply AccountDiscriminator.check_ne_of_tag
    rcases old with v1 | zero
    · exact (AccountDiscriminator.toByte_ne_v1 v1).symm
    · rw [Bytes.byte_zero_of_isZero zero]
      exact (AccountDiscriminator.toByte_ne_v1 (by decide)).symm
  · rw [Bytes.byte_zero_of_isZero zero]
    exact zero_notMem_slotTags discriminator slot member

/-- The session of the sample is a session, at its own address. -/
theorem account_types_sample :
    Typed Sample.deployment .session Sample.session
      (ledgerAt Sample.deployment Ledger.empty Sample.events 11 Sample.session).data := by
  obtain ⟨types, _⟩ := account_types (unwritten_empty Sample.deployment) Sample.events 11
  exact (types Sample.session .session (by decide +kernel) (by decide +kernel)).1

end LazorKit
