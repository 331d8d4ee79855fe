import LazorKit.Proofs.Fate
import LazorKit.Soundness.Closers
import LazorKit.Soundness.OwnerCount

/-! # The life of a deferred authorization

A deferred authorization is created by one Authorize, stays byte for byte what it was, and ends with
one ExecuteDeferred up to its expiry slot or one ReclaimDeferred after it. Either way every lamport
it holds goes to whoever paid for the Authorize.
-/

namespace LazorKit

open Solana

/-- Where a consuming instruction names the deferred account and the refund destination. -/
def deferredIndex (discriminator : UInt8) : ℕ := if discriminator = 7 then 3 else 1

def refundIndex (discriminator : UInt8) : ℕ := if discriminator = 7 then 4 else 2

section Step

variable {dep : Deployment} {fr : Frame} {accounts : List AccountInfo} {data : Bytes} {reg reg' : Registry}
  {discriminator : UInt8} {approvals : List Approval} {key : Pubkey} {old : Bytes}

/-- The instruction consumes the deferred account: an ExecuteDeferred up to the expiry slot, or a
ReclaimDeferred after it, naming the payer as refund destination. -/
structure Consumes (accounts : List AccountInfo) (discriminator : UInt8) (slot : ℕ) (key : Pubkey)
    (bytes : Bytes) : Prop where
  deferredAt : KeyAt accounts (deferredIndex discriminator) key
  refundAt : KeyAt accounts (refundIndex discriminator) (DeferredExecAccount.read bytes).payer
  when_ : (discriminator = 7 ∧ slot ≤ (DeferredExecAccount.read bytes).expiresAt) ∨
    (discriminator = 8 ∧ (DeferredExecAccount.read bytes).expiresAt < slot)

theorem Consumes.unexpired {slot : ℕ} (consumes : Consumes accounts 7 slot key old) :
    slot ≤ (DeferredExecAccount.read old).expiresAt := by
  rcases consumes.when_ with ⟨_, unexpired⟩ | ⟨other, _⟩
  · exact unexpired
  · exact absurd other (by decide)

theorem Consumes.expired {slot : ℕ} (consumes : Consumes accounts 8 slot key old) :
    (DeferredExecAccount.read old).expiresAt < slot := by
  rcases consumes.when_ with ⟨other, _⟩ | ⟨_, expired⟩
  · exact absurd other (by decide)
  · exact expired

/-- A live deferred authorization is kept byte for byte or consumed. -/
theorem Fate.deferred {record : Option Bytes}
    (fate : Fate dep fr accounts discriminator approvals key old record)
    (checked : DeferredExecAccount.check old = .ok ()) :
    record = some old ∨ (record = none ∧ Consumes accounts discriminator fr.slot.toNat key old) := by
  have tag := (DeferredExecAccount.check_eq_ok.mp checked).2.1
  cases fate with
  | kept => exact .inl rfl
  | recounted wallet => exact absurd ((WalletAccount.check_eq_ok.mp wallet).2.1.symm.trans tag) (by decide)
  | acted authority | authorityClosed authority =>
    exact absurd ((AuthorityAccountHeader.check_eq_ok.mp authority).2.1.symm.trans tag) (by decide)
  | sessionUsed session | sessionExpired session => exact absurd (session.symm.trans tag) (by decide)
  | sessionRevoked session =>
    exact absurd ((SessionAccount.check_eq_ok.mp session).2.1.symm.trans tag) (by decide)
  | deferredExecuted _ which deferredAt refundAt unexpired =>
    subst which
    exact .inr ⟨rfl, deferredAt, refundAt, .inl ⟨rfl, unexpired⟩⟩
  | deferredReclaimed _ which deferredAt refundAt expired =>
    subst which
    exact .inr ⟨rfl, deferredAt, refundAt, .inr ⟨rfl, expired⟩⟩

/-- An ExecuteDeferred consumes a live authorization over exactly what it executes. -/
theorem Transition.executeDeferred_inv
    (transition : Transition dep fr accounts data reg 7 approvals reg') :
    ∃ wallet deferred bytes ixs compactLen, KeyAt accounts 1 wallet ∧ reg deferred = some bytes ∧
      DeferredExecAccount.check bytes = .ok () ∧ reg' deferred = none ∧
      Consumes accounts 7 fr.slot.toNat deferred bytes ∧ (DeferredExecAccount.read bytes).wallet = wallet ∧
      parseCompactInstructionsRefWithLen data = .ok (ixs, compactLen) ∧
      dep.sha256 (data.take compactLen) = (DeferredExecAccount.read bytes).instructionsHash ∧
      computeAccountsHash dep.toRuntime accounts ixs = .ok (DeferredExecAccount.read bytes).accountsHash := by
  generalize which : (7 : UInt8) = discriminator at transition
  cases transition with
  | executeDeferred walletAt _ deferredAt recorded checked ofWallet refundAt unexpired parsed instructions hashed =>
    exact ⟨_, _, _, _, _, walletAt, recorded, checked, Function.update_self ..,
      ⟨deferredAt, refundAt, .inl ⟨rfl, unexpired⟩⟩, ofWallet, parsed, instructions, hashed⟩
  | protocol layer =>
    subst which
    exact absurd layer.1 (by decide)
  | _ => exact absurd which (by decide)

/-- A ReclaimDeferred consumes the live authorization it names, if that is one. -/
theorem Transition.reclaimDeferred_inv {bytes : Bytes}
    (transition : Transition dep fr accounts data reg 8 approvals reg') (named : KeyAt accounts 1 key)
    (recorded : reg key = some bytes) : reg' key = none ∧ Consumes accounts 8 fr.slot.toNat key bytes := by
  generalize which : (8 : UInt8) = discriminator at transition
  cases transition with
  | reclaimLegacy deferredAt unrecorded =>
    rw [KeyAt.unique named deferredAt, unrecorded] at recorded
    cases recorded
  | reclaimDeferred deferredAt there checked refundAt expired =>
    cases KeyAt.unique named deferredAt
    cases Option.some.inj (recorded.symm.trans there)
    exact ⟨Function.update_self .., deferredAt, refundAt, .inr ⟨rfl, expired⟩⟩
  | protocol layer =>
    subst which
    exact absurd layer.1 (by decide)
  | _ => exact absurd which (by decide)

end Step

section Runs

variable {dep : Deployment} {start : Ledger} {events : List Event}

/-- The `k`th event is a successful Authorize that created the deferred account with these bytes: a
passkey of rank Owner or Admin without a policy, of the wallet the account names, approved it, and the
account stores what was approved. -/
structure Authorized (dep : Deployment) (start : Ledger) (events : List Event) (k : ℕ) (call : Call)
    (authority deferred : Pubkey) (bytes : Bytes) : Prop where
  succeeds : ∃ m assertion, SucceedsAt dep start events k call m ∧
    Approval.authority authority 6 (some assertion) ∈ m.approved
  isAuthorize : call.discriminator = 6
  live : LiveAuthority dep (ledgerAt dep start events k) authority
  kind : (AuthorityAccountHeader.read (ledgerAt dep start events k authority).data).authorityType = 1
  rank : (AuthorityAccountHeader.read (ledgerAt dep start events k authority).data).role ≤ rankAdmin
  unbounded : (AuthorityAccountHeader.read (ledgerAt dep start events k authority).data).policyLen = 0
  ofWallet : (AuthorityAccountHeader.read (ledgerAt dep start events k authority).data).wallet =
    (DeferredExecAccount.read bytes).wallet
  instructions : (DeferredExecAccount.read bytes).instructionsHash = readKey call.arguments 0
  accountsHash : (DeferredExecAccount.read bytes).accountsHash = readKey call.arguments 32
  payer : KeyAt call.processorAccounts 0 (DeferredExecAccount.read bytes).payer
  window : minExpirySlots ≤ (call.arguments.slice 64 2).toNatLE ∧
    (call.arguments.slice 64 2).toNatLE ≤ maxExpirySlots
  expiry : (DeferredExecAccount.read bytes).expiresAt = call.slot + (call.arguments.slice 64 2).toNatLE
  vacant : registryAt dep start events k deferred = none
  created : registryAt dep start events (k + 1) deferred = some bytes

/-- A record with the deferred tag that appears was created by an Authorize. -/
theorem SucceedsAt.authorized {k : ℕ} {call : Call} {m : Machine Approval} {deferred : Pubkey} {bytes : Bytes}
    (success : SucceedsAt dep start events k call m) (vacant : registryAt dep start events k deferred = none)
    (created : registryAt dep start events (k + 1) deferred = some bytes)
    (checked : DeferredExecAccount.check bytes = .ok ()) :
    ∃ authority, Authorized dep start events k call authority deferred bytes := by
  have tag := (DeferredExecAccount.check_eq_ok.mp checked).2.1
  have birth := success.transition.birth vacant created
  cases birth with
  | wallet => exact absurd tag (by rw [byte_newWallet]; decide)
  | authority => exact absurd tag (by rw [byte_newAuthority]; decide)
  | session => exact absurd tag (by rw [byte_newSession]; decide)
  | @deferred wallet authority payer _ _ _ _ _ _ bump which live acting only kind rank unbounded window bound payerAt =>
    obtain ⟨owned, same, _⟩ := registry_eq_some.mp acting.recorded
    rw [← same] at kind rank unbounded
    have approval : ∃ assertion, Approval.authority authority 6 (some assertion) ∈ m.approved := by
      rw [only]
      cases acting.step with
      | ed25519 other => exact absurd (kind.symm.trans (same ▸ other)) (by decide)
      | secp256r1 => exact ⟨_, by rw [which]; exact List.mem_singleton.mpr rfl⟩
    obtain ⟨assertion, approved⟩ := approval
    have read := DeferredExecAccount.read_toBytes (newDeferred bump call.arguments wallet authority payer
      (call.frame.slot.toNat + (call.arguments.slice 64 2).toNatLE)) bound
    exact ⟨authority, {
      succeeds := ⟨m, assertion, success, approved⟩
      isAuthorize := which
      live := ⟨owned, same ▸ acting.checked⟩
      kind := kind
      rank := rank
      unbounded := unbounded
      ofWallet := by rw [same, acting.ofWallet, read]; rfl
      instructions := by rw [read]; rfl
      accountsHash := by rw [read]; rfl
      payer := by rw [read]; exact payerAt
      window := window
      expiry := by rw [read]; rfl
      vacant := vacant
      created := created }⟩

/-- Every live deferred authorization was created by an Authorize and has not changed since. -/
theorem deferred_provenance {j : ℕ} {deferred : Pubkey} {bytes : Bytes} (genesis : Genesis dep start)
    (recorded : registryAt dep start events j deferred = some bytes)
    (checked : DeferredExecAccount.check bytes = .ok ()) :
    ∃ k call authority, k < j ∧ Authorized dep start events k call authority deferred bytes ∧
      ∀ l, k < l → l ≤ j → registryAt dep start events l deferred = some bytes := by
  have initially : ¬registryAt dep start events 0 deferred = some bytes := by
    rw [registryAt, ledgerAt_eq, Run.stateAt_zero, genesis deferred]
    simp
  obtain ⟨k, call, m, _, early, success, fails, since⟩ := exists_establishing_call
    (P := fun reg => reg deferred = some bytes) genesis.funded (Nat.zero_le j) initially recorded
  have created := since (k + 1) (by omega) (by omega)
  cases before : registryAt dep start events k deferred with
  | none =>
    obtain ⟨authority, authorized⟩ := success.authorized before created checked
    exact ⟨k, call, authority, early, authorized, since⟩
  | some old =>
    have fate := success.transition.fate before
    rw [created] at fate
    have oldTag := fate.tag
    rw [(DeferredExecAccount.check_eq_ok.mp checked).2.1] at oldTag
    refine absurd ?_ fails
    cases fate with
    | kept => exact before
    | recounted wallet =>
      exact absurd ((WalletAccount.check_eq_ok.mp wallet).2.1.symm.trans oldTag.symm) (by decide)
    | acted authority =>
      exact absurd ((AuthorityAccountHeader.check_eq_ok.mp authority).2.1.symm.trans oldTag.symm) (by decide)
    | sessionUsed session => exact absurd (session.symm.trans oldTag.symm) (by decide)

/-- The `j`th event is a successful ExecuteDeferred or ReclaimDeferred on the account. -/
def ConsumedAt (dep : Deployment) (start : Ledger) (events : List Event) (j : ℕ) (deferred : Pubkey) : Prop :=
  ∃ call m, SucceedsAt dep start events j call m ∧ (call.discriminator = 7 ∨ call.discriminator = 8) ∧
    KeyAt call.processorAccounts (deferredIndex call.discriminator) deferred

/-- The `k`th event emptied the account into the payer, which is another account: the payer gained all that the
account held in front of the drain, and no other balance changed there. -/
def PaidBack (dep : Deployment) (start : Ledger) (events : List Event) (k : ℕ) (call : Call)
    (deferred payer : Pubkey) : Prop :=
  ∃ closer before, call.discriminator = closer.discriminator ∧
    Closes dep call (ledgerAt dep start events k) (ledgerAt dep start events (k + 1)) closer deferred payer before ∧
    (call.frame.Balanced dep.toRuntime → payer ≠ deferred)

/-- What a run makes of deferred authorizations. -/
structure DeferredLifecycle (dep : Deployment) (start : Ledger) (events : List Event) : Prop where
  /-- An ExecuteDeferred uses an account that exactly one Authorize created and nothing changed since,
  of the wallet it executes for, over what it executes, within the window that was signed. -/
  executed : ∀ j call m, SucceedsAt dep start events j call m → call.discriminator = 7 →
    ∃ wallet deferred bytes ixs compactLen k authorize authority,
      KeyAt call.processorAccounts 1 wallet ∧ KeyAt call.processorAccounts 3 deferred ∧ k < j ∧
      Authorized dep start events k authorize authority deferred bytes ∧
      (∀ l, k < l → l ≤ j → registryAt dep start events l deferred = some bytes) ∧
      (∀ k' < j, registryAt dep start events k' deferred = none →
        (∀ l, k' < l → l ≤ j → registryAt dep start events l deferred ≠ none) → k' = k) ∧
      (DeferredExecAccount.read bytes).wallet = wallet ∧
      parseCompactInstructionsRefWithLen call.arguments = .ok (ixs, compactLen) ∧
      dep.sha256 (call.arguments.take compactLen) = readKey authorize.arguments 0 ∧
      computeAccountsHash dep.toRuntime call.processorAccounts ixs = .ok (readKey authorize.arguments 32) ∧
      authorize.slot ≤ call.slot ∧ call.slot ≤ authorize.slot + (authorize.arguments.slice 64 2).toNatLE
  /-- A live account is never overwritten: it stays as it is or is consumed, by an ExecuteDeferred up
  to its expiry or a ReclaimDeferred after it, and then its balance goes to the payer it stores. -/
  kept : ∀ k deferred bytes, registryAt dep start events k deferred = some bytes →
    DeferredExecAccount.check bytes = .ok () →
    registryAt dep start events (k + 1) deferred = some bytes ∨
      (registryAt dep start events (k + 1) deferred = none ∧ ∃ call m, SucceedsAt dep start events k call m ∧
        Consumes call.processorAccounts call.discriminator call.slot deferred bytes ∧
        PaidBack dep start events k call deferred (DeferredExecAccount.read bytes).payer)
  /-- One Authorize is consumed at most once. -/
  once : ∀ k j₁ j₂ deferred bytes, k < j₁ → k < j₂ → DeferredExecAccount.check bytes = .ok () →
    (∀ l, k < l → l ≤ j₁ → registryAt dep start events l deferred = some bytes) →
    (∀ l, k < l → l ≤ j₂ → registryAt dep start events l deferred = some bytes) →
    ConsumedAt dep start events j₁ deferred → ConsumedAt dep start events j₂ deferred → j₁ = j₂
  /-- From one state, ExecuteDeferred and ReclaimDeferred of an account never both succeed at one
  slot, so neither order of the two is possible there. -/
  exclusive : ∀ i deferred bytes (execute reclaim : Call) m₁ m₂,
    registryAt dep start events i deferred = some bytes → DeferredExecAccount.check bytes = .ok () →
    execute.execute dep (ledgerAt dep start events i) = .ok m₁ → execute.discriminator = 7 →
    KeyAt execute.processorAccounts 3 deferred →
    reclaim.execute dep (ledgerAt dep start events i) = .ok m₂ → reclaim.discriminator = 8 →
    KeyAt reclaim.processorAccounts 1 deferred → execute.slot < reclaim.slot

/-- Whatever else the instruction did first, the whole balance of the account it consumes goes to the payer. -/
theorem Consumes.paidBack {k : ℕ} {call : Call} {m : Machine Approval} {deferred : Pubkey} {bytes : Bytes}
    (consumes : Consumes call.processorAccounts call.discriminator call.slot deferred bytes)
    (genesis : Genesis dep start) (success : SucceedsAt dep start events k call m) :
    PaidBack dep start events k call deferred (DeferredExecAccount.read bytes).payer := by
  have funded := funded_ledgerAt events genesis.funded k
  obtain ⟨deferredAt, refundAt, when_⟩ := consumes
  rcases when_ with ⟨which, _⟩ | ⟨which, _⟩
  · rw [which] at deferredAt refundAt
    obtain ⟨closed, refund, before, closes⟩ := executeDeferred_closes which success.2
    rw [← success.ledgerAt_succ, closes.closedAt.unique deferredAt, closes.refundAt.unique refundAt] at closes
    exact ⟨.executeDeferred, before, which, closes, fun balanced => closes.fundedDistinct balanced funded⟩
  · rw [which] at deferredAt refundAt
    obtain ⟨closed, refund, before, closes⟩ := reclaimDeferred_closes which success.2
    rw [← success.ledgerAt_succ, closes.closedAt.unique deferredAt, closes.refundAt.unique refundAt] at closes
    exact ⟨.reclaimDeferred, before, which, closes, fun balanced => closes.fundedDistinct balanced funded⟩

/-- A consumed account is no record any more. -/
theorem ConsumedAt.vacated {j : ℕ} {deferred : Pubkey} {bytes : Bytes}
    (consumed : ConsumedAt dep start events j deferred)
    (recorded : registryAt dep start events j deferred = some bytes) :
    registryAt dep start events (j + 1) deferred = none := by
  obtain ⟨call, m, success, which, named⟩ := consumed
  have transition := success.transition
  rcases which with which | which
  · rw [which] at transition named
    obtain ⟨_, used, _, _, _, _, _, _, gone, consumes, _⟩ := transition.executeDeferred_inv
    rwa [KeyAt.unique named consumes.deferredAt]
  · rw [which] at transition named
    exact (transition.reclaimDeferred_inv named recorded).1

private theorem deferred_kept {k : ℕ} {deferred : Pubkey} {bytes : Bytes} (genesis : Genesis dep start)
    (recorded : registryAt dep start events k deferred = some bytes)
    (checked : DeferredExecAccount.check bytes = .ok ()) :
    registryAt dep start events (k + 1) deferred = some bytes ∨
      (registryAt dep start events (k + 1) deferred = none ∧ ∃ call m, SucceedsAt dep start events k call m ∧
        Consumes call.processorAccounts call.discriminator call.slot deferred bytes ∧
        PaidBack dep start events k call deferred (DeferredExecAccount.read bytes).payer) := by
  rcases registryAt_succ events genesis.funded k with ⟨same, _⟩ | ⟨call, m, success⟩
  · exact .inl (by rw [same, recorded])
  · apply ((success.transition.fate recorded).deferred checked).imp id
    rintro ⟨gone, consumes⟩
    exact ⟨gone, call, m, success, consumes, consumes.paidBack genesis success⟩

/-- Over any run at nondecreasing slots, deferred authorizations live by these laws. -/
theorem deferred_lifecycle (genesis : Genesis dep start) (ordered : SlotsNondecreasing events) :
    DeferredLifecycle dep start events where
  executed j call m success which := by
    have transition := success.transition
    rw [which] at transition
    obtain ⟨wallet, deferred, bytes, ixs, compactLen, walletAt, recorded, checked, _, consumes, ofWallet, parsed,
      instructions, hashed⟩ := transition.executeDeferred_inv
    obtain ⟨k, authorize, authority, early, authorized, since⟩ := deferred_provenance genesis recorded checked
    obtain ⟨_, _, authorizeSuccess, _⟩ := authorized.succeeds
    refine ⟨wallet, deferred, bytes, ixs, compactLen, k, authorize, authority, walletAt, consumes.deferredAt, early,
      authorized, since, fun k' early' vacant held => ?_, ofWallet, parsed, ?_, ?_, ?_, ?_⟩
    · -- the two creations cannot be apart: the later one would find the account live
      rcases Nat.lt_trichotomy k' k with before | same | after
      · exact absurd authorized.vacant (held k before early.le)
      · exact same
      · rw [since k' after early'.le] at vacant
        cases vacant
    · rw [instructions, authorized.instructions]
    · rw [hashed, authorized.accountsHash]
    · exact ordered k j authorize call early.le authorizeSuccess.1 success.1
    · rw [← authorized.expiry]
      exact consumes.unexpired
  kept k deferred bytes recorded checked := deferred_kept genesis recorded checked
  once k j₁ j₂ deferred bytes after₁ after₂ _ held₁ held₂ consumed₁ consumed₂ := by
    rcases Nat.lt_trichotomy j₁ j₂ with before | same | later
    · have gone := consumed₁.vacated (held₁ j₁ after₁ le_rfl)
      rw [held₂ (j₁ + 1) (by omega) (by omega)] at gone
      cases gone
    · exact same
    · have gone := consumed₂.vacated (held₂ j₂ after₂ le_rfl)
      rw [held₁ (j₂ + 1) (by omega) (by omega)] at gone
      cases gone
  exclusive i deferred bytes execute reclaim m₁ m₂ recorded checked executes which₁ named₁ reclaims which₂ named₂ := by
    have first := (Call.execute_refines executes).1
    have second := (Call.execute_refines reclaims).1
    rw [which₁] at first
    rw [which₂] at second
    obtain ⟨_, used, usedBytes, _, _, _, there, _, _, consumes, _⟩ := first.executeDeferred_inv
    cases KeyAt.unique named₁ consumes.deferredAt
    cases Option.some.inj (recorded.symm.trans there)
    exact lt_of_le_of_lt consumes.unexpired (second.reclaimDeferred_inv named₂ recorded).2.expired

end Runs

/-- The sample's deferred transfer lives until it is executed, and the payer gets its rent back. -/
theorem deferred_lifecycle_sample :
    DeferredLifecycle Sample.deployment Ledger.empty Sample.events ∧
      (∃ m, SucceedsAt Sample.deployment Ledger.empty Sample.events 8 Sample.executeDeferred m) ∧
      PaidBack Sample.deployment Ledger.empty Sample.events 8 Sample.executeDeferred Sample.deferred Sample.payer := by
  have law : DeferredLifecycle Sample.deployment Ledger.empty Sample.events :=
    deferred_lifecycle (genesis_empty _) (slotsNondecreasing_of_pairwise (by decide +kernel))
  -- everything that is found by running the events, at once
  have facts : (Sample.executeDeferred.execute Sample.deployment
        (ledgerAt Sample.deployment Ledger.empty Sample.events 8)).succeeded = true ∧
      registryAt Sample.deployment Ledger.empty Sample.events 8 Sample.deferred =
        some (ledgerAt Sample.deployment Ledger.empty Sample.events 8 Sample.deferred).data ∧
      DeferredExecAccount.check (ledgerAt Sample.deployment Ledger.empty Sample.events 8 Sample.deferred).data =
        .ok () ∧
      registryAt Sample.deployment Ledger.empty Sample.events 9 Sample.deferred ≠
        some (ledgerAt Sample.deployment Ledger.empty Sample.events 8 Sample.deferred).data ∧
      (DeferredExecAccount.read
        (ledgerAt Sample.deployment Ledger.empty Sample.events 8 Sample.deferred).data).payer = Sample.payer := by
    decide +kernel
  obtain ⟨succeeded, recorded, checked, gone, payer⟩ := facts
  refine ⟨law, ⟨_, succeedsAt_resultAt rfl succeeded⟩, ?_⟩
  rcases law.kept 8 Sample.deferred _ recorded checked with still | ⟨_, call, m, success, _, paid⟩
  · exact absurd still gone
  · have same : Sample.executeDeferred = call := by simpa [Sample.events] using success.1
    rwa [← same, payer] at paid

end LazorKit
