import LazorKit.Proofs.AuthorityRefine
import LazorKit.Proofs.ProtocolRefine
import LazorKit.Proofs.SessionRefine

/-! # The books of the protocol layer

Beside the records that carry authority stand the accounts of the protocol layer: the configuration,
the fee records and the treasury shards. The book keeps them as the registry keeps the records. Every
instruction about wallets spares the book: it leaves the bytes of these accounts alone and takes no
lamports from them.
-/

namespace LazorKit

open Solana

/-- The tags of the protocol layer. -/
def isProtocolTag (tag : UInt8) : Bool :=
  tag = AccountDiscriminator.protocolConfig.toByte ∨ tag = AccountDiscriminator.feeRecord.toByte ∨
    tag = AccountDiscriminator.treasuryShard.toByte

/-- The entry some bytes are, if their tag says so. -/
def entryData (bytes : Bytes) : Option Bytes := if isProtocolTag (bytes.byte 0) then some bytes else none

/-- The account of the protocol layer at an address, as the registry keeps records. -/
def book (dep : Deployment) (ledger : Ledger) : Registry := fun key =>
  if (ledger key).owner = dep.programId then entryData (ledger key).data else none

variable {dep : Deployment} {fr : Frame} {accounts : List AccountInfo} {data : Bytes}
  {m m' m'' : Machine Approval} {ledger : Ledger} {key : Pubkey} {bytes : Bytes}

private theorem entryData_of_not_tag (other : isProtocolTag (bytes.byte 0) = false) : entryData bytes = none := by
  rw [entryData, other]
  rfl

theorem entryData_of_tag (tag : isProtocolTag (bytes.byte 0) = true) : entryData bytes = some bytes := if_pos tag

private theorem entryData_of_isZero (zero : bytes.isZero = true) : entryData bytes = none := by
  apply entryData_of_not_tag
  rw [Bytes.byte_zero_of_isZero zero]
  rfl

private theorem entryData_replicate (count : ℕ) : entryData (List.replicate count 0) = none :=
  entryData_of_isZero (Bytes.isZero_replicate count)

theorem book_of_owned (owned : (ledger key).owner = dep.programId) :
    book dep ledger key = entryData (ledger key).data := if_pos owned

theorem book_of_not_owned (other : (ledger key).owner ≠ dep.programId) : book dep ledger key = none := if_neg other

theorem book_eq_some :
    book dep ledger key = some bytes ↔
      (ledger key).owner = dep.programId ∧ (ledger key).data = bytes ∧ isProtocolTag (bytes.byte 0) = true := by
  rw [book]
  split
  · next owned =>
    rw [entryData]
    split
    · next tag =>
      rw [Option.some.injEq]
      exact ⟨fun same => ⟨owned, same, same ▸ tag⟩, fun holds => holds.2.1⟩
    · next other =>
      refine ⟨fun absurd => (by cases absurd), ?_⟩
      rintro ⟨_, rfl, tag⟩
      exact absurd tag other
  · next other => exact ⟨fun absurd => (by cases absurd), fun holds => absurd holds.1 other⟩

theorem book_of_tag (owned : m.owner key = dep.programId) (tag : isProtocolTag ((m.data key).byte 0) = true) :
    book dep m.ledger key = some (m.data key) := book_eq_some.mpr ⟨owned, rfl, tag⟩

/-- An account under another tag is no entry. -/
theorem book_of_other_tag (other : isProtocolTag ((m.data key).byte 0) = false) : book dep m.ledger key = none := by
  by_cases owned : (m.ledger key).owner = dep.programId
  · rw [book_of_owned owned]
    exact entryData_of_not_tag other
  · exact book_of_not_owned owned

/-- An account without data is no entry. -/
theorem book_of_empty (empty : m.data key = []) : book dep m.ledger key = none :=
  book_of_other_tag (by rw [empty]; rfl)

/-- A record is no entry. -/
theorem not_isProtocolTag {tag : UInt8} (record : isRecordTag tag = true) : isProtocolTag tag = false := by
  simp only [isRecordTag, decide_eq_true_eq] at record
  rcases record with rfl | rfl | rfl | rfl
  all_goals rfl

theorem Created.book {target : Pubkey} {space : ℕ} (created : Created dep m m' target space) :
    book dep m'.ledger = book dep m.ledger := by
  funext key
  have data : (m'.ledger key).data = _ := created.data key
  have owner : (m'.ledger key).owner = _ := created.owner key
  by_cases same : key = target
  · subst same
    rw [if_pos rfl] at data owner
    rw [book_of_owned owner, data, entryData_replicate, book_of_empty created.wasEmpty]
  · rw [if_neg same] at data owner
    simp only [LazorKit.book, data, owner]
    rfl

/-- The entries are as they were and hold at least the lamports they held. -/
structure Spares (dep : Deployment) (m m' : Machine Approval) : Prop where
  book : book dep m'.ledger = book dep m.ledger
  lamports : ∀ key, LazorKit.book dep m.ledger key ≠ none → m.lamports key ≤ m'.lamports key

namespace Spares

theorem refl (dep : Deployment) (m : Machine Approval) : Spares dep m m := ⟨rfl, fun _ _ => le_rfl⟩

theorem trans (first : Spares dep m m') (second : Spares dep m' m'') : Spares dep m m'' :=
  ⟨second.book.trans first.book, fun key live =>
    (first.lamports key live).trans (second.lamports key (by rwa [first.book]))⟩

private theorem of_approve (approval : Approval) : Spares dep m (m.approve approval) := ⟨rfl, fun _ _ => le_rfl⟩

theorem of_foreign (foreign : Foreign dep m m') : Spares dep m m' := by
  have same : LazorKit.book dep m'.ledger = LazorKit.book dep m.ledger := by
    funext key
    by_cases owned : (m.ledger key).owner = dep.programId
    · obtain ⟨owned', data, _⟩ := Machine.foreignChange_of_owned (foreign.respects key) owned
      rw [book_of_owned owned, book_of_owned owned', data]
    · rw [book_of_not_owned owned]
      by_cases late : (m'.ledger key).owner = dep.programId
      · rw [book_of_owned late]
        exact entryData_of_isZero (Machine.foreignChange_of_not_owned (foreign.respects key) owned late)
      · exact book_of_not_owned late
  refine ⟨same, fun key live => ?_⟩
  have owned : (m.ledger key).owner = dep.programId := by
    by_contra other
    exact live (book_of_not_owned other)
  exact (foreign.owned owned).2.2

/-- Where owners and data stay, only the lamports matter. -/
theorem of_unmoved (unmoved : Machine.Unmoved m m')
    (lamports : ∀ key, LazorKit.book dep m.ledger key ≠ none → m.lamports key ≤ m'.lamports key) : Spares dep m m' := by
  refine ⟨?_, lamports⟩
  funext key
  simp only [LazorKit.book, show (m'.ledger key).owner = (m.ledger key).owner from unmoved.owner key,
    show (m'.ledger key).data = (m.ledger key).data from unmoved.data key]

theorem of_systemTransfer {source target : AccountInfo} {signs : Bool} {amount : ℕ}
    (success : m.systemTransfer source target signs amount = .ok m') : Spares dep m m' := by
  obtain ⟨empty, _, unmoved, more, _⟩ := Machine.systemTransfer_eq_ok success
  refine .of_unmoved unmoved fun key live => more key ?_
  rintro rfl
  exact live (book_of_empty empty)

/-- Storing bytes that are no entry where there was none. -/
theorem of_stored (stored : Stored m m' key bytes) (before : LazorKit.book dep m.ledger key = none)
    (after : entryData bytes = none) : Spares dep m m' := by
  refine ⟨?_, fun other _ => (stored.lamports other).ge⟩
  funext other
  have owner : (m'.ledger other).owner = (m.ledger other).owner := stored.owner other
  by_cases at_ : other = key
  · subst at_
    have written : (m'.ledger other).data = bytes := stored.data_self
    rw [before, LazorKit.book, written, after]
    exact ite_self _
  · have data : (m'.ledger other).data = (m.ledger other).data := stored.data_of_ne at_
    simp only [LazorKit.book, data, owner]

/-- Rewriting an account under its own tag, which is none of the book's. -/
theorem of_rewritten (stored : Stored m m' key bytes) (tag : bytes.byte 0 = (m.data key).byte 0)
    (other : isProtocolTag ((m.data key).byte 0) = false) : Spares dep m m' :=
  .of_stored stored (book_of_other_tag other) (entryData_of_not_tag (by rw [tag, other]))

/-- Creating an account, which is no entry until something is stored in it. -/
theorem of_initializePda {payer target system : AccountInfo} {space rent : ℕ}
    (success : initializePdaAccount dep m payer target system space rent = .ok m') (positive : 0 < rent) :
    Spares dep m m' := by
  have created := initializePdaAccount_eq_ok success positive
  refine ⟨created.book, fun key live => ?_⟩
  simp only [initializePdaAccount, Except.bind_eq_ok, Except.ensure_eq_ok, exists_const] at success
  obtain ⟨_, paid, payment, allocated, allocation, assignment⟩ := success
  have paidSpares : Spares dep m paid := by
    split at payment
    · exact .of_systemTransfer payment
    · cases payment
      exact .refl dep m
  have other : key ≠ target.key := by
    rintro rfl
    exact live (book_of_empty created.wasEmpty)
  obtain ⟨_, _, rfl⟩ := Machine.systemAllocate_eq_ok allocation
  rw [Machine.systemAssign_eq_ok assignment, Machine.lamports_setAccount, Machine.lamports_setAccount, if_neg other,
    if_neg other]
  exact paidSpares.lamports key live

/-- Creating an account and filling it under another tag. -/
theorem of_created_stored {payer target system : AccountInfo} {space rent : ℕ} {made : Machine Approval}
    (creation : initializePdaAccount dep m payer target system space rent = .ok made) (positive : 0 < rent)
    (stored : Stored made m' target.key bytes) (other : isProtocolTag (bytes.byte 0) = false) : Spares dep m m' := by
  have created := initializePdaAccount_eq_ok creation positive
  apply (Spares.of_initializePda creation positive).trans
  apply Spares.of_stored stored _ (entryData_of_not_tag other)
  rw [(Spares.of_initializePda creation positive).book, book_of_empty created.wasEmpty]

private theorem of_drain {closed refund : AccountInfo} (before : LazorKit.book dep m.ledger closed.key = none)
    (success : drainInto dep m closed refund = .ok m') : Spares dep m m' := by
  obtain ⟨unmoved, _, more, _⟩ := drainInto_eq_ok success
  refine .of_unmoved unmoved fun key live => more key ?_
  rintro rfl
  exact live before

private theorem of_zero {acc : AccountInfo} (before : LazorKit.book dep m.ledger acc.key = none)
    (success : zeroData dep m acc = .ok m') : Spares dep m m' :=
  .of_stored (zeroData_eq_ok success).1 before (entryData_replicate _)

/-- Closing an account that is no entry. -/
theorem of_zero_drain {closed refund : AccountInfo} {zeroed : Machine Approval}
    (before : LazorKit.book dep m.ledger closed.key = none) (zero : zeroData dep m closed = .ok zeroed)
    (drain : drainInto dep zeroed closed refund = .ok m') : Spares dep m m' :=
  (Spares.of_zero before zero).trans (.of_drain (by rw [(Spares.of_zero before zero).book, before]) drain)

theorem of_drain_zero {closed refund : AccountInfo} {drained : Machine Approval}
    (before : LazorKit.book dep m.ledger closed.key = none) (drain : drainInto dep m closed refund = .ok drained)
    (zero : zeroData dep drained closed = .ok m') : Spares dep m m' :=
  (Spares.of_drain before drain).trans (.of_zero (by rw [(Spares.of_drain before drain).book, before]) zero)

/-- Authenticating an account under a tag of its own. -/
theorem of_authenticate {authority : AccountInfo} {kind discriminator : UInt8} {authPayload signedPayload : Bytes}
    (other : isProtocolTag ((m.data authority.key).byte 0) = false)
    (type : kind = (AuthorityAccountHeader.read (m.data authority.key)).authorityType)
    (success : authenticate dep fr accounts m authority kind authPayload signedPayload discriminator = .ok m') :
    Spares dep m m' := by
  obtain ⟨new, approval, step, stored, _⟩ := authenticate_eq_ok success type
  exact .of_rewritten stored (step.byte_eq (.inl (by decide))) other

end Spares

/-- A checked wallet is no entry. -/
theorem wallet_not_entry (checked : WalletAccount.check bytes = .ok ()) : isProtocolTag (bytes.byte 0) = false :=
  not_isProtocolTag (isRecordTag_wallet checked)

/-- A checked authority is no entry. -/
theorem authority_not_entry (checked : AuthorityAccountHeader.check bytes = .ok ()) :
    isProtocolTag (bytes.byte 0) = false := not_isProtocolTag (isRecordTag_authority checked)

theorem Stored.of_writeData {acc : AccountInfo} (success : m.writeData dep.toRuntime acc bytes = .ok m') :
    Stored m m' acc.key bytes := (writeData_eq_ok success).1

theorem processCreateWallet_spares (success : processCreateWallet dep accounts data m = .ok m') : Spares dep m m' := by
  simp only [processCreateWallet, Except.bind_eq_ok, Except.ensure_eq_ok, exists_const, accountAt_eq_ok,
    Except.ofOption_eq_ok, checkZeroData] at success
  obtain ⟨_, key, parsed, payer, _, _, walletPda, _, vaultPda, _, authPda, _, systemProgram, _, rentSysvar, _,
    rent, _, walletAddress, _, _, authAddress, _, walletMade, walletInit, walletWritten, walletStore,
    authSpace, fixedLen, authMade, authInit, material, stored, authStore⟩ := success
  exact (Spares.of_created_stored walletInit (rent.minimumBalance_pos _) (.of_writeData walletStore) rfl).trans
    (Spares.of_created_stored authInit (rent.minimumBalance_pos _) (.of_writeData authStore) rfl)

/-- The owner count stands in a wallet, which is no entry. -/
theorem Spares.of_recount {role : UInt8} {count : ℕ} {walletPda : AccountInfo}
    (checked : WalletAccount.check (m.data walletPda.key) = .ok ())
    (stored : Stored m m' walletPda.key (recount (m.data walletPda.key) role count)) : Spares dep m m' := by
  refine .of_rewritten stored ?_ (wallet_not_entry checked)
  rw [byte_recount checked, (WalletAccount.check_eq_ok.mp checked).2.1]

theorem processAddAuthority_spares (success : processAddAuthority dep fr accounts data m = .ok m') :
    Spares dep m m' := by
  simp only [processAddAuthority, Except.bind_eq_ok, Except.ensure_eq_ok, exists_const, accountAt_eq_ok,
    Except.ofOption_eq_ok, checkZeroData] at success
  obtain ⟨args, parsed, payer, payerAt, _, walletPda, walletAt, adminAuthPda, adminAt, newAuthPda, _, systemProgram,
    _, walletOwned,
    adminOwned, _, walletChecked, rentSysvar, _, rent, _, _, adminChecked, ofWallet, _, approvedBy, authentication,
    allowed, delegateHasPolicy, othersHaveNone, unbounded, address, _, fixedLen, fixed, made, creation, counted,
    counting, material, stored, store⟩ := success
  obtain ⟨new, approval, auth⟩ := authenticated_of_checks walletAt adminAt adminOwned adminChecked ofWallet rfl
    authentication
  have created := initializePdaAccount_eq_ok creation (rent.minimumBalance_pos _)
  have approvedSpares := Spares.of_authenticate (authority_not_entry adminChecked) rfl authentication
  have madeSpares := approvedSpares.trans (.of_initializePda creation (rent.minimumBalance_pos _))
  have newNotWallet : walletPda.key ≠ newAuthPda.key := by
    intro same
    have system := created.wasSystem
    rw [← same, auth.stored.owner, walletOwned] at system
    exact dep.programId_ne_system system
  have walletKept : made.data walletPda.key = m.data walletPda.key := by
    rw [created.data, if_neg newNotWallet, auth.stored.data_of_ne (wallet_ne_authority walletChecked adminChecked)]
  have countedSpares : Spares dep m counted :=
    madeSpares.trans (.of_recount (by rw [walletKept]; exact walletChecked) (countOwner_eq_ok counting).1)
  refine countedSpares.trans (.of_stored (.of_writeData store) ?_ (entryData_of_not_tag ?_))
  · rw [countedSpares.book, ← approvedSpares.book, book_of_empty created.wasEmpty]
  · unfold authorityFixedLen at fixed
    split at fixed
    all_goals
      cases fixed
    all_goals rfl

theorem processRemoveAuthority_spares (success : processRemoveAuthority dep fr accounts data m = .ok m') :
    Spares dep m m' := by
  simp only [processRemoveAuthority, Except.bind_eq_ok, Except.ensure_eq_ok, exists_const,
    accountAt_eq_ok] at success
  obtain ⟨payer, _, _, walletPda, walletAt, adminAuthPda, adminAt, targetAuthPda, targetAt, refundDest, refundAt,
    ⟨walletOwned, adminOwned, targetOwned⟩, _, walletChecked, _, _, adminChecked, ofWallet, approvedBy,
    authentication, _, targetChecked, targetOfWallet, distinct, allowed, _, counted, counting, drained, drain,
    zero⟩ := success
  obtain ⟨new, approval, auth⟩ := authenticated_of_checks walletAt adminAt adminOwned adminChecked ofWallet rfl
    authentication
  have approvedSpares := Spares.of_authenticate (authority_not_entry adminChecked) rfl authentication
  have walletKept : approvedBy.data walletPda.key = m.data walletPda.key :=
    auth.stored.data_of_ne (wallet_ne_authority walletChecked adminChecked)
  have countedSpares : Spares dep approvedBy counted :=
    .of_recount (by rw [walletKept]; exact walletChecked) (uncountOwner_eq_ok counting).1
  refine approvedSpares.trans (countedSpares.trans (.of_drain_zero ?_ drain zero))
  rw [countedSpares.book]
  exact book_of_other_tag (authority_not_entry targetChecked)

theorem processTransferOwnership_spares (success : processTransferOwnership dep fr accounts data m = .ok m') :
    Spares dep m m' := by
  simp only [processTransferOwnership, Except.bind_eq_ok, Except.ensure_eq_ok, exists_const, accountAt_eq_ok,
    Except.ofOption_eq_ok, checkZeroData] at success
  obtain ⟨args, parsed, payer, payerAt, _, walletPda, walletAt, currentOwner, currentAt, newOwner, _, refundDest,
    refundAt, systemProgram, _,
    rentSysvar, _, rent, _, ⟨walletOwned, currentOwned⟩, _, _, walletChecked, _, _, currentChecked, ofWallet,
    owner, unbounded, approvedBy, authentication, address, _, fixedLen, fixed, made, creation, _, material, stored,
    written, store, drained, drain, zero⟩ := success
  have approvedSpares := Spares.of_authenticate (authority_not_entry currentChecked) rfl authentication
  have writtenSpares := approvedSpares.trans
    (.of_created_stored creation (rent.minimumBalance_pos _) (.of_writeData store) rfl)
  refine writtenSpares.trans (.of_drain_zero ?_ drain zero)
  rw [writtenSpares.book]
  exact book_of_other_tag (authority_not_entry currentChecked)

theorem processCreateSession_spares (success : processCreateSession dep fr accounts data m = .ok m') :
    Spares dep m m' := by
  simp only [processCreateSession, Except.bind_eq_ok, Except.ensure_eq_ok, exists_const, accountAt_eq_ok,
    checkZeroData] at success
  obtain ⟨args, parsed, payer, payerAt, _, walletPda, walletAt, authorizerPda, authorizerAt, sessionPda, _,
    systemProgram, _, rentSysvar, _, rent, _, _, _, _, _, _, authorizerChecked, _, _,
    _, _, _, approvedBy, authentication, _, _, made, creation, store⟩ := success
  exact (Spares.of_authenticate (authority_not_entry authorizerChecked) rfl authentication).trans
    (.of_created_stored creation (rent.minimumBalance_pos _) (.of_writeData store) rfl)

theorem processRevokeSession_spares (success : processRevokeSession dep fr accounts data m = .ok m') :
    Spares dep m m' := by
  simp only [processRevokeSession, Except.bind_eq_ok, Except.ensure_eq_ok, exists_const, accountAt_eq_ok,
    Except.mapError_eq_ok] at success
  obtain ⟨payer, _, walletPda, walletAt, adminAuthPda, adminAt, sessionPda, sessionAt, refundDest, refundAt, _,
    _, _, _, _, _, adminChecked, _, _, approvedBy,
    authentication, _, sessionChecked, sessionOfWallet, _, zeroed, zero, drain⟩ := success
  refine (Spares.of_authenticate (authority_not_entry adminChecked) rfl authentication).trans
    (.of_zero_drain ?_ zero drain)
  apply book_of_other_tag
  rw [(SessionAccount.check_eq_ok.mp sessionChecked).2.1]
  rfl

theorem processCloseExpiredSession_spares (success : processCloseExpiredSession dep fr accounts m = .ok m') :
    Spares dep m m' := by
  simp only [processCloseExpiredSession, Except.bind_eq_ok, Except.ensure_eq_ok, exists_const,
    accountAt_eq_ok] at success
  obtain ⟨caller, _, sessionPda, sessionAt, refundDest, _, _, _, owned, _, tag, expired, zeroed, zero, drain⟩ :=
    success
  refine .of_zero_drain (book_of_other_tag ?_) zero drain
  rcases tag with tag | tag
  all_goals
    rw [tag]
    rfl

theorem processAuthorize_spares (success : processAuthorize dep fr accounts data m = .ok m') : Spares dep m m' := by
  simp only [processAuthorize, Except.bind_eq_ok, Except.ensure_eq_ok, exists_const, accountAt_eq_ok] at success
  obtain ⟨payer, payerAt, walletPda, walletAt, authorityPda, authorityAt, deferredPda, _, systemProgram, _, _, _,
    _, _, _, _, _, _, _, _, authorityChecked, _, kind, _,
    _, approvedBy, authentication, _, _, made, creation, store⟩ := success
  exact (Spares.of_authenticate (authority_not_entry authorityChecked) kind.symm authentication).trans
    (.of_created_stored creation (dep.rent.minimumBalance_pos _) (.of_writeData store) rfl)

private theorem readDeferredTerms_not_entry {terms : Pubkey × ℕ} (read : readDeferredTerms bytes = .ok terms) :
    isProtocolTag (bytes.byte 0) = false := by
  unfold readDeferredTerms at read
  split at read
  · next legacy =>
    rw [Bytes.byte, List.getD_eq_getElem?_getD, ← List.head?_eq_getElem?, legacy]
    rfl
  · simp only [Except.bind_eq_ok] at read
    obtain ⟨_, checked, _⟩ := read
    exact not_isProtocolTag (isRecordTag_deferred checked)

theorem processReclaimDeferred_spares (success : processReclaimDeferred dep fr accounts m = .ok m') :
    Spares dep m m' := by
  simp only [processReclaimDeferred, Except.bind_eq_ok, Except.ensure_eq_ok, exists_const,
    accountAt_eq_ok] at success
  obtain ⟨payer, payerAt, deferredPda, deferredAt, refundDest, refundAt, _, owned, terms, read, payerIs, refundIs,
    expired, _, zeroed, zero, drain⟩ := success
  exact .of_zero_drain (book_of_other_tag (readDeferredTerms_not_entry read)) zero drain

theorem processExecuteDeferred_spares (success : processExecuteDeferred dep fr accounts data m = .ok m') :
    Spares dep m m' := by
  simp only [processExecuteDeferred, Except.bind_eq_ok, Except.ensure_eq_ok, exists_const,
    accountAt_eq_ok] at success
  obtain ⟨_, payer, _, walletPda, walletAt, vaultPda, _, deferredPda, deferredAt, refundDest, refundAt, _,
    _, _, _, _, deferredChecked, _, _, _, parsed,
    _, _, accountsHash, _, _, _, zeroed, zero, executed, loop, drain⟩ := success
  have before : book dep m.ledger deferredPda.key = none :=
    book_of_other_tag (not_isProtocolTag (isRecordTag_deferred deferredChecked))
  have executedSpares := (Spares.of_zero before zero).trans (.of_foreign (executeInner_foldlM_foreign loop))
  exact executedSpares.trans (.of_drain (by rw [executedSpares.book, before]) drain)

/-- The inner instructions belong to other programs, and the policy's totals stand in a record. -/
theorem execute_tail_spares {policy : Option PolicyLocation} {authorityPda : AccountInfo} {vault payer : Pubkey}
    {session : Option Pubkey} {ixs : List CompactInstruction} {progress : CpiProgress}
    {start : CpiProgress} {before : BeforeCpis} {slot : ℕ}
    (owned : start.machine.owner authorityPda.key = dep.programId)
    (tag : isRecordTag ((start.machine.data authorityPda.key).byte 0) = true)
    (located : ∀ loc ∈ policy, PolicyLocation.of (start.machine.data authorityPda.key) = some loc ∧
      loc.isPresent (start.machine.data authorityPda.key) = true)
    (loop : ixs.foldlM (executeTracked dep fr accounts payer vault session) start = .ok progress)
    (tail : (match policy with
      | some loc => do
        let bytes ← postCpiPhase before progress.machine.ledger accounts vault
          (progress.machine.data authorityPda.key) loc progress.grossOut slot
        progress.machine.writeData dep.toRuntime authorityPda bytes
      | none => .ok progress.machine) = .ok m') : Spares dep start.machine m' := by
  have foreign := executeTracked_foldlM_foreign loop
  obtain ⟨_, kept, _⟩ := foreign.owned owned
  cases policy with
  | none =>
    cases tail
    exact .of_foreign foreign
  | some loc =>
    simp only [Except.bind_eq_ok] at tail
    obtain ⟨bytes, phase, store⟩ := tail
    rw [kept] at phase
    obtain ⟨found, present⟩ := located loc rfl
    have step := postCpi_policyStep found present phase
    refine (Spares.of_foreign foreign).trans (.of_rewritten (.of_writeData store) ?_ ?_)
    · rw [kept, step.kept.2]
    · rw [kept]
      exact not_isProtocolTag tag

theorem processExecute_spares (success : processExecute dep fr accounts data m = .ok m') : Spares dep m m' := by
  simp only [processExecute, Except.bind_eq_ok, Except.ensure_eq_ok, exists_const, accountAt_eq_ok] at success
  obtain ⟨_, payer, _, _, walletPda, walletAt, authorityPda, authorityAt, vaultPda, _, ⟨walletOwned, authorityOwned⟩,
    _, walletChecked, _, _, parsed, parse, ⟨approvedBy, session⟩, authentication, _, _, _, progress, loop, tail⟩ :=
      success
  simp only [authenticateExecute] at authentication
  split at authentication
  · simp only [Except.bind_eq_ok] at authentication
    obtain ⟨_, authentication, same⟩ := authentication
    cases Except.ok.inj same
    obtain ⟨authPayload, signedPayload, new, approval, auth, _⟩ :=
      authenticateExecuteAuthority_eq_ok walletAt authorityAt authorityOwned authentication
    have data_eq : approvedBy.data authorityPda.key = new := auth.stored.data_self
    have step := auth.acting.step
    refine (Spares.of_rewritten auth.stored (step.byte_eq (.inl (by decide)))
      (authority_not_entry auth.acting.checked)).trans (execute_tail_spares ?_ ?_ ?_ loop tail)
    · rw [auth.stored.owner, authorityOwned]
    · rw [data_eq]
      exact isRecordTag_authority (step.check_eq auth.acting.checked)
    · rw [data_eq]
      exact policy_located step.length_eq (step.byte_eq (.inl (by decide))) (step.byte_eq (.inl (by decide)))
  · split at authentication
    · next tag =>
      simp only [Except.bind_eq_ok, authenticateExecuteSession, Except.ensure_eq_ok, exists_const] at authentication
      obtain ⟨_, ⟨_, _, _, _, _, key⟩, same⟩ := authentication
      cases Except.ok.inj same
      cases Except.ok.inj key
      refine (Spares.of_approve _).trans
        (execute_tail_spares (by exact authorityOwned) ?_ (by exact policy_located rfl rfl rfl) loop tail)
      change isRecordTag ((m.data authorityPda.key).byte 0) = true
      rw [tag]
      rfl
    · cases authentication

private theorem closeProgramAccount_spares {account refundDest : AccountInfo}
    (before : book dep m.ledger account.key = none)
    (success : closeProgramAccount dep m account refundDest = .ok m') : Spares dep m m' := by
  simp only [closeProgramAccount, Except.bind_eq_ok, Except.ensure_eq_ok, exists_const] at success
  obtain ⟨_, drained, drain, zero⟩ := success
  exact .of_drain_zero before drain zero

theorem processMigrateWallet_spares (success : processMigrateWallet dep fr accounts data m = .ok m') :
    Spares dep m m' := by
  simp only [processMigrateWallet, Except.bind_eq_ok, Except.ensure_eq_ok, exists_const,
    accountAt_eq_ok] at success
  obtain ⟨_, payer, _, v1Wallet, walletAt, v1Authority, authorityAt, v1Vault, _, destination, destinationAt, refundDest,
    refundAt, systemProgram, _, _, _, _, _, _, _, _, walletTag, _, authorityTag, _,
    _, sources, listed, approvedBy,
    authentication, _, moved, tokens, paid, payment, _, closedAuthority, closeAuthority, closeWallet⟩ := success
  have authorityOther : isProtocolTag ((m.data v1Authority.key).byte 0) = false := by
    rw [authorityTag]
    rfl
  have walletNone : book dep m.ledger v1Wallet.key = none := by
    apply book_of_other_tag
    rw [Bytes.byte, List.getD_eq_getElem?_getD, ← List.head?_eq_getElem?, walletTag]
    rfl
  have foreign : Foreign dep approvedBy paid :=
    (Except.foldlM_preserves (Foreign.refl dep) (fun _ _ _ => Foreign.trans)
      (fun _ _ _ _ => migrateToken_foreign) tokens).trans (invoke_if_foreign payment)
  have paidSpares := (Spares.of_authenticate authorityOther rfl authentication).trans (.of_foreign foreign)
  have firstSpares := paidSpares.trans
    (closeProgramAccount_spares (by rw [paidSpares.book, book_of_other_tag authorityOther]) closeAuthority)
  exact firstSpares.trans (closeProgramAccount_spares (by rw [firstSpares.book, walletNone]) closeWallet)

end LazorKit
