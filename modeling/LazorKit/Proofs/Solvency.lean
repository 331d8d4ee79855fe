import LazorKit.Proofs.BookStep
import LazorKit.Proofs.InnerInstructions
import LazorKit.Proofs.RunRefine

/-! # Rent

An account of this program that is not blank holds at least what an account of its size must hold. Creating tops
a new account up to that minimum, a rewrite keeps the size, a withdrawal leaves a shard exactly its minimum, and
what is drained is blanked with it. The processors that issue no inner instruction are taken through together
with that fact about them.
-/

namespace LazorKit

open Solana

variable {dep : Deployment} {fr : Frame} {accounts : List AccountInfo} {data : Bytes} {key : Pubkey} {bytes : Bytes}
  {discriminator : UInt8} {m m' m'' : Machine Approval} {ledger ledger' : Ledger}

private theorem Bytes.isZero_eq_false {offset : ℕ} (set : bytes.byte offset ≠ 0) : bytes.isZero = false := by
  by_contra blank
  rw [Bool.not_eq_false] at blank
  apply set
  rw [Bytes.isZero_eq_replicate blank, Bytes.byte, List.getD_eq_getElem?_getD, List.getElem?_replicate]
  split <;> rfl

/-- A blank account may hold anything. A treasury shard is of the size that a withdrawal leaves the minimum of. -/
def Exempt (dep : Deployment) (account : Account) : Prop :=
  account.owner = dep.programId → account.data.isZero = false →
    dep.rent.minimumBalance account.data.length ≤ account.lamports ∧
      (account.data.byte 0 = AccountDiscriminator.treasuryShard.toByte → account.data.length = TreasuryShard.size)

def Solvent (dep : Deployment) (ledger : Ledger) : Prop := ∀ key, Exempt dep (ledger key)

theorem Exempt.of_isZero {account : Account} (blank : account.data.isZero = true) : Exempt dep account := by
  intro _ set
  rw [blank] at set
  cases set

private theorem Exempt.of_more {old new : Account} (owner : new.owner = old.owner) (same : new.data = old.data)
    (more : old.lamports ≤ new.lamports) (exempt : Exempt dep old) : Exempt dep new := by
  intro owned set
  rw [owner] at owned
  rw [same] at set ⊢
  obtain ⟨enough, shard⟩ := exempt owned set
  exact ⟨enough.trans more, shard⟩

/-- Other programs take nothing from an account of this one, and hand over blank ones. -/
theorem Solvent.of_respects (respects : Machine.Respects dep.toRuntime ledger ledger') (solvent : Solvent dep ledger) :
    Solvent dep ledger' := by
  intro key
  by_cases owned : (ledger key).owner = dep.programId
  · obtain ⟨owned', same, more⟩ := Machine.foreignChange_of_owned (respects key) owned
    exact (solvent key).of_more (owned'.trans owned.symm) same more
  · intro owned'
    exact Exempt.of_isZero (Machine.foreignChange_of_not_owned (respects key) owned owned') owned'

/-- The runtime only removes what holds nothing, and that is blank. -/
theorem Solvent.purge (solvent : Solvent dep ledger) : Solvent dep (ledger.set key default) := by
  intro other
  rw [Ledger.set_apply]
  split
  · exact .of_isZero rfl
  · exact solvent other

/-- A part of a processor that keeps the program solvent and issues no inner instruction. -/
structure Settles (dep : Deployment) (m m' : Machine Approval) : Prop where
  solvent : Solvent dep m.ledger → Solvent dep m'.ledger
  invoked : m'.invoked = m.invoked

namespace Settles

theorem refl (dep : Deployment) (m : Machine Approval) : Settles dep m m := ⟨id, rfl⟩

theorem trans (first : Settles dep m m') (second : Settles dep m' m'') : Settles dep m m'' :=
  ⟨second.solvent ∘ first.solvent, second.invoked.trans first.invoked⟩

/-- Balances changed, and only blank accounts have less. -/
theorem of_unmoved (unmoved : Machine.Unmoved m m')
    (more : ∀ key, (m.data key).isZero = false → m.lamports key ≤ m'.lamports key) : Settles dep m m' := by
  refine ⟨fun solvent key => ?_, unmoved.invoked⟩
  have owner : (m'.ledger key).owner = (m.ledger key).owner := unmoved.owner key
  have same : (m'.ledger key).data = (m.ledger key).data := unmoved.data key
  cases blank : (m.data key).isZero with
  | true => exact .of_isZero (by rw [same]; exact blank)
  | false => exact (solvent key).of_more owner same (more key blank)

theorem of_systemTransfer {source target : AccountInfo} {signs : Bool} {amount : ℕ}
    (success : m.systemTransfer source target signs amount = .ok m') : Settles dep m m' := by
  obtain ⟨empty, _, unmoved, more, _⟩ := Machine.systemTransfer_eq_ok success
  refine of_unmoved unmoved fun key set => more key ?_
  rintro rfl
  rw [empty] at set
  cases set

theorem of_writeLamports {acc : AccountInfo} {amount : ℕ} (more : m.lamports acc.key ≤ amount)
    (success : m.writeLamports dep.toRuntime acc amount = .ok m') : Settles dep m m' := by
  apply of_unmoved (Machine.writeLamports_unmoved success)
  intro key _
  rw [Machine.writeLamports_eq_ok success, Machine.lamports_setAccount]
  split
  · next same =>
    rw [same]
    exact more
  · exact le_refl _

/-- Draining a blank account. -/
theorem of_drainInto {closed refund : AccountInfo} (blank : (m.data closed.key).isZero = true)
    (success : drainInto dep m closed refund = .ok m') : Settles dep m m' := by
  obtain ⟨unmoved, _, more, _⟩ := drainInto_eq_ok success
  refine of_unmoved unmoved fun key set => more key ?_
  rintro rfl
  rw [blank] at set
  cases set

/-- A rewrite of the same length keeps a blank account blank, and any other one of its kind. -/
theorem of_stored (stored : Stored m m' key bytes) (invoked : m'.invoked = m.invoked)
    (length : bytes.length = (m.data key).length) (blank : (m.data key).isZero = true → bytes.isZero = true)
    (shard : bytes.byte 0 = AccountDiscriminator.treasuryShard.toByte →
      (m.data key).byte 0 = AccountDiscriminator.treasuryShard.toByte) : Settles dep m m' := by
  refine ⟨fun solvent other => ?_, invoked⟩
  have owner : (m'.ledger other).owner = (m.ledger other).owner := stored.owner other
  have lamports : (m'.ledger other).lamports = (m.ledger other).lamports := stored.lamports other
  have data : (m'.ledger other).data = if other = key then bytes else (m.ledger other).data := stored.data other
  by_cases same : other = key
  · subst same
    rw [if_pos rfl] at data
    intro owned set
    rw [owner] at owned
    rw [data] at set ⊢
    have before : (m.data other).isZero = false := by
      by_contra zero
      rw [blank (Bool.eq_true_of_not_eq_false zero)] at set
      cases set
    obtain ⟨enough, size⟩ := solvent other owned before
    rw [length, lamports]
    exact ⟨enough, size ∘ shard⟩
  · rw [if_neg same] at data
    exact (solvent other).of_more owner data lamports.ge

theorem of_zeroData {acc : AccountInfo} (success : zeroData dep m acc = .ok m') : Settles dep m m' := by
  obtain ⟨stored, _, invoked⟩ := zeroData_eq_ok success
  refine of_stored stored invoked (List.length_replicate ..) (fun _ => Bytes.isZero_replicate _) fun tag => ?_
  rw [Bytes.byte_zero_of_isZero (Bytes.isZero_replicate _)] at tag
  cases tag

theorem of_zero_drain {closed refund : AccountInfo} (zero : zeroData dep m closed = .ok m')
    (drain : drainInto dep m' closed refund = .ok m'') : Settles dep m m'' := by
  refine (of_zeroData zero).trans (of_drainInto ?_ drain)
  rw [(zeroData_eq_ok zero).1.data_self]
  exact Bytes.isZero_replicate _

/-- Between draining and zeroing the account is not exempt; afterwards it is blank. -/
theorem of_drain_zero {closed refund : AccountInfo} (drain : drainInto dep m closed refund = .ok m')
    (zero : zeroData dep m' closed = .ok m'') : Settles dep m m'' := by
  obtain ⟨unmoved, _, more, _⟩ := drainInto_eq_ok drain
  obtain ⟨stored, _, invoked⟩ := zeroData_eq_ok zero
  refine ⟨fun solvent key => ?_, invoked.trans unmoved.invoked⟩
  by_cases same : key = closed.key
  · subst same
    exact .of_isZero (by
      rw [show (m''.ledger closed.key).data = _ from stored.data_self]
      exact Bytes.isZero_replicate _)
  · apply (solvent key).of_more
    · exact (stored.owner key).trans (unmoved.owner key)
    · exact (stored.data_of_ne same).trans (unmoved.data key)
    · exact (more key same).trans (stored.lamports key).ge

/-- Authentication advances a counter at most. -/
theorem of_authStep {authPayload signedPayload new : Bytes} {approval : Approval}
    (step : AuthStep dep fr accounts key authPayload signedPayload discriminator (m.data key) new approval)
    (stored : Stored m m' key new) (invoked : m'.invoked = m.invoked) : Settles dep m m' := by
  apply of_stored stored invoked step.length_eq
  · intro blank
    cases step with
    | ed25519 => exact blank
    | secp256r1 kind =>
      have set : (m.data key).byte 1 ≠ 0 := by
        rw [show (m.data key).byte 1 = 1 from kind]
        decide
      rw [Bytes.isZero_eq_false set] at blank
      cases blank
  · rw [step.byte_eq (.inl (by decide))]
    exact id

theorem of_authenticate {authority : AccountInfo} {kind : UInt8} {authPayload signedPayload : Bytes}
    (success : authenticate dep fr accounts m authority kind authPayload signedPayload discriminator = .ok m')
    (type : kind = (AuthorityAccountHeader.read (m.data authority.key)).authorityType) : Settles dep m m' := by
  obtain ⟨_, _, step, stored, _, invoked⟩ := authenticate_eq_ok success type
  exact of_authStep step stored invoked

/-- A new account is blank until something is stored in it. -/
theorem of_creation {payer target system : AccountInfo} {space rent : ℕ}
    (creation : initializePdaAccount dep m payer target system space rent = .ok m') (positive : 0 < rent) :
    Settles dep m m' := by
  have created := initializePdaAccount_eq_ok creation positive
  refine ⟨fun solvent key => ?_, created.invoked⟩
  have owner : (m'.ledger key).owner = _ := created.owner key
  have same : (m'.ledger key).data = _ := created.data key
  by_cases at_ : key = target.key
  · rw [if_pos at_] at same
    exact .of_isZero (by rw [same]; exact Bytes.isZero_replicate _)
  · rw [if_neg at_] at owner same
    simp only [initializePdaAccount, Except.bind_eq_ok, Except.ensure_eq_ok, exists_const] at creation
    obtain ⟨_, paid, payment, allocated, allocation, assignment⟩ := creation
    obtain ⟨_, _, rfl⟩ := Machine.systemAllocate_eq_ok allocation
    have funds : m'.lamports key = paid.lamports key := by
      rw [Machine.systemAssign_eq_ok assignment, Machine.lamports_setAccount, if_neg at_, Machine.lamports_setAccount,
        if_neg at_]
    cases blank : (m.data key).isZero with
    | true => exact .of_isZero (by rw [same]; exact blank)
    | false =>
      apply (solvent key).of_more owner same
      rw [show (m'.ledger key).lamports = _ from funds]
      split at payment
      · obtain ⟨empty, _, _, more, _⟩ := Machine.systemTransfer_eq_ok payment
        apply more key
        rintro rfl
        rw [empty] at blank
        cases blank
      · cases payment
        exact le_refl _

/-- Filling in a new account that was topped up for its size. -/
theorem of_fill (space : ℕ) (stored : Stored m m' key bytes) (invoked : m'.invoked = m.invoked)
    (length : bytes.length = space) (enough : dep.rent.minimumBalance space ≤ m.lamports key)
    (shard : bytes.byte 0 = AccountDiscriminator.treasuryShard.toByte → space = TreasuryShard.size) :
    Settles dep m m' := by
  refine ⟨fun solvent other => ?_, invoked⟩
  have owner : (m'.ledger other).owner = (m.ledger other).owner := stored.owner other
  have lamports : (m'.ledger other).lamports = (m.ledger other).lamports := stored.lamports other
  have data : (m'.ledger other).data = if other = key then bytes else (m.ledger other).data := stored.data other
  by_cases same : other = key
  · subst same
    rw [if_pos rfl] at data
    intro _ _
    rw [data, lamports, length]
    exact ⟨enough, shard⟩
  · rw [if_neg same] at data
    exact (solvent other).of_more owner data lamports.ge

private theorem length_created {target : Pubkey} {space : ℕ} (created : Created dep m m' target space) :
    (m'.data target).length = space := by
  rw [created.data_self, List.length_replicate]

/-- Creating an account and filling it in at once. -/
theorem of_created_stored {payer target system : AccountInfo} {space : ℕ} {made : Machine Approval} {tag : UInt8}
    {rest : Bytes} (distinct : payer.key ≠ target.key)
    (creation : initializePdaAccount dep m payer target system space (dep.rent.minimumBalance space) = .ok made)
    (store : made.writeData dep.toRuntime target ((made.data target.key).splice 0 (tag :: rest)) = .ok m')
    (fits : (tag :: rest).length ≤ space)
    (shard : tag = AccountDiscriminator.treasuryShard.toByte → space = TreasuryShard.size) : Settles dep m m' := by
  have created := initializePdaAccount_eq_ok creation (dep.rent.minimumBalance_pos _)
  obtain ⟨stored, _, invoked⟩ := writeData_eq_ok store
  have balance := (initializePdaAccount_lamports creation distinct).2 target.key
  rw [if_pos rfl] at balance
  refine (of_creation creation (dep.rent.minimumBalance_pos _)).trans (of_fill space stored invoked ?_ (by omega) shard)
  rw [Bytes.length_splice (by rw [length_created created]; omega), length_created created]

/-- Creating an authority, with other accounts settled before it is filled in. -/
theorem of_created_authority {payer target system : AccountInfo} {kind role bump : UInt8} {wallet : Pubkey}
    {material : Bytes} (policy : Bytes) {fixedLen : ℕ} {made counted : Machine Approval}
    (distinct : payer.key ≠ target.key) (width : fixedLen = AuthorityAccountHeader.size + material.length)
    (creation : initializePdaAccount dep m payer target system (fixedLen + policy.length)
      (dep.rent.minimumBalance (fixedLen + policy.length)) = .ok made)
    (between : Settles dep made counted) (kept : counted.data target.key = made.data target.key)
    (funds : counted.lamports target.key = made.lamports target.key)
    (store : counted.writeData dep.toRuntime target
      (((AuthorityAccountHeader.write (counted.data target.key)
        (newAuthorityHeader kind role bump policy.length wallet)).splice
          AuthorityAccountHeader.size material).splice fixedLen policy) = .ok m') : Settles dep m m' := by
  have created := initializePdaAccount_eq_ok creation (dep.rent.minimumBalance_pos _)
  obtain ⟨stored, _, invoked⟩ := writeData_eq_ok store
  rw [kept, created.data_self, fresh_authority_bytes _ _ _ _ _ width rfl] at stored
  have balance := (initializePdaAccount_lamports creation distinct).2 target.key
  rw [if_pos rfl] at balance
  refine ((of_creation creation (dep.rent.minimumBalance_pos _)).trans between).trans
    (of_fill (fixedLen + policy.length) stored invoked ?_ (by rw [funds]; omega) fun tag => by cases tag)
  rw [newAuthorityBytes, List.length_append, AuthorityAccountHeader.length_toBytes, List.length_append, width]
  omega

private theorem of_setOwnerCount {acc : AccountInfo} {count : ℕ}
    (checked : WalletAccount.check (m.data acc.key) = .ok ())
    (store : m.writeData dep.toRuntime acc (WalletAccount.setOwnerCount (m.data acc.key) count) = .ok m') :
    Settles dep m m' := by
  obtain ⟨stored, _, invoked⟩ := writeData_eq_ok store
  obtain ⟨fits, tag, _⟩ := WalletAccount.check_eq_ok.mp checked
  refine of_stored stored invoked (WalletAccount.length_setOwnerCount fits) (fun blank => ?_) fun shard => ?_
  · rw [Bytes.byte_zero_of_isZero blank] at tag
    cases tag
  · rwa [WalletAccount.byte_setOwnerCount fits (by decide)] at shard

private theorem of_count {role : UInt8} {walletPda : AccountInfo}
    (checked : WalletAccount.check (m.data walletPda.key) = .ok ())
    (success : (if role = rankOwner then countOwner dep m walletPda else .ok m) = .ok m') : Settles dep m m' := by
  split at success
  · simp only [countOwner, Except.bind_eq_ok, Except.ensure_eq_ok, exists_const] at success
    exact of_setOwnerCount checked success.2
  · cases success
    exact .refl dep m

private theorem of_uncount {role : UInt8} {walletPda : AccountInfo}
    (checked : WalletAccount.check (m.data walletPda.key) = .ok ())
    (success : (if role = rankOwner then uncountOwner dep m walletPda else .ok m) = .ok m') : Settles dep m m' := by
  split at success
  · simp only [uncountOwner, Except.bind_eq_ok, Except.ensure_eq_ok, exists_const] at success
    exact of_setOwnerCount checked success.2
  · cases success
    exact .refl dep m

/-- Rewriting the fixed part of an account of the protocol layer under the tag it carries. -/
theorem of_rewritten {acc : AccountInfo} {tag : UInt8} {rest : Bytes} (set : (m.data acc.key).byte 0 = tag)
    (nonzero : tag ≠ 0) (fits : (tag :: rest).length ≤ (m.data acc.key).length)
    (store : m.writeData dep.toRuntime acc ((m.data acc.key).splice 0 (tag :: rest)) = .ok m') : Settles dep m m' := by
  obtain ⟨stored, _, invoked⟩ := writeData_eq_ok store
  refine of_stored stored invoked (Bytes.length_splice (by omega)) (fun blank => ?_) fun shard => ?_
  · rw [Bytes.byte_zero_of_isZero blank] at set
    exact absurd set.symm nonzero
  · exact set.trans shard

end Settles

/-- No derived address of the program signs: a derived address has no private key, and only the program itself
can sign for it. -/
def DerivedNeverSigns (dep : Deployment) (accounts : List AccountInfo) : Prop :=
  ∀ acc ∈ accounts, acc.isSigner = true → ∀ seeds, acc.key ≠ (dep.findProgramAddress seeds).1

theorem DerivedNeverSigns.payer (unsigned : DerivedNeverSigns dep accounts) {payer : AccountInfo} {seeds : List Bytes}
    (payerAt : accounts[0]? = some payer) (signs : payer.isSigner = true)
    (address : key = (dep.findProgramAddress seeds).1) : payer.key ≠ key := by
  rw [address]
  exact unsigned payer (List.mem_of_getElem? payerAt) signs seeds

section Processors

variable (unsigned : DerivedNeverSigns dep accounts)

include unsigned in
theorem processCreateWallet_settles (success : processCreateWallet dep accounts data m = .ok m') :
    Settles dep m m' := by
  simp only [processCreateWallet, Except.bind_eq_ok, Except.ensure_eq_ok, exists_const, accountAt_eq_ok,
    Except.ofOption_eq_ok, checkZeroData] at success
  obtain ⟨_, key, parsed, payer, payerAt, signs, walletPda, _, vaultPda, _, authPda, _, systemProgram, _, rentSysvar,
    _, rent, rentIs, walletAddress, _, _, authAddress, _, walletMade, walletInit, walletWritten, walletStore,
    authSpace, fixedLen, authMade, authInit, material, stored, authStore⟩ := success
  cases Rent.fromAccountInfo_eq_ok rentIs
  have space := storedKeyMaterial_length (parseAuthorityKey_complete parsed) stored
  have width : authSpace = AuthorityAccountHeader.size + material.length :=
    Option.some.inj (fixedLen.symm.trans space)
  have wallet := Settles.of_created_stored (unsigned.payer payerAt signs walletAddress) walletInit walletStore
    (le_refl 8) fun tag => by cases tag
  apply wallet.trans
  apply Settles.of_created_authority [] (unsigned.payer payerAt signs authAddress) width authInit
    (.refl dep _) rfl rfl
  rw [Bytes.splice_nil]
  exact authStore

include unsigned in
theorem processAddAuthority_settles (success : processAddAuthority dep fr accounts data m = .ok m') :
    Settles dep m m' := by
  simp only [processAddAuthority, Except.bind_eq_ok, Except.ensure_eq_ok, exists_const, accountAt_eq_ok,
    Except.ofOption_eq_ok, checkZeroData] at success
  obtain ⟨args, parsed, payer, payerAt, signs, walletPda, walletAt, adminAuthPda, adminAt, newAuthPda, _,
    systemProgram, _, walletOwned, adminOwned, _, walletChecked, rentSysvar, _, rent, rentIs, _, adminChecked, ofWallet,
    _, approvedBy, authentication, _, _, _, _, address, _, fixedLen, fixed, made, creation, counted,
    counting, material, stored, store⟩ := success
  cases Rent.fromAccountInfo_eq_ok rentIs
  obtain ⟨new, approval, auth⟩ := authenticated_of_checks walletAt adminAt adminOwned adminChecked ofWallet rfl
    authentication
  have created := initializePdaAccount_eq_ok creation (dep.rent.minimumBalance_pos _)
  obtain ⟨countStored, _, _⟩ := countOwner_eq_ok counting
  have space := storedKeyMaterial_length (parseAuthorityKey_complete (AddAuthorityArgs.parse_eq_ok parsed).1) stored
  have width : fixedLen = AuthorityAccountHeader.size + material.length :=
    Option.some.inj (fixed.symm.trans space)
  have walletKept : approvedBy.data walletPda.key = m.data walletPda.key :=
    auth.stored.data_of_ne (wallet_ne_authority walletChecked adminChecked)
  have newNotWallet : newAuthPda.key ≠ walletPda.key := by
    intro same
    have fits := (WalletAccount.check_eq_ok.mp walletChecked).1
    rw [← walletKept, ← same, created.wasEmpty] at fits
    cases fits
  have walletMade : WalletAccount.check (made.data walletPda.key) = .ok () := by
    rwa [created.data, if_neg newNotWallet.symm, walletKept]
  exact (Settles.of_authenticate authentication rfl).trans (Settles.of_created_authority
    _ (unsigned.payer payerAt signs address) width creation (Settles.of_count walletMade counting)
    (countStored.data_of_ne newNotWallet) (countStored.lamports _) store)

theorem processRemoveAuthority_settles (success : processRemoveAuthority dep fr accounts data m = .ok m') :
    Settles dep m m' := by
  simp only [processRemoveAuthority, Except.bind_eq_ok, Except.ensure_eq_ok, exists_const,
    accountAt_eq_ok] at success
  obtain ⟨payer, _, _, walletPda, walletAt, adminAuthPda, adminAt, targetAuthPda, targetAt, refundDest, refundAt,
    ⟨walletOwned, adminOwned, targetOwned⟩, _, walletChecked, _, _, adminChecked, ofWallet, approvedBy,
    authentication, _, _, _, _, _, _, counted, counting, drained, drain, zero⟩ := success
  obtain ⟨new, approval, auth⟩ := authenticated_of_checks walletAt adminAt adminOwned adminChecked ofWallet rfl
    authentication
  have walletKept : WalletAccount.check (approvedBy.data walletPda.key) = .ok () := by
    rwa [auth.stored.data_of_ne (wallet_ne_authority walletChecked adminChecked)]
  exact (Settles.of_authenticate authentication rfl).trans
    ((Settles.of_uncount walletKept counting).trans (.of_drain_zero drain zero))

include unsigned in
theorem processTransferOwnership_settles (success : processTransferOwnership dep fr accounts data m = .ok m') :
    Settles dep m m' := by
  simp only [processTransferOwnership, Except.bind_eq_ok, Except.ensure_eq_ok, exists_const, accountAt_eq_ok,
    Except.ofOption_eq_ok, checkZeroData] at success
  obtain ⟨args, parsed, payer, payerAt, signs, walletPda, walletAt, currentOwner, currentAt, newOwner, _, refundDest,
    refundAt, systemProgram, _, rentSysvar, _, rent, rentIs, _, _, _, _, _, _, _, _, _, _, approvedBy, authentication,
    address, _, fixedLen, fixed, made, creation, _, material, stored, written, store, drained, drain, zero⟩ := success
  cases Rent.fromAccountInfo_eq_ok rentIs
  have space := storedKeyMaterial_length
    (parseNewOwnerKey_complete (TransferOwnershipArgs.parse_eq_ok parsed).1) stored
  have width : fixedLen = AuthorityAccountHeader.size + material.length :=
    Option.some.inj (fixed.symm.trans space)
  have added : Settles dep approvedBy written := by
    apply Settles.of_created_authority [] (unsigned.payer payerAt signs address) width creation
      (.refl dep _) rfl rfl
    rw [Bytes.splice_nil]
    exact store
  exact (Settles.of_authenticate authentication rfl).trans (added.trans (.of_drain_zero drain zero))

include unsigned in
theorem processCreateSession_settles (success : processCreateSession dep fr accounts data m = .ok m') :
    Settles dep m m' := by
  simp only [processCreateSession, Except.bind_eq_ok, Except.ensure_eq_ok, exists_const, accountAt_eq_ok,
    checkZeroData] at success
  obtain ⟨args, parsed, payer, payerAt, signs, walletPda, walletAt, authorizerPda, authorizerAt, sessionPda, _,
    systemProgram, _, rentSysvar, _, rent, rentIs, _, _, _, _, _, _, _, _, _, _, _, approvedBy, authentication, address,
    _, made, creation, store⟩ := success
  cases Rent.fromAccountInfo_eq_ok rentIs
  have created := initializePdaAccount_eq_ok creation (dep.rent.minimumBalance_pos _)
  obtain ⟨stored, _, invoked⟩ := writeData_eq_ok store
  rw [created.data_self, SessionAccount.write_fresh (by simp)] at stored
  have balance := (initializePdaAccount_lamports creation (unsigned.payer payerAt signs address)).2 sessionPda.key
  rw [if_pos rfl] at balance
  refine (Settles.of_authenticate authentication rfl).trans
    ((Settles.of_creation creation (dep.rent.minimumBalance_pos _)).trans
      (Settles.of_fill (sessionHeaderSize + args.actionsBytes.length) stored invoked ?_ (by omega) fun tag => by
        cases tag))
  rw [List.length_append, SessionAccount.length_toBytes]

theorem processRevokeSession_settles (success : processRevokeSession dep fr accounts data m = .ok m') :
    Settles dep m m' := by
  simp only [processRevokeSession, Except.bind_eq_ok, Except.ensure_eq_ok, exists_const, accountAt_eq_ok,
    Except.mapError_eq_ok] at success
  obtain ⟨payer, _, walletPda, _, adminAuthPda, _, sessionPda, _, refundDest, _, _, _, _, _, _, _, _, _, _, approvedBy,
    authentication, _, _, _, _, zeroed, zero, drain⟩ := success
  exact (Settles.of_authenticate authentication rfl).trans (.of_zero_drain zero drain)

theorem processCloseExpiredSession_settles (success : processCloseExpiredSession dep fr accounts m = .ok m') :
    Settles dep m m' := by
  simp only [processCloseExpiredSession, Except.bind_eq_ok, Except.ensure_eq_ok, exists_const,
    accountAt_eq_ok] at success
  obtain ⟨caller, _, sessionPda, _, refundDest, _, _, _, _, _, _, _, zeroed, zero, drain⟩ := success
  exact .of_zero_drain zero drain

theorem processReclaimDeferred_settles (success : processReclaimDeferred dep fr accounts m = .ok m') :
    Settles dep m m' := by
  simp only [processReclaimDeferred, Except.bind_eq_ok, Except.ensure_eq_ok, exists_const,
    accountAt_eq_ok] at success
  obtain ⟨payer, _, deferredPda, _, refundDest, _, _, _, terms, _, _, _, _, _, zeroed, zero, drain⟩ := success
  exact .of_zero_drain zero drain

include unsigned in
theorem processAuthorize_settles (success : processAuthorize dep fr accounts data m = .ok m') : Settles dep m m' := by
  simp only [processAuthorize, Except.bind_eq_ok, Except.ensure_eq_ok, exists_const, accountAt_eq_ok] at success
  obtain ⟨payer, payerAt, walletPda, _, authorityPda, _, deferredPda, _, systemProgram, _, _, _, signs, _, _, _, _, _,
    _, _, _, _, kind, _, _, approvedBy, authentication, _, address, made, creation, store⟩ := success
  exact (Settles.of_authenticate authentication kind.symm).trans
    (Settles.of_created_stored (unsigned.payer payerAt signs address) creation store
      (DeferredExecAccount.length_toBytes _).le fun tag => by cases tag)

private theorem ProtocolConfig.load_check {acc : AccountInfo} (success : ProtocolConfig.load dep m acc = .ok ()) :
    ProtocolConfig.check (m.data acc.key) = .ok () := by
  simp only [ProtocolConfig.load, Except.bind_eq_ok, Except.ensure_eq_ok, exists_const,
    Except.mapError_eq_ok] at success
  exact success.2.2

private theorem loadConfig_load {acc : AccountInfo} (success : loadConfig dep m acc = .ok ()) :
    ProtocolConfig.load dep m acc = .ok () := by
  simp only [loadConfig, Except.bind_eq_ok, Except.ensure_eq_ok] at success
  obtain ⟨_, loaded, _⟩ := success
  exact loaded

/-- Rewriting a loaded configuration. -/
theorem Settles.of_config {acc : AccountInfo} {config : ProtocolConfig}
    (loaded : ProtocolConfig.load dep m acc = .ok ()) (tag : config.discriminator = (m.data acc.key).byte 0)
    (store : m.writeData dep.toRuntime acc (ProtocolConfig.write (m.data acc.key) config) = .ok m') :
    Settles dep m m' := by
  obtain ⟨fits, tagged, _⟩ := ProtocolConfig.check_eq_ok.mp (ProtocolConfig.load_check loaded)
  refine Settles.of_rewritten tag.symm ?_ ?_ store
  · rw [tag, tagged]
    decide
  · exact (ProtocolConfig.length_toBytes config).trans_le fits

include unsigned in
theorem processInitializeProtocol_settles (success : processInitializeProtocol dep accounts data m = .ok m') :
    Settles dep m m' := by
  simp only [processInitializeProtocol, Except.bind_eq_ok, Except.ensure_eq_ok, exists_const, accountAt_eq_ok,
    checkZeroData] at success
  obtain ⟨_, _, _, _, payer, payerAt, configPda, _, systemProgram, _, rentSysvar, _, signs, _, address, _, rent, rentIs,
    made, creation, store⟩ := success
  cases Rent.fromAccountInfo_eq_ok rentIs
  exact .of_created_stored (unsigned.payer payerAt signs address) creation store (ProtocolConfig.length_toBytes _).le
    fun tag => by cases tag

theorem processUpdateProtocol_settles (success : processUpdateProtocol dep accounts data m = .ok m') :
    Settles dep m m' := by
  simp only [processUpdateProtocol, Except.bind_eq_ok, Except.ensure_eq_ok, exists_const,
    accountAt_eq_ok] at success
  obtain ⟨_, _, _, _, admin, _, configPda, _, _, _, loaded, _, store⟩ := success
  exact .of_config loaded rfl store

include unsigned in
theorem processRegisterIntegrator_settles (success : processRegisterIntegrator dep fr accounts m = .ok m') :
    Settles dep m m' := by
  simp only [processRegisterIntegrator, Except.bind_eq_ok, Except.ensure_eq_ok, exists_const, accountAt_eq_ok,
    checkZeroData] at success
  obtain ⟨payer, payerAt, recordPda, _, systemProgram, _, rentSysvar, _, signs, address, _, rent, rentIs, made,
    creation, store⟩ := success
  cases Rent.fromAccountInfo_eq_ok rentIs
  exact .of_created_stored (unsigned.payer payerAt signs address) creation store (FeeRecord.length_toBytes _).le
    fun tag => by cases tag

/-- A shard is left with exactly its minimum. -/
theorem Settles.of_sweep {shard : AccountInfo} (loaded : loadTreasuryShard dep m shard = .ok ())
    (debit : m.writeLamports dep.toRuntime shard (dep.rent.minimumBalance TreasuryShard.size) = .ok m') :
    Settles dep m m' := by
  have unmoved := Machine.writeLamports_unmoved debit
  refine ⟨fun solvent key => ?_, unmoved.invoked⟩
  have owner : (m'.ledger key).owner = (m.ledger key).owner := unmoved.owner key
  have same : (m'.ledger key).data = (m.ledger key).data := unmoved.data key
  by_cases at_ : key = shard.key
  · subst at_
    intro owned set
    rw [owner] at owned
    rw [same] at set ⊢
    obtain ⟨_, size⟩ := solvent shard.key owned set
    have width := size (loadTreasuryShard_tag loaded)
    rw [Machine.writeLamports_eq_ok debit, Machine.ledger_setAccount, Ledger.set_self, width]
    exact ⟨le_refl _, fun _ => rfl⟩
  · apply (solvent key).of_more owner same
    rw [Machine.writeLamports_eq_ok debit, Machine.ledger_setAccount, Ledger.set_of_ne at_]

theorem processWithdrawTreasury_settles (success : processWithdrawTreasury dep accounts m = .ok m') :
    Settles dep m m' := by
  simp only [processWithdrawTreasury, Except.bind_eq_ok, Except.ensure_eq_ok, exists_const,
    accountAt_eq_ok] at success
  obtain ⟨admin, _, configPda, _, shardPda, _, treasury, _, rentSysvar, _, _, _, loaded, _, _, _, _, shard, rent,
    rentIs, sweep⟩ := success
  cases Rent.fromAccountInfo_eq_ok rentIs
  split at sweep
  · cases sweep
    exact .refl dep m
  · simp only [Except.bind_eq_ok, Except.ensure_eq_ok, exists_const] at sweep
    obtain ⟨swept, debit, _, credit⟩ := sweep
    exact (Settles.of_sweep shard debit).trans (.of_writeLamports (Nat.le_add_right _ _) credit)

include unsigned in
theorem processInitializeTreasuryShard_settles
    (success : processInitializeTreasuryShard dep accounts data m = .ok m') : Settles dep m m' := by
  simp only [processInitializeTreasuryShard, Except.bind_eq_ok, Except.ensure_eq_ok, exists_const,
    accountAt_eq_ok, checkZeroData] at success
  obtain ⟨_, payer, payerAt, signs, configPda, _, admin, _, shardPda, _, systemProgram, _, rentSysvar, _, _, _, _, _,
    _, address, _, rent, rentIs, made, creation, store⟩ := success
  cases Rent.fromAccountInfo_eq_ok rentIs
  exact .of_created_stored (unsigned.payer payerAt signs address) creation store (TreasuryShard.length_toBytes _).le
    fun _ => rfl

theorem processProposeProtocolAdmin_settles (success : processProposeProtocolAdmin dep accounts data m = .ok m') :
    Settles dep m m' := by
  simp only [processProposeProtocolAdmin, Except.bind_eq_ok, Except.ensure_eq_ok, exists_const,
    accountAt_eq_ok] at success
  obtain ⟨_, admin, _, configPda, _, _, _, loaded, _, store⟩ := success
  exact .of_config (loadConfig_load loaded) rfl store

theorem processAcceptProtocolAdmin_settles (success : processAcceptProtocolAdmin dep accounts m = .ok m') :
    Settles dep m m' := by
  simp only [processAcceptProtocolAdmin, Except.bind_eq_ok, Except.ensure_eq_ok, exists_const,
    accountAt_eq_ok] at success
  obtain ⟨newAdmin, _, configPda, _, _, _, loaded, _, store⟩ := success
  exact .of_config (loadConfig_load loaded) rfl store

private theorem ensureFeeRecord_settles {payer record system : AccountInfo} {bump : UInt8}
    (distinct : payer.key ≠ record.key) (success : ensureFeeRecord dep fr m payer record system bump = .ok m') :
    Settles dep m m' ∧ FeeRecord.size ≤ (m'.data record.key).length := by
  unfold ensureFeeRecord at success
  split at success
  · simp only [Except.bind_eq_ok] at success
    obtain ⟨made, creation, store⟩ := success
    refine ⟨.of_created_stored distinct creation store (FeeRecord.length_toBytes _).le (fun tag => by cases tag), ?_⟩
    have created := initializePdaAccount_eq_ok creation (dep.rent.minimumBalance_pos _)
    rw [(writeData_eq_ok store).1.data_self, FeeRecord.write, created.data_self, splice_whole (by simp),
      FeeRecord.length_toBytes]
  · split at success
    · cases success
    · simp only [Except.bind_eq_ok, Except.mapError_eq_ok] at success
      obtain ⟨_, checked, same⟩ := success
      cases Except.ok.inj same
      exact ⟨.refl dep m, (FeeRecord.check_eq_ok.mp checked).1⟩

include unsigned in
theorem tryCollectFee_settles {rest : List AccountInfo}
    (success : tryCollectFee dep fr discriminator accounts m = .ok (m', rest)) : Settles dep m m' := by
  simp only [tryCollectFee, Except.bind_eq_ok, Except.ensure_eq_ok, exists_const, accountAt_eq_ok] at success
  obtain ⟨_, config, _, record, _, shard, _, system, _, _, _, success⟩ := success
  split at success
  · cases success
    exact .refl dep m
  · simp only [Except.bind_eq_ok, Except.ensure_eq_ok, exists_const, accountAt_eq_ok] at success
    obtain ⟨_, _, _, payer, payerAt, signs, address, recorded, ensured, paid, transfer, _, charged, store, result⟩ :=
      success
    cases Except.ok.inj result
    obtain ⟨made, fits⟩ := ensureFeeRecord_settles (unsigned.payer payerAt signs address) ensured
    obtain ⟨_, tagged⟩ := ensureFeeRecord_eq_ok ensured
    have kept := (Machine.systemTransfer_eq_ok transfer).2.2.1.data record.key
    rw [← kept] at tagged fits
    refine (made.trans (.of_systemTransfer transfer)).trans (Settles.of_rewritten ?_ ?_ ?_ store)
    · rw [FeeRecord.discriminator_charge]
      rfl
    · rw [FeeRecord.discriminator_charge, show (FeeRecord.read (paid.data record.key)).discriminator = _ from tagged]
      decide
    · exact (FeeRecord.length_toBytes _).trans_le fits

end Processors

end LazorKit
