import LazorKit.Proofs.Transition

/-! # CreateWallet, AddAuthority, RemoveAuthority and TransferOwnership refine the protocol

Each processor is taken apart into what its checks established and the stores it made; the stores
add up to one transition of the registry.
-/

namespace LazorKit

open Solana

variable {dep : Deployment} {fr : Frame} {accounts : List AccountInfo} {data : Bytes}
  {m m' : Machine Approval}

private theorem recordData_newWalletBytes (bump : UInt8) :
    recordData (newWalletBytes bump) = some (newWalletBytes bump) := recordData_of_tag rfl

private theorem recordData_newAuthorityBytes (kind role bump : UInt8) (wallet : Pubkey) (material policy : Bytes) :
    recordData (newAuthorityBytes kind role bump wallet material policy) =
      some (newAuthorityBytes kind role bump wallet material policy) := recordData_of_tag rfl

/-- Key material long enough for what is stored of it. -/
def AuthorityKey.Complete (key : AuthorityKey) (kind : UInt8) : Prop :=
  (kind = 0 → key.fullAuthData.length = 32) ∧ (kind = 1 → 66 ≤ key.fullAuthData.length)

theorem parseAuthorityKey_complete {kind : UInt8} {rest : Bytes} {key : AuthorityKey}
    (success : parseAuthorityKey kind rest = .ok key) : key.Complete kind := by
  unfold parseAuthorityKey at success
  split at success
  · simp only [Except.bind_eq_ok, Except.ensure_eq_ok, exists_const] at success
    obtain ⟨long, _, result⟩ := success
    cases Except.ok.inj result
    exact ⟨fun _ => Bytes.length_slice_of_le (by simpa using long), fun other => absurd other (by decide)⟩
  · simp only [Except.bind_eq_ok, Except.ensure_eq_ok, exists_const] at success
    obtain ⟨_, _, _, long, result⟩ := success
    cases Except.ok.inj result
    refine ⟨fun other => absurd other (by decide), fun _ => ?_⟩
    rw [Bytes.length_slice_of_le (by simpa using long)]
    omega
  · cases success

theorem parseNewOwnerKey_complete {kind : UInt8} {rest : Bytes} {key : AuthorityKey}
    (success : parseNewOwnerKey kind rest = .ok key) : key.Complete kind := by
  unfold parseNewOwnerKey at success
  split at success
  · simp only [Except.bind_eq_ok, Except.ensure_eq_ok, exists_const] at success
    obtain ⟨long, result⟩ := success
    cases Except.ok.inj result
    exact ⟨fun _ => Bytes.length_slice_of_le (by simpa using long), fun other => absurd other (by decide)⟩
  · simp only [Except.bind_eq_ok, Except.ensure_eq_ok, exists_const] at success
    obtain ⟨_, _, _, long, result⟩ := success
    cases Except.ok.inj result
    refine ⟨fun other => absurd other (by decide), fun _ => ?_⟩
    rw [Bytes.length_slice_of_le (by simpa using long)]
    omega
  · cases success

/-- What is stored of complete key material fills the fixed part of the account. -/
theorem storedKeyMaterial_length {kind : UInt8} {key : AuthorityKey} {material : Bytes}
    (complete : key.Complete kind) (stored : storedKeyMaterial dep kind key.fullAuthData = .ok material) :
    authorityFixedLen kind = some (AuthorityAccountHeader.size + material.length) := by
  unfold storedKeyMaterial at stored
  split at stored
  · cases stored
    have width : (key.fullAuthData.slice 0 32).length = 32 :=
      Bytes.length_slice_of_le (by simpa using (complete.1 rfl).ge)
    rw [width]
    rfl
  · cases stored
    have long : 66 ≤ key.fullAuthData.length := complete.2 rfl
    have first : (key.fullAuthData.slice 0 32).length = 32 := Bytes.length_slice_of_le (by omega)
    have second : (key.fullAuthData.slice 32 33).length = 33 := Bytes.length_slice_of_le (by omega)
    simp only [List.length_append, first, second, BytesN.length_bytes]
    rfl
  · cases stored

/-- The bytes an authority's creator leaves in the zeroed account. -/
theorem fresh_authority_bytes (kind role bump : UInt8) (wallet : Pubkey) (policy : Bytes) {material : Bytes}
    {fixedLen space : ℕ} (fixed : fixedLen = AuthorityAccountHeader.size + material.length)
    (total : space = fixedLen + policy.length) :
    ((AuthorityAccountHeader.write (List.replicate space 0)
        (newAuthorityHeader kind role bump policy.length wallet)).splice
      AuthorityAccountHeader.size material).splice fixedLen policy =
      newAuthorityBytes kind role bump wallet material policy := by
  subst fixed total
  exact AuthorityAccountHeader.write_fresh (by simp)

/-- What CreateWallet made: a wallet at its seed's address and its first Owner at the key's. -/
structure CreatedWallet (dep : Deployment) (data : Bytes) (m m' : Machine Approval) (wallet authority : Pubkey)
    (key : AuthorityKey) (material : Bytes) (walletBump bump : UInt8) : Prop where
  parsed : parseAuthorityKey (data.byte 32) (data.drop 40) = .ok key
  stored : storedKeyMaterial dep (data.byte 32) key.fullAuthData = .ok material
  walletAddress : wallet = (dep.findProgramAddress [Seeds.wallet, data.slice 0 32]).1
  address : authority = (dep.findProgramAddress [Seeds.authority, wallet.bytes, key.idSeed]).1
  walletFresh : registry dep m.ledger wallet = none
  authorityFresh : registry dep m.ledger authority = none
  distinct : authority ≠ wallet
  registry : registry dep m'.ledger = Function.update (Function.update (registry dep m.ledger) wallet
    (some (newWalletBytes walletBump))) authority
    (some (newAuthorityBytes (data.byte 32) rankOwner bump wallet material []))
  approved : m'.approved = m.approved
  funded : Funded dep m.ledger → Funded dep m'.ledger

theorem processCreateWallet_created (success : processCreateWallet dep accounts data m = .ok m') :
    ∃ wallet authority key material walletBump bump,
      CreatedWallet dep data m m' wallet authority key material walletBump bump := by
  simp only [processCreateWallet, Except.bind_eq_ok, Except.ensure_eq_ok, exists_const, accountAt_eq_ok,
    Except.ofOption_eq_ok, checkZeroData] at success
  obtain ⟨_, key, parsed, payer, _, _, walletPda, _, vaultPda, _, authPda, _, systemProgram, _, rentSysvar, _,
    rent, _, walletAddress, _, _, authAddress, _, walletMade, walletInit, walletWritten, walletStore,
    authSpace, fixedLen, authMade, authInit, material, stored, authStore⟩ := success
  have walletCreated := initializePdaAccount_eq_ok walletInit (rent.minimumBalance_pos _)
  have authCreated := initializePdaAccount_eq_ok authInit (rent.minimumBalance_pos _)
  obtain ⟨walletStored, walletApproved, _⟩ := writeData_eq_ok walletStore
  obtain ⟨authStored, authApproved, _⟩ := writeData_eq_ok authStore
  have space := storedKeyMaterial_length (parseAuthorityKey_complete parsed) stored
  have fixed : authSpace = AuthorityAccountHeader.size + material.length :=
    Option.some.inj (fixedLen.symm.trans space)
  rw [walletCreated.data_self, splice_whole (by simp)] at walletStored
  rw [authCreated.data_self] at authStored
  have authBytes := fresh_authority_bytes (data.byte 32) rankOwner (dep.findProgramAddress [Seeds.authority,
      (dep.findProgramAddress [Seeds.wallet, data.slice 0 32]).1.bytes, key.idSeed]).2 walletPda.key [] fixed rfl
  rw [Bytes.splice_nil] at authBytes
  rw [List.length_nil, Nat.add_zero] at authBytes
  rw [authBytes] at authStored
  have walletOwner : walletMade.owner walletPda.key = dep.programId := walletCreated.owner_self
  have distinct : authPda.key ≠ walletPda.key := by
    intro same
    have system := authCreated.wasSystem
    rw [same, walletStored.owner, walletOwner] at system
    exact dep.programId_ne_system system
  have middle : registry dep walletWritten.ledger = Function.update (registry dep m.ledger) walletPda.key
      (some (newWalletBytes (dep.findProgramAddress [Seeds.wallet, data.slice 0 32]).2)) := by
    rw [walletStored.registry walletOwner, walletCreated.registry]
    exact congrArg _ (recordData_newWalletBytes _)
  have after := authStored.registry authCreated.owner_self
  rw [authCreated.registry, recordData_newAuthorityBytes] at after
  have authFresh : registry dep m.ledger authPda.key = none := by
    have unrecorded := authCreated.wasUnrecorded
    rwa [middle, Function.update_of_ne distinct] at unrecorded
  refine ⟨walletPda.key, authPda.key, key, material, _, _, parsed, stored, walletAddress,
    by rw [authAddress, walletAddress], walletCreated.wasUnrecorded, authFresh, distinct, by rw [after, middle], ?_,
    fun funded => ?_⟩
  · rw [authApproved, authCreated.approved, walletApproved, walletCreated.approved]
  · exact authStored.funded authCreated.positive
      (authCreated.funded (walletStored.funded walletCreated.positive (walletCreated.funded funded)))

theorem processCreateWallet_refines (success : processCreateWallet dep accounts data m = .ok m') :
    Refines dep fr accounts data 0 m m' := by
  obtain ⟨wallet, authority, key, material, _, _, created⟩ := processCreateWallet_created success
  refine ⟨[], ?_, by rw [created.approved, List.append_nil], created.funded⟩
  rw [created.registry]
  exact .createWallet created.walletAddress created.walletFresh created.authorityFresh created.distinct created.address
    (storedKeyMaterial_length (parseAuthorityKey_complete created.parsed) created.stored)

theorem Stored.refl (m : Machine Approval) (key : Pubkey) : Stored m m key (m.data key) where
  data other := by
    split
    · next same => rw [same]
    · rfl
  owner _ := rfl
  lamports _ := rfl

theorem check_recount {bytes : Bytes} (checked : WalletAccount.check bytes = .ok ()) (role : UInt8) (count : ℕ) :
    WalletAccount.check (recount bytes role count) = .ok () := by
  unfold recount
  split
  · exact WalletAccount.check_setOwnerCount checked
  · exact checked

theorem byte_recount {bytes : Bytes} (checked : WalletAccount.check bytes = .ok ()) (role : UInt8) (count : ℕ) :
    (recount bytes role count).byte 0 = AccountDiscriminator.wallet.toByte :=
  (WalletAccount.check_eq_ok.mp (check_recount checked role count)).2.1

theorem countOwner_eq_ok {role : UInt8} {walletPda : AccountInfo}
    (success : (if role = rankOwner then countOwner dep m walletPda else .ok m) = .ok m') :
    Stored m m' walletPda.key (recount (m.data walletPda.key) role
        (WalletAccount.readOwnerCount (m.data walletPda.key) + 1)) ∧
      (role = rankOwner → WalletAccount.readOwnerCount (m.data walletPda.key) + 1 < 2 ^ 32) ∧
      m'.approved = m.approved := by
  unfold recount
  split at success
  · next owner =>
    simp only [countOwner, Except.bind_eq_ok, Except.ensure_eq_ok, exists_const] at success
    obtain ⟨bound, store⟩ := success
    obtain ⟨stored, approved, _⟩ := writeData_eq_ok store
    rw [if_pos owner]
    exact ⟨stored, fun _ => bound, approved⟩
  · next other =>
    cases success
    rw [if_neg other]
    exact ⟨.refl m _, fun owner => absurd owner other, rfl⟩

theorem uncountOwner_eq_ok {role : UInt8} {walletPda : AccountInfo}
    (success : (if role = rankOwner then uncountOwner dep m walletPda else .ok m) = .ok m') :
    Stored m m' walletPda.key (recount (m.data walletPda.key) role
        (WalletAccount.readOwnerCount (m.data walletPda.key) - 1)) ∧
      m'.approved = m.approved := by
  unfold recount
  split at success
  · next owner =>
    simp only [uncountOwner, Except.bind_eq_ok, Except.ensure_eq_ok, exists_const] at success
    obtain ⟨_, store⟩ := success
    obtain ⟨stored, approved, _⟩ := writeData_eq_ok store
    rw [if_pos owner]
    exact ⟨stored, approved⟩
  · next other =>
    cases success
    rw [if_neg other]
    exact ⟨.refl m _, rfl⟩

theorem AddAuthorityArgs.parse_eq_ok {args : AddAuthorityArgs} (success : AddAuthorityArgs.parse data = .ok args) :
    parseAuthorityKey args.authorityType (data.drop 8) = .ok args.key ∧
      (args.policy ≠ [] → validateActionsBuffer args.policy = .ok ()) ∧ args.policy.length ≤ maxPolicyBufferSize := by
  simp only [AddAuthorityArgs.parse, Except.bind_eq_ok, Except.ensure_eq_ok, exists_const] at success
  obtain ⟨_, key, parsedKey, parsed, policy, _, validated, result⟩ := success
  cases Except.ok.inj result
  refine ⟨parsedKey, fun present => ?_, ?_⟩
  · rwa [if_neg (by simpa using present)] at validated
  · simp only [parsePolicy, Except.bind_eq_ok, Except.ensure_eq_ok, exists_const] at policy
    obtain ⟨_, policy⟩ := policy
    split at policy
    · simp only [Except.bind_eq_ok, Except.ensure_eq_ok, exists_const] at policy
      obtain ⟨short, _, result⟩ := policy
      cases Except.ok.inj result
      rw [Bytes.length_slice]
      exact (Nat.min_le_left _ _).trans short
    · cases policy
      exact Nat.zero_le _

theorem processAddAuthority_refines (success : processAddAuthority dep fr accounts data m = .ok m') :
    Refines dep fr accounts data 1 m m' := by
  simp only [processAddAuthority, Except.bind_eq_ok, Except.ensure_eq_ok, exists_const, accountAt_eq_ok,
    Except.ofOption_eq_ok, checkZeroData] at success
  obtain ⟨args, parsed, payer, payerAt, _, walletPda, walletAt, adminAuthPda, adminAt, newAuthPda, _, systemProgram,
    _, walletOwned,
    adminOwned, _, walletChecked, rentSysvar, _, rent, _, _, adminChecked, ofWallet, _, approvedBy, authentication,
    allowed, delegateHasPolicy, othersHaveNone, unbounded, address, _, fixedLen, fixed, made, creation, counted,
    counting, material, stored, store⟩ := success
  obtain ⟨new, approval, auth⟩ := authenticated_of_checks walletAt adminAt adminOwned adminChecked ofWallet rfl
    authentication
  have created := initializePdaAccount_eq_ok creation (rent.minimumBalance_pos _)
  obtain ⟨countStored, bound, countApproved⟩ := countOwner_eq_ok counting
  obtain ⟨newStored, newApproved, _⟩ := writeData_eq_ok store
  have unrecorded := created.wasUnrecorded
  rw [auth.registry] at unrecorded
  obtain ⟨_, fresh⟩ := fresh_of_update unrecorded
  have walletLive := walletRecord_of_check walletOwned walletChecked
  have newNotWallet : newAuthPda.key ≠ walletPda.key := by
    intro same
    rw [same, walletLive.recorded] at fresh
    cases fresh
  have walletKept : made.data walletPda.key = m.data walletPda.key := by
    rw [created.data, if_neg newNotWallet.symm,
      auth.stored.data_of_ne (wallet_ne_authority walletChecked adminChecked)]
  have walletStillOwned : made.owner walletPda.key = dep.programId := by
    rw [created.owner, if_neg newNotWallet.symm, auth.stored.owner, walletOwned]
  have newZero : counted.data newAuthPda.key = List.replicate (fixedLen + args.policy.length) 0 := by
    rw [countStored.data_of_ne newNotWallet, created.data_self]
  have newOwned : counted.owner newAuthPda.key = dep.programId := by
    rw [countStored.owner, created.owner_self]
  have space := storedKeyMaterial_length (parseAuthorityKey_complete (AddAuthorityArgs.parse_eq_ok parsed).1) stored
  have width : fixedLen = AuthorityAccountHeader.size + material.length :=
    Option.some.inj (fixed.symm.trans space)
  rw [newZero, fresh_authority_bytes _ _ _ _ _ width rfl] at newStored
  rw [walletKept] at countStored bound
  have walletAfter := isRecordTag_wallet (check_recount walletChecked args.newRole
    (WalletAccount.readOwnerCount (m.data walletPda.key) + 1))
  refine ⟨[approval], ?_, ?_, fun funded => ?_⟩
  · rw [newStored.registry newOwned, countStored.registry walletStillOwned, created.registry, auth.registry,
      recordData_newAuthorityBytes, recordData_of_tag walletAfter]
    exact .addAuthority parsed walletLive auth.acting allowed (by tauto) unbounded address fresh stored space bound
      ⟨_, payerAt, rfl⟩
  · rw [newApproved, countApproved, created.approved, auth.approved]
  · have walletRecorded : registry dep made.ledger walletPda.key ≠ none := by
      rw [registry_of_tag walletStillOwned (by rw [walletKept]; exact isRecordTag_wallet walletChecked)]
      simp
    exact newStored.funded (by rw [countStored.lamports]; exact created.positive)
      (countStored.funded_of_live walletRecorded (created.funded (auth.funded funded)))

theorem processRemoveAuthority_refines (success : processRemoveAuthority dep fr accounts data m = .ok m') :
    Refines dep fr accounts data 2 m m' := by
  simp only [processRemoveAuthority, Except.bind_eq_ok, Except.ensure_eq_ok, exists_const,
    accountAt_eq_ok] at success
  obtain ⟨payer, _, _, walletPda, walletAt, adminAuthPda, adminAt, targetAuthPda, targetAt, refundDest, refundAt,
    ⟨walletOwned, adminOwned, targetOwned⟩, _, walletChecked, _, _, adminChecked, ofWallet, approvedBy,
    authentication, _, targetChecked, targetOfWallet, distinct, allowed, _, counted, counting, drained, drain,
    zero⟩ := success
  obtain ⟨new, approval, auth⟩ := authenticated_of_checks walletAt adminAt adminOwned adminChecked ofWallet rfl
    authentication
  obtain ⟨countStored, countApproved⟩ := uncountOwner_eq_ok counting
  have walletKept : approvedBy.data walletPda.key = m.data walletPda.key :=
    auth.stored.data_of_ne (wallet_ne_authority walletChecked adminChecked)
  have targetKept : approvedBy.data targetAuthPda.key = m.data targetAuthPda.key :=
    auth.stored.data_of_ne distinct.symm
  rw [targetKept] at targetChecked targetOfWallet allowed countStored
  rw [walletKept] at allowed countStored
  have walletStillOwned : approvedBy.owner walletPda.key = dep.programId := by
    rw [auth.stored.owner, walletOwned]
  have targetStillOwned : counted.owner targetAuthPda.key = dep.programId := by
    rw [countStored.owner, auth.stored.owner, targetOwned]
  have closed := closed_of_drain_zero targetStillOwned drain zero
  have walletLive := walletRecord_of_check walletOwned walletChecked
  have walletAfter := isRecordTag_wallet (check_recount walletChecked
    (AuthorityAccountHeader.read (m.data targetAuthPda.key)).role
    (WalletAccount.readOwnerCount (m.data walletPda.key) - 1))
  refine ⟨[approval], ?_, ?_, fun funded => ?_⟩
  · rw [closed.registry, countStored.registry walletStillOwned, auth.registry, recordData_of_tag walletAfter]
    exact .removeAuthority walletLive auth.acting
      (registry_of_tag targetOwned (isRecordTag_authority targetChecked)) targetChecked targetOfWallet distinct
      allowed ⟨_, targetAt, rfl⟩ ⟨_, refundAt, rfl⟩
  · rw [closed.approved, countApproved, auth.approved]
  · have walletRecorded : registry dep approvedBy.ledger walletPda.key ≠ none := by
      rw [registry_of_tag walletStillOwned (by rw [walletKept]; exact isRecordTag_wallet walletChecked)]
      simp
    exact closed.funded (countStored.funded_of_live walletRecorded (auth.funded funded))

theorem TransferOwnershipArgs.parse_eq_ok {args : TransferOwnershipArgs}
    (success : TransferOwnershipArgs.parse data = .ok args) :
    parseNewOwnerKey args.authType (data.drop 1) = .ok args.key ∧ args.dataPayloadLen ≤ data.length := by
  simp only [TransferOwnershipArgs.parse, Except.bind_eq_ok, Except.ensure_eq_ok, exists_const] at success
  obtain ⟨_, key, parsedKey, _, fits, result⟩ := success
  cases Except.ok.inj result
  exact ⟨parsedKey, fits⟩

theorem processTransferOwnership_refines (success : processTransferOwnership dep fr accounts data m = .ok m') :
    Refines dep fr accounts data 3 m m' := by
  simp only [processTransferOwnership, Except.bind_eq_ok, Except.ensure_eq_ok, exists_const, accountAt_eq_ok,
    Except.ofOption_eq_ok, checkZeroData] at success
  obtain ⟨args, parsed, payer, payerAt, _, walletPda, walletAt, currentOwner, currentAt, newOwner, _, refundDest,
    refundAt, systemProgram, _,
    rentSysvar, _, rent, _, ⟨walletOwned, currentOwned⟩, _, _, walletChecked, _, _, currentChecked, ofWallet,
    owner, unbounded, approvedBy, authentication, address, _, fixedLen, fixed, made, creation, _, material, stored,
    written, store, drained, drain, zero⟩ := success
  obtain ⟨new, approval, auth⟩ := authenticated_of_checks walletAt currentAt currentOwned currentChecked ofWallet
    rfl authentication
  have created := initializePdaAccount_eq_ok creation (rent.minimumBalance_pos _)
  obtain ⟨newStored, newApproved, _⟩ := writeData_eq_ok store
  have unrecorded := created.wasUnrecorded
  rw [auth.registry] at unrecorded
  obtain ⟨newNotCurrent, fresh⟩ := fresh_of_update unrecorded
  have currentStillOwned : written.owner currentOwner.key = dep.programId := by
    rw [newStored.owner, created.owner, if_neg newNotCurrent.symm, auth.stored.owner, currentOwned]
  have closed := closed_of_drain_zero currentStillOwned drain zero
  have space := storedKeyMaterial_length
    (parseNewOwnerKey_complete (TransferOwnershipArgs.parse_eq_ok parsed).1) stored
  have width : fixedLen = AuthorityAccountHeader.size + material.length :=
    Option.some.inj (fixed.symm.trans space)
  have bytes := fresh_authority_bytes args.authType rankOwner
    (dep.findProgramAddress [Seeds.authority, walletPda.key.bytes, args.key.idSeed]).2 walletPda.key [] width rfl
  rw [Bytes.splice_nil, List.length_nil, Nat.add_zero] at bytes
  rw [created.data_self, bytes] at newStored
  refine ⟨[approval], ?_, ?_, fun funded => ?_⟩
  · rw [closed.registry, newStored.registry created.owner_self, created.registry, auth.registry,
      recordData_newAuthorityBytes, Function.update_comm newNotCurrent, Function.update_idem,
      Function.update_comm newNotCurrent.symm]
    exact .transferOwnership parsed (walletRecord_of_check walletOwned walletChecked) auth.acting owner unbounded
      address fresh stored space ⟨_, payerAt, rfl⟩ ⟨_, refundAt, rfl⟩
  · rw [closed.approved, newApproved, created.approved, auth.approved]
  · exact closed.funded (newStored.funded created.positive (created.funded (auth.funded funded)))

end LazorKit
