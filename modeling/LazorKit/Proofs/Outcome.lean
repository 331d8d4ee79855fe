import LazorKit.Proofs.SignedArguments

/-! # The ledger after a signed instruction

For the instructions that run no inner instruction of a user's choosing, the ledger afterwards is a
function of the ledger before, the slot, the arguments and the three keys the signature names: payer,
wallet and authority. `Outcome` writes it down as the processor computes it, without the checks.
-/

namespace LazorKit

open Solana

/-- Replace one account's data. -/
def storeAt (ledger : Ledger) (key : Pubkey) (bytes : Bytes) : Ledger :=
  ledger.set key { ledger key with data := bytes }

/-- Replace one account's balance. -/
def holdAt (ledger : Ledger) (key : Pubkey) (lamports : ℕ) : Ledger :=
  ledger.set key { ledger key with lamports := lamports }

/-- Move lamports from one account to another. -/
def transferTo (ledger : Ledger) (source target : Pubkey) (amount : ℕ) : Ledger :=
  let debited := holdAt ledger source ((ledger source).lamports - amount)
  holdAt debited target ((debited target).lamports + amount)

/-- An account of the given size at `target`, owned by this program, its rent paid by `payer`. -/
def createAt (dep : Deployment) (ledger : Ledger) (payer target : Pubkey) (space : ℕ) : Ledger :=
  let rent := dep.rent.minimumBalance space
  let paid := if (ledger target).lamports < rent then
    transferTo ledger payer target (rent - (ledger target).lamports) else ledger
  let allocated := storeAt paid target (List.replicate space 0)
  allocated.set target { allocated target with owner := dep.programId }

/-- Move everything an account holds to the refund destination. -/
def drainTo (ledger : Ledger) (closed refund : Pubkey) : Ledger :=
  holdAt (holdAt ledger refund ((ledger refund).lamports + (ledger closed).lamports)) closed 0

/-- Overwrite an account's data with zeros. -/
def zeroAt (ledger : Ledger) (key : Pubkey) : Ledger :=
  storeAt ledger key (List.replicate (ledger key).data.length 0)

/-- The authority's bytes after it approved: a passkey's counter is one further. -/
def advanceCounter (bytes : Bytes) : Bytes :=
  if (AuthorityAccountHeader.read bytes).authorityType = 1 then
    AuthorityAccountHeader.write bytes
      { AuthorityAccountHeader.read bytes with counter := (AuthorityAccountHeader.read bytes).counter + 1 }
  else bytes

/-- The ledger after the authority approved. -/
def authenticateAt (ledger : Ledger) (authority : Pubkey) : Ledger :=
  storeAt ledger authority (advanceCounter (ledger authority).data)

section Effects

variable {dep : Deployment} {fr : Frame} {accounts : List AccountInfo} {m m' : Machine Approval}

private theorem writeData_ledger {acc : AccountInfo} {bytes : Bytes}
    (success : m.writeData dep.toRuntime acc bytes = .ok m') : m'.ledger = storeAt m.ledger acc.key bytes := by
  rw [(Machine.writeData_eq_ok success).1]
  rfl

theorem Stored.ledger {key : Pubkey} {bytes : Bytes} (stored : Stored m m' key bytes) :
    m'.ledger = storeAt m.ledger key bytes := by
  funext other
  rw [storeAt, Ledger.set_apply]
  have data : (m'.ledger other).data = _ := stored.data other
  split
  · next same =>
    subst same
    rw [if_pos rfl] at data
    exact Account.ext (stored.lamports other) (stored.owner other) data
  · next distinct =>
    rw [if_neg distinct] at data
    exact Account.ext (stored.lamports other) (stored.owner other) data

private theorem zeroData_ledger {acc : AccountInfo} (success : zeroData dep m acc = .ok m') :
    m'.ledger = zeroAt m.ledger acc.key := writeData_ledger success

private theorem drainInto_ledger {closed refund : AccountInfo} (success : drainInto dep m closed refund = .ok m') :
    m'.ledger = drainTo m.ledger closed.key refund.key := by
  simp only [drainInto, Except.bind_eq_ok, Except.ensure_eq_ok, exists_const] at success
  obtain ⟨_, funded, credit, debit⟩ := success
  rw [Machine.writeLamports_eq_ok debit, Machine.writeLamports_eq_ok credit]
  rfl

private theorem initializePdaAccount_ledger {payer target system : AccountInfo} {space : ℕ}
    (success : initializePdaAccount dep m payer target system space (dep.rent.minimumBalance space) = .ok m') :
    m'.ledger = createAt dep m.ledger payer.key target.key space := by
  simp only [initializePdaAccount, Except.bind_eq_ok, Except.ensure_eq_ok, exists_const] at success
  obtain ⟨_, paid, payment, allocated, allocation, assignment⟩ := success
  have payment_ledger : paid.ledger =
      if (m.ledger target.key).lamports < dep.rent.minimumBalance space then
        transferTo m.ledger payer.key target.key
          (dep.rent.minimumBalance space - (m.ledger target.key).lamports)
      else m.ledger := by
    rw [Machine.lamports] at payment
    split at payment
    · next short =>
      simp only [Machine.systemTransfer, Except.bind_eq_ok, Except.ensure_eq_ok, exists_const] at payment
      obtain ⟨_, _, _, _, _, result⟩ := payment
      cases Except.ok.inj result
      rw [if_pos short]
      rfl
    · next enough =>
      cases payment
      rw [if_neg enough]
  rw [Machine.systemAssign_eq_ok assignment, (Machine.systemAllocate_eq_ok allocation).2.2, createAt]
  simp only [Machine.ledger_setAccount, payment_ledger, storeAt]

private theorem authenticate_ledger {authority : AccountInfo} {kind discriminator : UInt8}
    {authPayload signedPayload : Bytes}
    (success : authenticate dep fr accounts m authority kind authPayload signedPayload discriminator = .ok m')
    (type : kind = (AuthorityAccountHeader.read (m.data authority.key)).authorityType) :
    m'.ledger = authenticateAt m.ledger authority.key := by
  obtain ⟨new, approval, step, stored, _⟩ := authenticate_eq_ok success type
  have bytes : new = advanceCounter (m.data authority.key) := by
    unfold advanceCounter
    cases step with
    | ed25519 other => rw [if_neg (by rw [other]; decide)]
    | secp256r1 passkey verified => rw [if_pos passkey, verified.counter]
  rw [stored.ledger, authenticateAt, bytes]
  rfl

end Effects

section Outcomes

variable (dep : Deployment) (slot : ℕ) (payer wallet authority : Pubkey) (ledger : Ledger)

/-- Where a new authority goes, with its bump. -/
def authorityAddress (idSeed : Bytes) : Pubkey × UInt8 :=
  dep.findProgramAddress [Seeds.authority, wallet.bytes, idSeed]

def afterAddAuthority (args : AddAuthorityArgs) (fixedLen : ℕ) (material : Bytes) : Ledger :=
  let address := authorityAddress dep wallet args.key.idSeed
  let created := createAt dep (authenticateAt ledger authority) payer address.1 (fixedLen + args.policy.length)
  let counted := if args.newRole = rankOwner then
      storeAt created wallet (WalletAccount.setOwnerCount (created wallet).data
        (WalletAccount.readOwnerCount (created wallet).data + 1))
    else created
  storeAt counted address.1 (((AuthorityAccountHeader.write (counted address.1).data
    (newAuthorityHeader args.authorityType args.newRole address.2 args.policy.length wallet)).splice
      AuthorityAccountHeader.size material).splice fixedLen args.policy)

def afterRemoveAuthority (target refund : Pubkey) : Ledger :=
  let approved := authenticateAt ledger authority
  let counted := if (AuthorityAccountHeader.read (approved target).data).role = rankOwner then
      storeAt approved wallet (WalletAccount.setOwnerCount (approved wallet).data
        (WalletAccount.readOwnerCount (approved wallet).data - 1))
    else approved
  zeroAt (drainTo counted target refund) target

def afterTransferOwnership (args : TransferOwnershipArgs) (refund : Pubkey) (fixedLen : ℕ) (material : Bytes) :
    Ledger :=
  let address := authorityAddress dep wallet args.key.idSeed
  let created := createAt dep (authenticateAt ledger authority) payer address.1 fixedLen
  let stored := storeAt created address.1 ((AuthorityAccountHeader.write (created address.1).data
    (newAuthorityHeader args.authType rankOwner address.2 0 wallet)).splice AuthorityAccountHeader.size material)
  zeroAt (drainTo stored authority refund) authority

def afterCreateSession (args : ParsedCreateSessionArgs) : Ledger :=
  let address := dep.findProgramAddress [Seeds.session, wallet.bytes, args.sessionKey.bytes]
  let created := createAt dep (authenticateAt ledger authority) payer address.1
    (sessionHeaderSize + args.actionsBytes.length)
  storeAt created address.1 (((created address.1).data.splice 0 (SessionAccount.toBytes
    { discriminator := AccountDiscriminator.session.toByte, bump := address.2,
      version := currentAccountVersion, padding := .fill 0, wallet := wallet,
      sessionKey := args.sessionKey, expiresAt := args.expiresAt })).splice sessionHeaderSize args.actionsBytes)

def afterAuthorize (instructionsHash accountsHash : Bytes32) (expiryOffset : ℕ) : Ledger :=
  let approved := authenticateAt ledger authority
  let address := dep.findProgramAddress [Seeds.deferred, wallet.bytes, authority.bytes,
    Bytes.ofNatLE 4 (AuthorityAccountHeader.read (approved authority).data).counter]
  let created := createAt dep approved payer address.1 DeferredExecAccount.size
  storeAt created address.1 ((created address.1).data.splice 0 (DeferredExecAccount.toBytes
    { discriminator := AccountDiscriminator.deferredExec.toByte, version := currentAccountVersion,
      bump := address.2, padding := .fill 0, instructionsHash := instructionsHash,
      accountsHash := accountsHash, wallet := wallet, authority := authority,
      payer := payer, expiresAt := slot + expiryOffset }))

def afterRevokeSession (session refund : Pubkey) : Ledger :=
  drainTo (zeroAt (authenticateAt ledger authority) session) session refund

/-- The ledger after a signed instruction other than Execute and MigrateWallet. -/
inductive Outcome : SignedArguments → Ledger → Prop
  | addAuthority {args : AddAuthorityArgs} {fixedLen : ℕ} {material : Bytes}
      (fixed : authorityFixedLen args.authorityType = some fixedLen)
      (stored : storedKeyMaterial dep args.authorityType args.key.fullAuthData = .ok material) :
      Outcome (.addAuthority args) (afterAddAuthority dep payer wallet authority ledger args fixedLen material)
  | removeAuthority (target refund : Pubkey) :
      Outcome (.removeAuthority target refund) (afterRemoveAuthority wallet authority ledger target refund)
  | transferOwnership {args : TransferOwnershipArgs} {refund : Pubkey} {fixedLen : ℕ} {material : Bytes}
      (fixed : authorityFixedLen args.authType = some fixedLen)
      (stored : storedKeyMaterial dep args.authType args.key.fullAuthData = .ok material) :
      Outcome (.transferOwnership args refund)
        (afterTransferOwnership dep payer wallet authority ledger args refund fixedLen material)
  | createSession (args : ParsedCreateSessionArgs) :
      Outcome (.createSession args) (afterCreateSession dep payer wallet authority ledger args)
  | authorize (instructionsHash accountsHash : Bytes32) (expiryOffset : ℕ) :
      Outcome (.authorize instructionsHash accountsHash expiryOffset)
        (afterAuthorize dep slot payer wallet authority ledger instructionsHash accountsHash expiryOffset)
  | revokeSession (session refund : Pubkey) :
      Outcome (.revokeSession session refund) (afterRevokeSession authority ledger session refund)

end Outcomes

theorem Outcome.unique {dep : Deployment} {slot : ℕ} {payer wallet authority : Pubkey} {ledger after after' : Ledger}
    {args : SignedArguments} (first : Outcome dep slot payer wallet authority ledger args after)
    (second : Outcome dep slot payer wallet authority ledger args after') : after = after' := by
  cases first with
  | addAuthority fixed stored =>
    cases second with
    | addAuthority fixed' stored' =>
      cases Option.some.inj (fixed.symm.trans fixed')
      cases Except.ok.inj (stored.symm.trans stored')
      rfl
  | transferOwnership fixed stored =>
    cases second with
    | transferOwnership fixed' stored' =>
      cases Option.some.inj (fixed.symm.trans fixed')
      cases Except.ok.inj (stored.symm.trans stored')
      rfl
  | removeAuthority => cases second; rfl
  | createSession => cases second; rfl
  | authorize => cases second; rfl
  | revokeSession => cases second; rfl

/-- A successful processor ran on these three keys and left this outcome. -/
def Leaves (dep : Deployment) (fr : Frame) (accounts : List AccountInfo) (data : Bytes) (discriminator : UInt8)
    (m m' : Machine Approval) : Prop :=
  ∃ payer wallet authority args payload, KeyAt accounts 0 payer ∧ KeyAt accounts 1 wallet ∧
    KeyAt accounts 2 authority ∧ signedArguments dep.toRuntime discriminator accounts data = .ok (args, payload) ∧
    Outcome dep fr.slot.toNat payer wallet authority m.ledger args m'.ledger

section Processors

variable {dep : Deployment} {fr : Frame} {accounts : List AccountInfo} {data : Bytes} {m m' : Machine Approval}

theorem keyAt_of_accountAt {i : ℕ} {acc : AccountInfo} (found : accountAt accounts i = .ok acc) :
    KeyAt accounts i acc.key := ⟨acc, accountAt_eq_ok.mp found, rfl⟩

private theorem processAddAuthority_leaves (success : processAddAuthority dep fr accounts data m = .ok m') :
    Leaves dep fr accounts data 1 m m' := by
  simp only [processAddAuthority, Except.bind_eq_ok, Except.ensure_eq_ok, exists_const, Except.ofOption_eq_ok,
    checkZeroData] at success
  obtain ⟨args, parsed, payer, payerAt, _, walletPda, walletAt, adminAuthPda, adminAt, newAuthPda, _, systemProgram,
    _, _, _, _, _, rentSysvar, _, rent, rentIs, _, _, _, _, approvedBy, authentication, _, _, _, _, address, _,
    fixedLen, fixed, made, creation, counted, counting, material, stored, store⟩ := success
  cases Rent.fromAccountInfo_eq_ok rentIs
  have approving := authenticate_ledger authentication rfl
  have creating := initializePdaAccount_ledger creation
  have count : counted.ledger = if args.newRole = rankOwner then
      storeAt made.ledger walletPda.key (WalletAccount.setOwnerCount (made.ledger walletPda.key).data
        (WalletAccount.readOwnerCount (made.ledger walletPda.key).data + 1))
      else made.ledger := by
    split at counting
    · next owner =>
      simp only [countOwner, Except.bind_eq_ok, Except.ensure_eq_ok, exists_const] at counting
      rw [if_pos owner, writeData_ledger counting.2]
      rfl
    · next other =>
      cases counting
      rw [if_neg other]
  have signs : signedArguments dep.toRuntime 1 accounts data =
      .ok (.addAuthority args, data.take args.dataPayloadLen ++ payer.key.bytes) := by
    simp only [signedArguments, Except.bind_eq_ok]
    exact ⟨_, parsed, _, payerAt, rfl⟩
  refine ⟨_, _, _, _, _, keyAt_of_accountAt payerAt, keyAt_of_accountAt walletAt, keyAt_of_accountAt adminAt, signs, ?_⟩
  rw [writeData_ledger store]
  simp only [Machine.data]
  rw [count, creating, approving, address]
  exact .addAuthority fixed stored

private theorem processRemoveAuthority_leaves (success : processRemoveAuthority dep fr accounts data m = .ok m') :
    Leaves dep fr accounts data 2 m m' := by
  simp only [processRemoveAuthority, Except.bind_eq_ok, Except.ensure_eq_ok, exists_const] at success
  obtain ⟨payer, payerAt, _, walletPda, walletAt, adminAuthPda, adminAt, targetAuthPda, targetAt, refundDest, refundAt,
    _, _, _, _, _, _, _, approvedBy, authentication, _, _, _, _, _, _, counted, counting, drained, drain,
    zero⟩ := success
  have approving := authenticate_ledger authentication rfl
  have count : counted.ledger =
      if (AuthorityAccountHeader.read (approvedBy.ledger targetAuthPda.key).data).role = rankOwner then
        storeAt approvedBy.ledger walletPda.key (WalletAccount.setOwnerCount (approvedBy.ledger walletPda.key).data
          (WalletAccount.readOwnerCount (approvedBy.ledger walletPda.key).data - 1))
      else approvedBy.ledger := by
    rw [Machine.data] at counting
    split at counting
    · next owner =>
      simp only [uncountOwner, Except.bind_eq_ok, Except.ensure_eq_ok, exists_const] at counting
      rw [if_pos owner, writeData_ledger counting.2]
      rfl
    · next other =>
      cases counting
      rw [if_neg other]
  have signs : signedArguments dep.toRuntime 2 accounts data =
      .ok (.removeAuthority targetAuthPda.key refundDest.key,
        targetAuthPda.key.bytes ++ refundDest.key.bytes) := by
    simp only [signedArguments, Except.bind_eq_ok]
    exact ⟨_, targetAt, _, refundAt, rfl⟩
  refine ⟨_, _, _, _, _, keyAt_of_accountAt payerAt, keyAt_of_accountAt walletAt, keyAt_of_accountAt adminAt, signs, ?_⟩
  rw [zeroData_ledger zero, drainInto_ledger drain, count, approving]
  exact .removeAuthority _ _

private theorem processTransferOwnership_leaves (success : processTransferOwnership dep fr accounts data m = .ok m') :
    Leaves dep fr accounts data 3 m m' := by
  simp only [processTransferOwnership, Except.bind_eq_ok, Except.ensure_eq_ok, exists_const, Except.ofOption_eq_ok,
    checkZeroData] at success
  obtain ⟨args, parsed, payer, payerAt, _, walletPda, walletAt, currentOwner, currentAt, newOwner, _, refundDest,
    refundAt, systemProgram, _, rentSysvar, _, rent, rentIs, _, _, _, _, _, _, _, _, _, _, approvedBy,
    authentication, address, _, fixedLen, fixed, made, creation, _, material, stored, written, store, drained, drain,
    zero⟩ := success
  cases Rent.fromAccountInfo_eq_ok rentIs
  have signs : signedArguments dep.toRuntime 3 accounts data =
      .ok (.transferOwnership args refundDest.key,
        data.take args.dataPayloadLen ++ payer.key.bytes ++ refundDest.key.bytes) := by
    simp only [signedArguments, Except.bind_eq_ok]
    exact ⟨_, parsed, _, payerAt, _, refundAt, rfl⟩
  refine ⟨_, _, _, _, _, keyAt_of_accountAt payerAt, keyAt_of_accountAt walletAt, keyAt_of_accountAt currentAt, signs,
    ?_⟩
  rw [zeroData_ledger zero, drainInto_ledger drain, writeData_ledger store]
  simp only [Machine.data]
  rw [initializePdaAccount_ledger creation, authenticate_ledger authentication rfl, address]
  exact .transferOwnership fixed stored

private theorem processCreateSession_leaves (success : processCreateSession dep fr accounts data m = .ok m') :
    Leaves dep fr accounts data 5 m m' := by
  simp only [processCreateSession, Except.bind_eq_ok, Except.ensure_eq_ok, exists_const, checkZeroData] at success
  obtain ⟨args, parsed, payer, payerAt, _, walletPda, walletAt, authorizerPda, authorizerAt, sessionPda, _,
    systemProgram, _, rentSysvar, _, rent, rentIs, _, _, _, _, _, _, _, _, _, _, _, approvedBy, authentication,
    address, _, made, creation, store⟩ := success
  cases Rent.fromAccountInfo_eq_ok rentIs
  have signs : signedArguments dep.toRuntime 5 accounts data =
      .ok (.createSession args, data.take args.argsEndOffset ++ payer.key.bytes) := by
    simp only [signedArguments, Except.bind_eq_ok]
    exact ⟨_, parsed, _, payerAt, rfl⟩
  refine ⟨_, _, _, _, _, keyAt_of_accountAt payerAt, keyAt_of_accountAt walletAt, keyAt_of_accountAt authorizerAt,
    signs, ?_⟩
  rw [writeData_ledger store]
  simp only [Machine.data]
  rw [initializePdaAccount_ledger creation, authenticate_ledger authentication rfl, address]
  exact .createSession args

private theorem processAuthorize_leaves (success : processAuthorize dep fr accounts data m = .ok m') :
    Leaves dep fr accounts data 6 m m' := by
  simp only [processAuthorize, Except.bind_eq_ok, Except.ensure_eq_ok, exists_const] at success
  obtain ⟨payer, payerAt, walletPda, walletAt, authorityPda, authorityAt, deferredPda, _, systemProgram, _, _, _, _,
    _, _, _, _, long, _, _, _, _, kind, _, _, approvedBy, authentication, _, address, made, creation, store⟩ := success
  have signs : signedArguments dep.toRuntime 6 accounts data =
      .ok (.authorize (readKey data 0) (readKey data 32) (data.slice 64 2).toNatLE,
        (readKey data 0).bytes ++ (readKey data 32).bytes ++ Bytes.ofNatLE 2 (data.slice 64 2).toNatLE) := by
    simp only [signedArguments, Except.bind_eq_ok, Except.ensure_eq_ok, exists_const]
    exact ⟨long, trivial⟩
  refine ⟨_, _, _, _, _, keyAt_of_accountAt payerAt, keyAt_of_accountAt walletAt, keyAt_of_accountAt authorityAt,
    signs, ?_⟩
  rw [writeData_ledger store]
  simp only [Machine.data] at address ⊢
  rw [initializePdaAccount_ledger creation, address, authenticate_ledger authentication kind.symm]
  exact .authorize _ _ _

private theorem processRevokeSession_leaves (success : processRevokeSession dep fr accounts data m = .ok m') :
    Leaves dep fr accounts data 9 m m' := by
  simp only [processRevokeSession, Except.bind_eq_ok, Except.ensure_eq_ok, exists_const] at success
  obtain ⟨payer, payerAt, walletPda, walletAt, adminAuthPda, adminAt, sessionPda, sessionAt, refundDest, refundAt, _,
    _, _, _, _, _, _, _, _, approvedBy, authentication, _, _, _, _, zeroed, zero, drain⟩ := success
  have signs : signedArguments dep.toRuntime 9 accounts data =
      .ok (.revokeSession sessionPda.key refundDest.key, sessionPda.key.bytes ++ refundDest.key.bytes) := by
    simp only [signedArguments, Except.bind_eq_ok]
    exact ⟨_, sessionAt, _, refundAt, rfl⟩
  refine ⟨_, _, _, _, _, keyAt_of_accountAt payerAt, keyAt_of_accountAt walletAt, keyAt_of_accountAt adminAt, signs,
    ?_⟩
  rw [drainInto_ledger drain, zeroData_ledger zero, authenticate_ledger authentication rfl]
  exact .revokeSession _ _

/-- The signed instructions whose outcome the signature determines. -/
theorem dispatch_leaves {discriminator : UInt8} {processorAccounts : List AccountInfo}
    (which : discriminator = 1 ∨ discriminator = 2 ∨ discriminator = 3 ∨ discriminator = 5 ∨ discriminator = 6 ∨
      discriminator = 9)
    (success : dispatch dep fr discriminator processorAccounts accounts data m = .ok m') :
    Leaves dep fr processorAccounts data discriminator m m' := by
  rcases which with rfl | rfl | rfl | rfl | rfl | rfl
  · exact processAddAuthority_leaves success
  · exact processRemoveAuthority_leaves success
  · exact processTransferOwnership_leaves success
  · exact processCreateSession_leaves success
  · exact processAuthorize_leaves success
  · exact processRevokeSession_leaves success

end Processors

end LazorKit
