import LazorKit.Model.Entrypoint
import LazorKit.Proofs.Authentication

/-! # The protocol as a transition system

The registry is the protocol's state. `Transition` lists every way a successful instruction can
change it, with all the guards the change passed; nothing else about an instruction matters to who
may do what with a wallet. The processors are shown to refine it in the modules that follow, and
every invariant is then proved by cases on it.
-/

namespace LazorKit

open Solana

/-- A live wallet. -/
structure WalletRecord (reg : Registry) (wallet : Pubkey) (bytes : Bytes) : Prop where
  recorded : reg wallet = some bytes
  checked : WalletAccount.check bytes = .ok ()

/-- The key of the account at a position. -/
def KeyAt (accounts : List AccountInfo) (i : ℕ) (key : Pubkey) : Prop :=
  ∃ acc, accounts[i]? = some acc ∧ acc.key = key

theorem KeyAt.unique {accounts : List AccountInfo} {i : ℕ} {first second : Pubkey} (one : KeyAt accounts i first)
    (two : KeyAt accounts i second) : first = second := by
  obtain ⟨a, atA, rfl⟩ := one
  obtain ⟨b, atB, rfl⟩ := two
  rw [Option.some.inj (atA.symm.trans atB)]

/-- A live authority of the wallet that approved the instruction; its bytes went from `old` to `new`. -/
structure Acting (dep : Deployment) (fr : Frame) (accounts : List AccountInfo) (reg : Registry)
    (wallet authority : Pubkey) (authPayload signedPayload : Bytes) (discriminator : UInt8)
    (old new : Bytes) (approval : Approval) : Prop where
  recorded : reg authority = some old
  checked : AuthorityAccountHeader.check old = .ok ()
  ofWallet : (AuthorityAccountHeader.read old).wallet = wallet
  step : AuthStep dep fr accounts authority authPayload signedPayload discriminator old new approval
  walletAt : KeyAt accounts 1 wallet
  authorityAt : KeyAt accounts 2 authority

/-- The bytes of a wallet just created. -/
def newWalletBytes (bump : UInt8) : Bytes :=
  WalletAccount.toBytes
    { discriminator := AccountDiscriminator.wallet.toByte, bump := bump,
      version := currentAccountVersion, padding := 0, ownerCount := 1 }

/-- The bytes of an authority just created. -/
def newAuthorityBytes (kind role bump : UInt8) (wallet : Pubkey) (material policy : Bytes) : Bytes :=
  (newAuthorityHeader kind role bump policy.length wallet).toBytes ++ (material ++ policy)

/-- The bytes of a session just created. -/
def newSessionBytes (bump : UInt8) (wallet : Pubkey) (args : ParsedCreateSessionArgs) : Bytes :=
  SessionAccount.toBytes
    { discriminator := AccountDiscriminator.session.toByte, bump := bump,
      version := currentAccountVersion, padding := .fill 0, wallet := wallet,
      sessionKey := args.sessionKey, expiresAt := args.expiresAt } ++ args.actionsBytes

/-- The deferred authorization an Authorize stores. -/
def newDeferred (bump : UInt8) (data : Bytes) (wallet authority payer : Pubkey) (expiresAt : ℕ) :
    DeferredExecAccount where
  discriminator := AccountDiscriminator.deferredExec.toByte
  version := currentAccountVersion
  bump := bump
  padding := .fill 0
  instructionsHash := readKey data 0
  accountsHash := readKey data 32
  wallet := wallet
  authority := authority
  payer := payer
  expiresAt := expiresAt

/-- The wallet's bytes after an Owner was added or removed. -/
def recount (bytes : Bytes) (role : UInt8) (count : ℕ) : Bytes :=
  if role = rankOwner then WalletAccount.setOwnerCount bytes count else bytes

/-- What Execute does to the bytes of a session or authority after authenticating it: nothing, or,
where they carry a policy, whatever the accepting evaluation wrote. -/
def PolicyStep (old new : Bytes) : Prop :=
  new = old ∨ ∃ loc before after gross flows slot, PolicyLocation.of old = some loc ∧
    loc.isPresent old = true ∧ evaluatePostActions old loc before after gross flows slot = (.ok (), new)

/-- One successful instruction: its discriminator, its approvals and the registry afterwards. -/
inductive Transition (dep : Deployment) (fr : Frame) (accounts : List AccountInfo) (data : Bytes)
    (reg : Registry) : UInt8 → List Approval → Registry → Prop
  /-- The protocol layer touches no record. -/
  | protocol {discriminator : UInt8} (layer : 10 ≤ discriminator ∧ discriminator ≤ 16) :
      Transition dep fr accounts data reg discriminator [] reg
  /-- Migration is approved by a v1 authority and closes v1 accounts; neither is a record. -/
  | migrate {v1Authority : Pubkey} {old new authPayload signedPayload : Bytes} {approval : Approval}
      (unrecorded : reg v1Authority = none)
      (step : AuthStep dep fr accounts v1Authority authPayload signedPayload 17 old new approval)
      (signs : ∃ destination wallet refund sources, KeyAt accounts 4 destination ∧ KeyAt accounts 1 wallet ∧
        KeyAt accounts 5 refund ∧ migrationSources accounts (data.byte 0).toNat = .ok sources ∧
        signedPayload = migrationPayload destination wallet refund (data.byte 0) sources) :
      Transition dep fr accounts data reg 17 [approval] reg
  | reclaimLegacy {deferred : Pubkey} (deferredAt : KeyAt accounts 1 deferred)
      (unrecorded : reg deferred = none) : Transition dep fr accounts data reg 8 [] reg
  | closeLegacy {session : Pubkey} (sessionAt : KeyAt accounts 1 session) (unrecorded : reg session = none) :
      Transition dep fr accounts data reg 18 [] reg
  | createWallet {wallet authority : Pubkey} {walletBump kind bump : UInt8} {userSeed idSeed material : Bytes}
      (walletAddress : wallet = (dep.findProgramAddress [Seeds.wallet, userSeed]).1)
      (walletFresh : reg wallet = none) (authorityFresh : reg authority = none)
      (distinct : authority ≠ wallet)
      (address : authority = (dep.findProgramAddress [Seeds.authority, wallet.bytes, idSeed]).1)
      (space : authorityFixedLen kind = some (AuthorityAccountHeader.size + material.length)) :
      Transition dep fr accounts data reg 0 []
        (Function.update (Function.update reg wallet (some (newWalletBytes walletBump))) authority
          (some (newAuthorityBytes kind rankOwner bump wallet material [])))
  | addAuthority {wallet admin payer key : Pubkey} {walletBytes old new material : Bytes}
      {approval : Approval} {args : AddAuthorityArgs} {bump : UInt8}
      (parsed : AddAuthorityArgs.parse data = .ok args)
      (live : WalletRecord reg wallet walletBytes)
      (acting : Acting dep fr accounts reg wallet admin (data.drop args.dataPayloadLen)
        (data.take args.dataPayloadLen ++ payer.bytes) 1 old new approval)
      (allowed : canAdd (AuthorityAccountHeader.read old).role args.newRole = true)
      (policyRule : args.newRole = rankDelegate ↔ args.policy ≠ [])
      (unbounded : (AuthorityAccountHeader.read old).policyLen = 0)
      (address : key = (dep.findProgramAddress [Seeds.authority, wallet.bytes, args.key.idSeed]).1)
      (fresh : reg key = none)
      (stored : storedKeyMaterial dep args.authorityType args.key.fullAuthData = .ok material)
      (space : authorityFixedLen args.authorityType = some (AuthorityAccountHeader.size + material.length))
      (bound : args.newRole = rankOwner → WalletAccount.readOwnerCount walletBytes + 1 < 2 ^ 32)
      (payerAt : KeyAt accounts 0 payer) :
      Transition dep fr accounts data reg 1 [approval]
        (Function.update (Function.update (Function.update reg admin (some new)) wallet
            (some (recount walletBytes args.newRole (WalletAccount.readOwnerCount walletBytes + 1)))) key
          (some (newAuthorityBytes args.authorityType args.newRole bump wallet material args.policy)))
  | removeAuthority {wallet admin target refund : Pubkey} {walletBytes old new targetBytes : Bytes}
      {approval : Approval}
      (live : WalletRecord reg wallet walletBytes)
      (acting : Acting dep fr accounts reg wallet admin data (target.bytes ++ refund.bytes) 2 old new approval)
      (recorded : reg target = some targetBytes)
      (checked : AuthorityAccountHeader.check targetBytes = .ok ())
      (ofWallet : (AuthorityAccountHeader.read targetBytes).wallet = wallet)
      (distinct : admin ≠ target)
      (allowed : canRemove (AuthorityAccountHeader.read old).role
        (AuthorityAccountHeader.read targetBytes).role (WalletAccount.readOwnerCount walletBytes) = true)
      (targetAt : KeyAt accounts 3 target) (refundAt : KeyAt accounts 4 refund) :
      Transition dep fr accounts data reg 2 [approval]
        (Function.update (Function.update (Function.update reg admin (some new)) wallet
            (some (recount walletBytes (AuthorityAccountHeader.read targetBytes).role
              (WalletAccount.readOwnerCount walletBytes - 1)))) target none)
  | transferOwnership {wallet current key payer refund : Pubkey} {walletBytes old new material : Bytes}
      {approval : Approval} {args : TransferOwnershipArgs} {bump : UInt8}
      (parsed : TransferOwnershipArgs.parse data = .ok args)
      (live : WalletRecord reg wallet walletBytes)
      (acting : Acting dep fr accounts reg wallet current (data.drop args.dataPayloadLen)
        (data.take args.dataPayloadLen ++ payer.bytes ++ refund.bytes) 3 old new approval)
      (owner : (AuthorityAccountHeader.read old).role = rankOwner)
      (unbounded : (AuthorityAccountHeader.read old).policyLen = 0)
      (address : key = (dep.findProgramAddress [Seeds.authority, wallet.bytes, args.key.idSeed]).1)
      (fresh : reg key = none)
      (stored : storedKeyMaterial dep args.authType args.key.fullAuthData = .ok material)
      (space : authorityFixedLen args.authType = some (AuthorityAccountHeader.size + material.length))
      (payerAt : KeyAt accounts 0 payer) (refundAt : KeyAt accounts 4 refund) :
      Transition dep fr accounts data reg 3 [approval]
        (Function.update (Function.update reg key
          (some (newAuthorityBytes args.authType rankOwner bump wallet material []))) current none)
  | execute {wallet authority : Pubkey} {walletBytes old middle new authPayload signedPayload : Bytes}
      {approval : Approval}
      (live : WalletRecord reg wallet walletBytes)
      (acting : Acting dep fr accounts reg wallet authority authPayload signedPayload 4 old middle approval)
      (policy : PolicyStep middle new)
      (signs : (AuthorityAccountHeader.read old).authorityType = 1 → ∃ ixs compactLen hash,
        parseCompactInstructionsRefWithLen data = .ok (ixs, compactLen) ∧
        computeAccountsHash dep.toRuntime accounts ixs = .ok hash ∧
        signedPayload = data.take compactLen ++ hash.bytes) :
      Transition dep fr accounts data reg 4 [approval] (Function.update reg authority (some new))
  | executeSession {wallet session : Pubkey} {walletBytes old new : Bytes}
      (walletAt : KeyAt accounts 1 wallet)
      (live : WalletRecord reg wallet walletBytes)
      (recorded : reg session = some old)
      (tag : old.byte 0 = AccountDiscriminator.session.toByte)
      (fits : sessionHeaderSize ≤ old.length)
      (ofWallet : (SessionAccount.read old).wallet = wallet)
      (unexpired : fr.slot.toNat ≤ (SessionAccount.read old).expiresAt)
      (signed : ∃ acc ∈ accounts, acc.isSigner = true ∧ acc.key = (SessionAccount.read old).sessionKey)
      (policy : PolicyStep old new) :
      Transition dep fr accounts data reg 4 [.session session (SessionAccount.read old).sessionKey]
        (Function.update reg session (some new))
  | createSession {wallet authorizer key payer : Pubkey} {walletBytes old new : Bytes} {approval : Approval}
      {args : ParsedCreateSessionArgs} {bump : UInt8}
      (parsed : ParsedCreateSessionArgs.fromBytes data = .ok args)
      (live : WalletRecord reg wallet walletBytes)
      (acting : Acting dep fr accounts reg wallet authorizer (data.drop args.argsEndOffset)
        (data.take args.argsEndOffset ++ payer.bytes) 5 old new approval)
      (rank : (AuthorityAccountHeader.read old).role = 0 ∨ (AuthorityAccountHeader.read old).role = 1)
      (unbounded : (AuthorityAccountHeader.read old).policyLen = 0)
      (future : fr.slot.toNat < args.expiresAt)
      (duration : args.expiresAt ≤ saturatingAdd fr.slot.toNat maxSessionSlots)
      (address : key = (dep.findProgramAddress [Seeds.session, wallet.bytes, args.sessionKey.bytes]).1)
      (fresh : reg key = none)
      (payerAt : KeyAt accounts 0 payer) :
      Transition dep fr accounts data reg 5 [approval]
        (Function.update (Function.update reg authorizer (some new)) key
          (some (newSessionBytes bump wallet args)))
  | authorize {wallet authority key payer : Pubkey} {walletBytes old new : Bytes} {approval : Approval}
      {bump : UInt8}
      (long : 66 ≤ data.length)
      (live : WalletRecord reg wallet walletBytes)
      (acting : Acting dep fr accounts reg wallet authority (data.drop 66)
        ((readKey data 0).bytes ++ (readKey data 32).bytes ++ Bytes.ofNatLE 2 (data.slice 64 2).toNatLE) 6
        old new approval)
      (kind : (AuthorityAccountHeader.read old).authorityType = 1)
      (rank : (AuthorityAccountHeader.read old).role ≤ 1)
      (unbounded : (AuthorityAccountHeader.read old).policyLen = 0)
      (window : minExpirySlots ≤ (data.slice 64 2).toNatLE ∧ (data.slice 64 2).toNatLE ≤ maxExpirySlots)
      (bound : fr.slot.toNat + (data.slice 64 2).toNatLE < 2 ^ 64)
      (address : key = (dep.findProgramAddress [Seeds.deferred, wallet.bytes, authority.bytes,
        Bytes.ofNatLE 4 (AuthorityAccountHeader.read new).counter]).1)
      (payerAt : KeyAt accounts 0 payer)
      (fresh : reg key = none) :
      Transition dep fr accounts data reg 6 [approval]
        (Function.update (Function.update reg authority (some new)) key
          (some (newDeferred bump data wallet authority payer
            (fr.slot.toNat + (data.slice 64 2).toNatLE)).toBytes))
  | executeDeferred {wallet deferred : Pubkey} {walletBytes bytes : Bytes} {ixs : List CompactInstruction}
      {compactLen : ℕ}
      (walletAt : KeyAt accounts 1 wallet)
      (live : WalletRecord reg wallet walletBytes)
      (deferredAt : KeyAt accounts 3 deferred)
      (recorded : reg deferred = some bytes)
      (checked : DeferredExecAccount.check bytes = .ok ())
      (ofWallet : (DeferredExecAccount.read bytes).wallet = wallet)
      (refundAt : KeyAt accounts 4 (DeferredExecAccount.read bytes).payer)
      (unexpired : fr.slot.toNat ≤ (DeferredExecAccount.read bytes).expiresAt)
      (parsed : parseCompactInstructionsRefWithLen data = .ok (ixs, compactLen))
      (instructions : dep.sha256 (data.take compactLen) = (DeferredExecAccount.read bytes).instructionsHash)
      (hashed : computeAccountsHash dep.toRuntime accounts ixs =
        .ok (DeferredExecAccount.read bytes).accountsHash) :
      Transition dep fr accounts data reg 7 [] (Function.update reg deferred none)
  | reclaimDeferred {deferred : Pubkey} {bytes : Bytes}
      (deferredAt : KeyAt accounts 1 deferred)
      (recorded : reg deferred = some bytes)
      (checked : DeferredExecAccount.check bytes = .ok ())
      (refundAt : KeyAt accounts 2 (DeferredExecAccount.read bytes).payer)
      (expired : (DeferredExecAccount.read bytes).expiresAt < fr.slot.toNat) :
      Transition dep fr accounts data reg 8 [] (Function.update reg deferred none)
  | revokeSession {wallet admin session refund : Pubkey} {walletBytes old new bytes : Bytes}
      {approval : Approval}
      (live : WalletRecord reg wallet walletBytes)
      (acting : Acting dep fr accounts reg wallet admin data (session.bytes ++ refund.bytes) 9 old new approval)
      (rank : (AuthorityAccountHeader.read old).role ≤ 1)
      (recorded : reg session = some bytes)
      (checked : SessionAccount.check bytes = .ok ())
      (ofWallet : (SessionAccount.read bytes).wallet = wallet)
      (sessionAt : KeyAt accounts 3 session) (refundAt : KeyAt accounts 4 refund) :
      Transition dep fr accounts data reg 9 [approval]
        (Function.update (Function.update reg admin (some new)) session none)
  | closeExpiredSession {session : Pubkey} {bytes : Bytes}
      (sessionAt : KeyAt accounts 1 session)
      (recorded : reg session = some bytes)
      (tag : bytes.byte 0 = AccountDiscriminator.session.toByte)
      (expired : (SessionAccount.read bytes).expiresAt < fr.slot.toNat) :
      Transition dep fr accounts data reg 18 [] (Function.update reg session none)

/-- A successful instruction from `m` to `m'` is a transition of the registry, records its approvals
and keeps every live record funded. -/
def Refines (dep : Deployment) (fr : Frame) (accounts : List AccountInfo) (data : Bytes)
    (discriminator : UInt8) (m m' : Machine Approval) : Prop :=
  ∃ approvals, Transition dep fr accounts data (registry dep m.ledger) discriminator approvals
      (registry dep m'.ledger) ∧
    m'.approved = m.approved ++ approvals ∧ (Funded dep m.ledger → Funded dep m'.ledger)

section Guards

variable {dep : Deployment} {fr : Frame} {accounts : List AccountInfo} {m m' : Machine Approval}

theorem isRecordTag_wallet {bytes : Bytes} (checked : WalletAccount.check bytes = .ok ()) :
    isRecordTag (bytes.byte 0) = true := by
  rw [(WalletAccount.check_eq_ok.mp checked).2.1]
  rfl

theorem isRecordTag_authority {bytes : Bytes} (checked : AuthorityAccountHeader.check bytes = .ok ()) :
    isRecordTag (bytes.byte 0) = true := by
  rw [(AuthorityAccountHeader.check_eq_ok.mp checked).2.1]
  rfl

theorem registry_of_tag {key : Pubkey} (owned : m.owner key = dep.programId)
    (tag : isRecordTag ((m.data key).byte 0) = true) : registry dep m.ledger key = some (m.data key) :=
  registry_eq_some.mpr ⟨owned, rfl, tag⟩

theorem walletRecord_of_check {key : Pubkey} (owned : m.owner key = dep.programId)
    (checked : WalletAccount.check (m.data key) = .ok ()) :
    WalletRecord (registry dep m.ledger) key (m.data key) :=
  ⟨registry_of_tag owned (isRecordTag_wallet checked), checked⟩

/-- Storing a record over a live one keeps every record funded. -/
theorem Stored.funded_of_live {key : Pubkey} {bytes : Bytes} (stored : Stored m m' key bytes)
    (live : LazorKit.registry dep m.ledger key ≠ none) (funded : Funded dep m.ledger) : Funded dep m'.ledger :=
  stored.funded (funded key live) funded

/-- An address without a record after some record was rewritten had none before. -/
theorem fresh_of_update {reg : Registry} {rewritten key : Pubkey} {bytes : Bytes}
    (fresh : Function.update reg rewritten (some bytes) key = none) : key ≠ rewritten ∧ reg key = none := by
  have other : key ≠ rewritten := by
    rintro rfl
    rw [Function.update_self] at fresh
    cases fresh
  exact ⟨other, by rwa [Function.update_of_ne other] at fresh⟩

/-- A wallet account and an authority account are different accounts. -/
theorem wallet_ne_authority {wallet authority : Pubkey} (walletChecked : WalletAccount.check (m.data wallet) = .ok ())
    (authorityChecked : AuthorityAccountHeader.check (m.data authority) = .ok ()) : wallet ≠ authority := by
  rintro rfl
  have walletTag := (WalletAccount.check_eq_ok.mp walletChecked).2.1
  rw [(AuthorityAccountHeader.check_eq_ok.mp authorityChecked).2.1] at walletTag
  exact absurd walletTag (by decide)

/-- Authenticating a checked authority account of this program, as the transitions see it. -/
structure Authenticated (dep : Deployment) (fr : Frame) (accounts : List AccountInfo) (m m' : Machine Approval)
    (wallet authority : Pubkey) (authPayload signedPayload : Bytes) (discriminator : UInt8) (new : Bytes)
    (approval : Approval) : Prop where
  acting : Acting dep fr accounts (registry dep m.ledger) wallet authority authPayload signedPayload
    discriminator (m.data authority) new approval
  stored : Stored m m' authority new
  registry : registry dep m'.ledger = Function.update (registry dep m.ledger) authority (some new)
  approved : m'.approved = m.approved ++ [approval]
  invoked : m'.invoked = m.invoked
  funded : Funded dep m.ledger → Funded dep m'.ledger

theorem authenticated_of_checks {authority wallet : AccountInfo} {kind discriminator : UInt8}
    {authPayload signedPayload : Bytes} (walletAt : accounts[1]? = some wallet)
    (authorityAt : accounts[2]? = some authority) (owned : m.owner authority.key = dep.programId)
    (checked : AuthorityAccountHeader.check (m.data authority.key) = .ok ())
    (ofWallet : (AuthorityAccountHeader.read (m.data authority.key)).wallet = wallet.key)
    (type : kind = (AuthorityAccountHeader.read (m.data authority.key)).authorityType)
    (success : authenticate dep fr accounts m authority kind authPayload signedPayload discriminator = .ok m') :
    ∃ new approval, Authenticated dep fr accounts m m' wallet.key authority.key authPayload signedPayload
      discriminator new approval := by
  obtain ⟨new, approval, step, stored, approved, invoked⟩ := authenticate_eq_ok success type
  have recorded := registry_of_tag owned (isRecordTag_authority checked)
  have tag := isRecordTag_authority (step.check_eq checked)
  refine ⟨new, approval, ⟨recorded, checked, ofWallet, step, ⟨_, walletAt, rfl⟩, ⟨_, authorityAt, rfl⟩⟩, stored, ?_,
    approved, invoked, stored.funded_of_live (by rw [recorded]; simp)⟩
  rw [stored.registry owned, recordData_of_tag tag]

end Guards

end LazorKit
