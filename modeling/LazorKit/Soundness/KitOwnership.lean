import LazorKit.Model.Kit.Ownership
import LazorKit.Soundness.Control
import LazorKit.Soundness.TypeSafety

/-! # What the kit's reading of a wallet is worth

A node follows the chain and answers each request from a state of it. The kit's requests are answered at different
times and anything may happen in between; still, a wallet it reports as controlled alone is under control of the
passkey and the trusted keys from then on. The reading of a migration's destination is held to the same, with no key
trusted.
-/

namespace LazorKit.Kit

open Solana

variable {dep : Deployment} {start ledger : Ledger} {events : List Event} {derive : Pubkey → List Bytes → Pubkey}
  {rpc : OwnershipRpc}

/-- An account of a program that holds these bytes at these offsets. -/
def Matches (ledger : Ledger) (programId : Pubkey) (filters : List (ℕ × Bytes)) (row : Pubkey × Bytes) : Prop :=
  (ledger row.1).lamports ≠ 0 ∧ (ledger row.1).owner = programId ∧ (ledger row.1).data = row.2 ∧
    ∀ filter ∈ filters, row.2.slice filter.1 filter.2.length = filter.2

instance (ledger : Ledger) (programId : Pubkey) (filters : List (ℕ × Bytes)) (row : Pubkey × Bytes) :
    Decidable (Matches ledger programId filters row) :=
  inferInstanceAs (Decidable (_ ∧ _ ∧ _ ∧ _))

/-- The node scans the state of the chain at the slot it names, which is no older than it was asked for. -/
def Follows (dep : Deployment) (start : Ledger) (events : List Event) (position : ℕ → ℕ) (rpc : OwnershipRpc) : Prop :=
  ∀ programId filters minContextSlot answer, rpc.programAccounts programId filters minContextSlot = .ok answer →
    (∀ least ∈ minContextSlot, least ≤ answer.1) ∧
      ∀ row, row ∈ answer.2 ↔ Matches (ledgerAt dep start events (position answer.1)) programId filters row

variable {wallet key : Pubkey} {data : Bytes} {offset : ℕ}

theorem byte_of_getElem? {i : ℕ} {value : UInt8} (here : data[i]? = some value) : data.byte i = value := by
  rw [Bytes.byte, List.getD_eq_getElem?_getD, here, Option.getD_some]

private theorem Matches.starts {programId : Pubkey} {tag : UInt8} {rest : Bytes} {others : List (ℕ × Bytes)}
    (row : Matches ledger programId ((0, tag :: rest) :: others) (key, data)) : data.byte 0 = tag := by
  obtain ⟨_, _, _, filters⟩ := row
  have first := filters (0, tag :: rest) List.mem_cons_self
  apply byte_of_getElem?
  have head := congrArg (·[0]?) first
  simpa [Bytes.getElem?_slice] using head

private theorem recorded_of_matches (kind : AccountDiscriminator) (tag : isRecordTag kind.toByte = true)
    (row : Matches ledger dep.programId [(0, [kind.toByte]), (offset, wallet.bytes)] (key, data)) :
    registry dep ledger key = some data ∧ data.byte 0 = kind.toByte ∧ readKey data offset = wallet := by
  have starts := row.starts
  obtain ⟨_, owned, stored, filters⟩ := row
  have second := filters (offset, wallet.bytes) (by simp)
  rw [wallet.length_bytes] at second
  refine ⟨registry_eq_some.mpr ⟨owned, stored, by rwa [starts]⟩, starts, ?_⟩
  rw [readKey, second, BytesN.ofBytes_bytes]

private theorem matches_of_recorded (kind : AccountDiscriminator) (funded : Funded dep ledger)
    (recorded : registry dep ledger key = some data)
    (tag : data.byte 0 = kind.toByte) (fits : offset + 32 ≤ data.length) (named : readKey data offset = wallet) :
    Matches ledger dep.programId [(0, [kind.toByte]), (offset, wallet.bytes)] (key, data) := by
  obtain ⟨owned, stored, _⟩ := registry_eq_some.mp recorded
  have positive := funded key (by rw [recorded]; exact Option.some_ne_none _)
  refine ⟨positive.ne', owned, stored, fun filter member => ?_⟩
  rcases List.mem_pair.mp member with rfl | rfl
  · change data.slice 0 1 = [kind.toByte]
    rw [Bytes.slice_one (by omega), tag]
  · rw [wallet.length_bytes, ← named, readKey, BytesN.bytes_ofBytes (Bytes.length_slice_of_le fits)]

variable {programId vault : Pubkey} {discs : OwnershipDiscs} {accounts : List Pubkey} {state : SpendingState}

private theorem le_foldl_max (answers : List (ℕ × List (Option Account))) (slot : ℕ) :
    slot ≤ answers.foldl (fun slot answer => max slot answer.1) slot := by
  induction answers generalizing slot with
  | nil => exact le_rfl
  | cons answer rest ih => exact (le_max_left slot answer.1).trans (ih _)

private theorem le_readAccounts {least : ℕ} {answer : ℕ × List (Option Account)}
    (read : readAccounts rpc accounts (some least) = .ok answer) : least ≤ answer.1 := by
  simp only [readAccounts, Except.bind_eq_ok] at read
  obtain ⟨answers, _, same⟩ := read
  cases Except.ok.inj same
  exact le_foldl_max answers least

/-- The slots of a reading's scans: the authorities first, everything else later, and the reading's own slot last. -/
theorem readSpendingState_eq_ok (read : readSpendingState rpc programId wallet vault discs accounts = .ok state) :
    ∃ a s d, scanWalletAccounts rpc programId wallet discs.authority 16 none = .ok (a, state.authorities) ∧
      scanWalletAccounts rpc programId wallet discs.session 8 (some a) = .ok (s, state.sessions) ∧
      scanWalletAccounts rpc programId wallet discs.deferred 72 (some a) = .ok (d, state.deferred) ∧
      s ≤ state.slot ∧ d ≤ state.slot := by
  simp only [readSpendingState, Except.bind_eq_ok] at read
  obtain ⟨⟨a, authorities⟩, scanA, ⟨s, sessions⟩, scanS, ⟨d, deferred⟩, scanD, infos, readInfos, tokens, _, same⟩ :=
    read
  cases Except.ok.inj same
  have late := le_readAccounts readInfos
  refine ⟨a, s, d, scanA, scanS, scanD, ?_, ?_⟩
  · exact (le_max_left s d).trans (late.trans (le_max_left _ _))
  · exact (le_max_right s d).trans (late.trans (le_max_left _ _))

/-- A reading of a wallet of the current version, whose first scan, the one for the authorities, was answered at a
slot. -/
structure ReadAt (rpc : OwnershipRpc) (programId wallet vault : Pubkey) (accounts : List Pubkey) (state : SpendingState)
    (first : ℕ) : Prop where
  read : readSpendingState rpc programId wallet vault (ownershipDiscs .v2) accounts = .ok state
  authorities : scanWalletAccounts rpc programId wallet AccountDiscriminator.authority.toByte 16 none =
    .ok (first, state.authorities)

/-- What a reading of a wallet of this program says of the chain, by the slots of its scans. -/
structure Listed (dep : Deployment) (start : Ledger) (events : List Event) (position : ℕ → ℕ) (wallet : Pubkey)
    (state : SpendingState) (a s d : ℕ) : Prop where
  authorities : ∀ key data, (key, data) ∈ state.authorities ↔
    registryAt dep start events (position a) key = some data ∧ AuthorityAccountHeader.check data = .ok () ∧
      (AuthorityAccountHeader.read data).wallet = wallet
  sessions : ∀ key data, registryAt dep start events (position s) key = some data →
    data.byte 0 = AccountDiscriminator.session.toByte → (SessionAccount.read data).wallet = wallet →
    (key, data) ∈ state.sessions ∧ 80 ≤ data.length
  deferred : ∀ key data, registryAt dep start events (position d) key = some data →
    DeferredExecAccount.check data = .ok () → (DeferredExecAccount.read data).wallet = wallet →
    (key, data) ∈ state.deferred ∧ 176 ≤ data.length
  sessionsLater : a ≤ s
  deferredLater : a ≤ d
  sessionsBefore : s ≤ state.slot
  deferredBefore : d ≤ state.slot

variable {position : ℕ → ℕ}

theorem listed_of_read (unwritten : Unwritten dep start) (follows : Follows dep start events position rpc)
    (read : readSpendingState rpc dep.programId wallet vault (ownershipDiscs .v2) accounts = .ok state) :
    ∃ a s d, ReadAt rpc dep.programId wallet vault accounts state a ∧
      Listed dep start events position wallet state a s d := by
  obtain ⟨a, s, d, scanA, scanS, scanD, lateS, lateD⟩ := readSpendingState_eq_ok read
  obtain ⟨_, rowsA⟩ := follows _ _ _ _ scanA
  obtain ⟨laterS, rowsS⟩ := follows _ _ _ _ scanS
  obtain ⟨laterD, rowsD⟩ := follows _ _ _ _ scanD
  have funded (i : ℕ) : Funded dep (ledgerAt dep start events i) := funded_ledgerAt events unwritten.records.funded i
  have typed {i : ℕ} (kind : AccountDiscriminator) {key : Pubkey} {data : Bytes}
      (recorded : registryAt dep start events i key = some data) (tag : data.byte 0 = kind.toByte) :
      kind.check data = .ok () := by
    obtain ⟨type, checked, _⟩ := typed_registryAt unwritten events i recorded
    have same : type = kind := AccountDiscriminator.toByte_inj ((AccountDiscriminator.check_tag checked).symm.trans tag)
    rwa [same] at checked
  refine ⟨a, s, d, ⟨read, scanA⟩, {
    authorities := fun key data => ?_
    sessions := fun key data recorded tag named => ?_
    deferred := fun key data recorded checked named => ?_
    sessionsLater := laterS a rfl
    deferredLater := laterD a rfl
    sessionsBefore := lateS
    deferredBefore := lateD }⟩
  · rw [rowsA]
    constructor
    · intro row
      obtain ⟨recorded, tag, named⟩ := recorded_of_matches .authority rfl row
      exact ⟨recorded, typed .authority recorded tag, named⟩
    · rintro ⟨recorded, checked, named⟩
      obtain ⟨fits, tag, _⟩ := AuthorityAccountHeader.check_eq_ok.mp checked
      exact matches_of_recorded .authority (funded _) recorded tag fits named
  · obtain ⟨fits, _⟩ := SessionAccount.check_eq_ok.mp (typed .session recorded tag)
    have fits : 80 ≤ data.length := fits
    refine ⟨(rowsS (key, data)).mpr ?_, fits⟩
    exact matches_of_recorded .session (funded _) recorded tag (by omega) named
  · obtain ⟨fits, tag, _⟩ := DeferredExecAccount.check_eq_ok.mp checked
    have fits : 176 ≤ data.length := fits
    refine ⟨(rowsD (key, data)).mpr ?_, fits⟩
    exact matches_of_recorded .deferredExec (funded _) recorded tag (by omega) named

variable {vouched : Pubkey → UInt8 → UInt8 → Bytes → Prop} {trusted : Pubkey → Prop} {a s d slot : ℕ}

/-- From the newest read of a reading on, and from the slot its expiries were held against: every authority of the
wallet was vouched for or made by one that was, and each Execute and ExecuteDeferred for the wallet is under their
control. -/
structure Sound (dep : Deployment) (start : Ledger) (events : List Event) (position : ℕ → ℕ)
    (vouched : Pubkey → UInt8 → UInt8 → Bytes → Prop) (trusted : Pubkey → Prop) (wallet : Pubkey)
    (a newest slot : ℕ) : Prop where
  authorities : ∀ j key, position a ≤ j → AuthorityOf dep start events wallet j key →
    InControl dep start events vouched wallet (position a) j key
  spending : ∀ j call m, position newest ≤ j → slot ≤ call.slot → SucceedsAt dep start events j call m →
    call.discriminator = 4 ∨ call.discriminator = 7 → KeyAt call.processorAccounts 1 wallet →
    UnderControl dep start events vouched trusted wallet (position a) j call

theorem sound_of_listed (genesis : Genesis dep start) (ordered : Monotone position)
    (listed : Listed dep start events position wallet state a s d) (some_ : state.authorities ≠ [])
    (authorities : ∀ key data, (key, data) ∈ state.authorities →
      vouched key (data.byte 2) (data.byte 1) (keyMaterial data))
    (sessions : ∀ key data, (key, data) ∈ state.sessions → 80 ≤ data.length →
      (data.slice 72 8).toNatLE < slot ∨ trusted (readKey data 40))
    (deferred : ∀ key data, (key, data) ∈ state.deferred → 176 ≤ data.length → (data.slice 168 8).toNatLE < slot) :
    Sound dep start events position vouched trusted wallet a state.slot slot := by
  have vouch (key : Pubkey) (here : AuthorityOf dep start events wallet (position a) key) :
      Vouched dep start events vouched wallet (position a) key := by
    obtain ⟨bytes, recorded, checked, named⟩ := authorityOf_iff.mp here
    refine ⟨_, _, _, ?_, authorities key bytes ((listed.authorities key bytes).mpr ⟨recorded, checked, named⟩)⟩
    rw [faces, recorded, face_authority checked, named]
    rfl
  have live : ∃ count, faces (registryAt dep start events (position a)) wallet = .wallet count := by
    obtain ⟨⟨key, data⟩, member⟩ := List.exists_mem_of_ne_nil _ some_
    obtain ⟨recorded, checked, named⟩ := (listed.authorities key data).mp member
    apply (consistent_ledgerAt events genesis (position a)).anchored key
    rw [faces, recorded, face_authority checked, named]
  refine ⟨fun j key low here => authority_inControl genesis live vouch low here,
    fun j call m low since success which walletAt => ?_⟩
  have mandate : Mandate dep start events j call wallet := by
    rcases which with is | is
    · exact success.mandate_execute genesis is walletAt
    · exact success.mandate_deferred genesis is walletAt
  refine mandate.underControl genesis live vouch (fun key bytes recorded tag named => ?_)
    (fun key bytes recorded checked named => ?_) (ordered listed.sessionsLater) (ordered listed.deferredLater)
    ((ordered listed.sessionsBefore).trans low) ((ordered listed.deferredBefore).trans low) since
  · obtain ⟨member, fits⟩ := listed.sessions key bytes recorded tag named
    exact sessions key bytes member fits
  · obtain ⟨member, fits⟩ := listed.deferred key bytes recorded checked named
    exact deferred key bytes member fits

/-- The passkey's own authority, of Owner rank and with its public key; or an Ed25519 authority of a trusted key. -/
def OwnOrTrusted (c : PasskeyWalletCandidate) (trustedKeys : List Pubkey) (key : Pubkey) (role kind : UInt8)
    (material : Bytes) : Prop :=
  (key = c.authorityPda ∧ role = rankOwner ∧ kind = 1 ∧ material.slice 32 33 = c.publicKey) ∨
    (kind = 0 ∧ readKey material 0 ∈ trustedKeys)

theorem slice_keyMaterial {kind : UInt8} {fixed first count : ℕ} (is : data.byte 1 = kind)
    (known : authorityFixedLen kind = some fixed) (fits : first + count ≤ fixed - AuthorityAccountHeader.size) :
    (keyMaterial data).slice first count = data.slice (AuthorityAccountHeader.size + first) count := by
  have type : (AuthorityAccountHeader.read data).authorityType = kind := is
  rw [keyMaterial, type, known, Option.getD_some, Bytes.slice_slice fits]

variable {c : PasskeyWalletCandidate} {trustedKeys mints : List Pubkey} {facts : WalletFacts}

private theorem liveSession_trusted {row : Pubkey × Bytes} (fits : 80 ≤ row.2.length)
    (all : ∀ session ∈ liveSession slot trustedKeys row, session.trusted = true) :
    (row.2.slice 72 8).toNatLE < slot ∨ readKey row.2 40 ∈ trustedKeys := by
  unfold liveSession expiryAt at all
  rw [if_pos (show 72 + 8 ≤ row.2.length from fits)] at all
  by_cases expired : (row.2.slice 72 8).toNatLE < slot
  · exact .inl expired
  · rw [if_neg expired] at all
    exact .inr (by simpa [fits] using all)

private theorem pendingDeferred_expired {row : Pubkey × Bytes} (fits : 176 ≤ row.2.length)
    (all : ∀ pending ∈ pendingDeferred slot row, pending.trusted = true) : (row.2.slice 168 8).toNatLE < slot := by
  unfold pendingDeferred expiryAt at all
  rw [if_pos (show 168 + 8 ≤ row.2.length from fits)] at all
  by_contra live
  rw [if_neg live] at all
  simp at all

private theorem otherAuthority_trusted {row : Pubkey × Bytes} {rpIdHash : Option Bytes}
    (trust : (otherAuthority rpIdHash trustedKeys row).trusted = true) :
    row.2.byte 1 = 0 ∧ readKey row.2 48 ∈ trustedKeys := by
  unfold otherAuthority at trust
  split at trust
  · next type =>
    refine ⟨byte_of_getElem? type, ?_⟩
    split at trust
    · simpa using trust
    · cases trust
  · cases trust

/-- What a report of a candidate controlled alone was computed from. -/
theorem describeCandidate_alone (described : describeCandidate derive rpc c slot trustedKeys mints = .ok (some facts))
    (alone : facts.controlledAlone = true) :
    ∃ state own, readSpendingState rpc c.programId c.walletPda c.vaultPda (ownershipDiscs c.version)
        (c.walletPda :: c.vaultPda :: watchedAtasOf derive c.vaultPda mints) = .ok state ∧
      (state.authorities.find? fun row => row.1 = c.authorityPda) = some own ∧
      own.2.byte 1 = 1 ∧ own.2.byte 2 = rankOwner ∧ own.2.slice 80 33 = c.publicKey ∧
      (∀ row ∈ state.authorities, row.1 ≠ c.authorityPda → row.2.byte 1 = 0 ∧ readKey row.2 48 ∈ trustedKeys) ∧
      (∀ row ∈ state.sessions, 80 ≤ row.2.length →
        (row.2.slice 72 8).toNatLE < slot ∨ readKey row.2 40 ∈ trustedKeys) ∧
      (∀ row ∈ state.deferred, 176 ≤ row.2.length → (row.2.slice 168 8).toNatLE < slot) ∧
      facts.signatureCount = (own.2.slice 8 4).toNatLE := by
  simp only [describeCandidate, Except.bind_eq_ok] at described
  obtain ⟨state, read, described⟩ := described
  split at described
  · have is := Option.some.inj (Except.ok.inj described)
    subst is
    simp only [Bool.and_eq_true, List.all_eq_true] at alone
    obtain ⟨⟨⟨⟨⟨intact, _⟩, others⟩, sessions⟩, deferred⟩, _⟩ := alone
    cases found : state.authorities.find? fun row => row.1 = c.authorityPda with
    | none =>
      rw [found] at intact
      cases intact
    | some own =>
      rw [found] at intact
      obtain ⟨_, type, role, publicKey⟩ := of_decide_eq_true intact
      refine ⟨state, own, read, found, byte_of_getElem? type, byte_of_getElem? role, publicKey,
        fun row member other => ?_, fun row member fits => ?_, fun row member fits => ?_, ?_⟩
      · apply otherAuthority_trusted
        apply others
        exact List.mem_map_of_mem (List.mem_filter.mpr ⟨member, by simpa using other⟩)
      · exact liveSession_trusted fits fun session is => sessions session (List.mem_filterMap.mpr ⟨row, member, is⟩)
      · exact pendingDeferred_expired fits fun pending is =>
          deferred pending (List.mem_filterMap.mpr ⟨row, member, is⟩)
      · simp only
        rw [if_pos intact]
        rfl
  · cases described

/-- A candidate reported as controlled alone, with the record of its own authority at the slot of the first scan. -/
theorem sound_of_described (unwritten : Unwritten dep start) (ordered : Monotone position)
    (follows : Follows dep start events position rpc) (version : c.version = .v2)
    (program : c.programId = dep.programId)
    (described : describeCandidate derive rpc c slot trustedKeys mints = .ok (some facts))
    (alone : facts.controlledAlone = true) :
    ∃ state a own, ReadAt rpc dep.programId c.walletPda c.vaultPda
        (c.walletPda :: c.vaultPda :: watchedAtasOf derive c.vaultPda mints) state a ∧
      registryAt dep start events (position a) c.authorityPda = some own ∧ AuthorityAccountHeader.check own = .ok () ∧
      (AuthorityAccountHeader.read own).wallet = c.walletPda ∧ own.byte 1 = 1 ∧ own.slice 80 33 = c.publicKey ∧
      facts.signatureCount = (own.slice 8 4).toNatLE ∧
      Sound dep start events position (OwnOrTrusted c trustedKeys) (· ∈ trustedKeys) c.walletPda a state.slot slot := by
  obtain ⟨state, own, read, found, type, role, publicKey, others, sessions, deferred, count⟩ :=
    describeCandidate_alone described alone
  rw [version, program] at read
  obtain ⟨a, s, d, readAt, listed⟩ := listed_of_read unwritten follows read
  have ownListed := List.mem_of_find?_eq_some found
  have ownKey : own.1 = c.authorityPda := by simpa using List.find?_some found
  obtain ⟨ownRecorded, ownChecked, ownNamed⟩ := (listed.authorities own.1 own.2).mp ownListed
  rw [ownKey] at ownRecorded
  refine ⟨state, a, own.2, readAt, ownRecorded, ownChecked, ownNamed, type, publicKey, count, ?_⟩
  apply sound_of_listed unwritten.records ordered listed (List.ne_nil_of_mem ownListed)
  · intro key data member
    by_cases isOwn : key = c.authorityPda
    · have same : data = own.2 := by
        obtain ⟨recorded, _⟩ := (listed.authorities key data).mp member
        rw [isOwn, ownRecorded] at recorded
        exact (Option.some.inj recorded).symm
      rw [same]
      refine .inl ⟨isOwn, role, type, ?_⟩
      rw [slice_keyMaterial type rfl (by decide)]
      exact publicKey
    · obtain ⟨ed25519, trust⟩ := others (key, data) member isOwn
      refine .inr ⟨ed25519, ?_⟩
      rwa [readKey, slice_keyMaterial ed25519 rfl (by decide)]
  · exact fun key data member fits => sessions (key, data) member fits
  · exact fun key data member fits => deferred (key, data) member fits

/-- A wallet the kit reports as controlled alone is, from the newest read on: whatever the node's answers were taken
between, every authority then is the passkey's own, one of a trusted key, or made by such; and each Execute and
ExecuteDeferred for the wallet is approved by such an authority, signed by a trusted session key, or goes back to a
session or an authorization that such an authority made. -/
theorem controlledAlone_sound (unwritten : Unwritten dep start) (ordered : Monotone position)
    (follows : Follows dep start events position rpc) (version : c.version = .v2)
    (program : c.programId = dep.programId)
    (described : describeCandidate derive rpc c slot trustedKeys mints = .ok (some facts))
    (alone : facts.controlledAlone = true) :
    ∃ state a, ReadAt rpc dep.programId c.walletPda c.vaultPda
        (c.walletPda :: c.vaultPda :: watchedAtasOf derive c.vaultPda mints) state a ∧
      AuthorityOf dep start events c.walletPda (position a) c.authorityPda ∧
      Sound dep start events position (OwnOrTrusted c trustedKeys) (· ∈ trustedKeys) c.walletPda a state.slot slot := by
  obtain ⟨state, a, own, readAt, recorded, checked, named, _, _, _, sound⟩ :=
    sound_of_described unwritten ordered follows version program described alone
  exact ⟨state, a, readAt, authorityOf_iff.mpr ⟨own, recorded, checked, named⟩, sound⟩

namespace Sample

open LazorKit.Sample

/-- The addresses a record of the sample can be at. -/
def addresses : List Pubkey := default :: derived.map (·.2.1)

/-- A node that stopped in front of an event and serves the records of that state. -/
def node (events : List Event) (position : ℕ) : OwnershipRpc where
  programAccounts asked filters least :=
    match filters with
    | (0, tag :: _) :: _ =>
      if asked = deployment.programId ∧ isRecordTag tag = true ∧ least.getD 0 ≤ position then
        .ok (position, (addresses.dedup.map fun key =>
          (key, (ledgerAt deployment Ledger.empty events position key).data)).filter
            (Matches (ledgerAt deployment Ledger.empty events position) asked filters))
      else .error ⟨"not served"⟩
    | _ => .error ⟨"not served"⟩
  multipleAccounts keys _ := .ok (position, keys.map fun key =>
    some (ledgerAt deployment Ledger.empty events position key))
  tokenAccountsByOwner _ _ _ := .ok (position, [])

/-- The first authority of the passkey, in front of the sample's first Execute. -/
def candidate : PasskeyWalletCandidate :=
  ⟨.v2, deployment.programId, LazorKit.Sample.wallet, LazorKit.Sample.vault, authorityA, passkey⟩

/-- The wallet's first owner is trusted, and there are no sessions and no tokens yet. -/
def report : WalletFacts where
  toPasskeyWalletCandidate := candidate
  lamports := 1000000
  slot := 1000
  otherAuthorities := [⟨owner, true, .owner, some ownerKey, none, true⟩]
  liveSessions := []
  pendingDeferred := []
  vaultIsSystemAccount := true
  tokenGrants := []
  controlledAlone := true
  signatureCount := 0

private theorem mem_addresses (seeds : List Bytes) : (deployment.findProgramAddress seeds).1 ∈ addresses := by
  change (lookup derived seeds).1 ∈ _
  unfold lookup
  cases found : derived.find? (·.1 = seeds) with
  | none => exact List.mem_cons_self
  | some entry => exact List.mem_cons_of_mem _ (List.mem_map_of_mem (List.mem_of_find?_eq_some found))

theorem follows_node (events : List Event) (position : ℕ) :
    Follows deployment Ledger.empty events id (node events position) := by
  intro asked filters least answer served
  simp only [node] at served
  split at served
  · next tag rest others =>
    split at served
    · next serves =>
      obtain ⟨isProgram, record, late⟩ := serves
      cases Except.ok.inj served
      refine ⟨fun slot is => ?_, fun row => ?_⟩
      · cases Option.mem_def.mp is
        exact late
      · rw [List.mem_filter, decide_eq_true_iff]
        apply and_iff_right_of_imp
        intro matching
        have starts : row.2.byte 0 = tag := matching.starts
        obtain ⟨_, owned, stored, _⟩ := matching
        have recorded : registryAt deployment Ledger.empty events position row.1 = some row.2 :=
          registry_eq_some.mpr ⟨owned.trans isProgram, stored, by rwa [starts]⟩
        obtain ⟨kind, typed⟩ := typed_registryAt (unwritten_empty deployment) events position recorded
        obtain ⟨seeds, is⟩ := typed.exists_seeds
        refine List.mem_map.mpr ⟨row.1, List.mem_dedup.mpr (is ▸ mem_addresses seeds), ?_⟩
        exact Prod.ext rfl stored
    · cases served
  · cases served

/-- Such a node answers at its own position. -/
theorem slot_of_node {events : List Event} {position slot : ℕ} {program wallet vault : Pubkey} {accounts : List Pubkey}
    {state : SpendingState} (readAt : ReadAt (node events position) program wallet vault accounts state slot) :
    slot = position := by
  have served := readAt.authorities
  simp only [scanWalletAccounts, node] at served
  split at served
  · exact (congrArg Prod.fst (Except.ok.inj served)).symm
  · cases served

/-- The kit reports the wallet as controlled by its passkey and the trusted owner, and so it is. -/
theorem controlledAlone_sound_sample :
    ∃ state, ReadAt (node LazorKit.Sample.events 4) deployment.programId LazorKit.Sample.wallet LazorKit.Sample.vault
        (LazorKit.Sample.wallet :: LazorKit.Sample.vault ::
          watchedAtasOf (fun _ _ => default) LazorKit.Sample.vault watchedMintsBase) state 4 ∧
      Sound deployment Ledger.empty LazorKit.Sample.events id (OwnOrTrusted candidate [ownerKey]) (· ∈ [ownerKey])
        LazorKit.Sample.wallet 4 state.slot 1000 := by
  have described : describeCandidate (fun _ _ => default) (node LazorKit.Sample.events 4) candidate 1000 [ownerKey]
      watchedMintsBase =
      .ok (some report) := by decide +kernel
  obtain ⟨state, a, readAt, _, sound⟩ := controlledAlone_sound (unwritten_empty deployment) monotone_id
    (follows_node LazorKit.Sample.events 4) rfl rfl described rfl
  obtain rfl : a = 4 := slot_of_node readAt
  exact ⟨state, readAt, sound⟩

end Sample

end LazorKit.Kit
