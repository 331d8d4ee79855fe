import LazorKit.Soundness.KitMigration
import LazorKit.Soundness.OwnWallet

/-! # Where a migration delivers

A migration delivers into the vault of a wallet that the plan itself creates, or of one that passed the vet. The vet
reads the wallet in several requests, and holds from the newest of them on: nobody but the owner, and what the owner
makes, is in control of what has been delivered. A wallet found without a seed is moreover the only one that the
passkey has signed for.
-/

namespace LazorKit.Kit

open Solana

variable {dep : Deployment} {start : Ledger} {events : List Event} {derive : Pubkey → List Bytes → Pubkey}
  {rpc : OwnershipRpc} {position : ℕ → ℕ} {wallet vault programId : Pubkey} {owner : CreateWalletOwner}
  {fields : OwnerFields} {rpIdHash : Bytes} {slot : ℕ} {atas mints : List Pubkey} {state : SpendingState}
  {getSlot : Except Error ℕ} {vet : DestinationVet}

/-- An authority of Owner rank that holds the owner's key. -/
def HoldsOwner (fields : OwnerFields) (rpIdHash : Bytes) (role kind : UInt8) (material : Bytes) : Prop :=
  role = rankOwner ∧ kind = byteOf fields.authType ∧ material.slice 0 32 = fields.credentialOrPubkey ∧
    (fields.authType = authTypeSecp256r1 →
      some (material.slice 32 33) = fields.secp256r1Pubkey ∧ material.slice 65 32 = rpIdHash)

/-- What a reading without a problem shows. -/
theorem destinationProblem_eq_none
    (clean : destinationProblem programId wallet vault fields rpIdHash slot atas mints state = none) :
    ∃ own, state.authorities = [own] ∧ own.2.byte 1 = byteOf fields.authType ∧ own.2.byte 2 = rankOwner ∧
      own.2.slice 48 32 = fields.credentialOrPubkey ∧
      (fields.authType = authTypeSecp256r1 →
        some (own.2.slice 80 33) = fields.secp256r1Pubkey ∧ own.2.slice 113 32 = rpIdHash) ∧
      (∀ row ∈ state.sessions, expiryAt row.2 72 < slot) ∧ ∀ row ∈ state.deferred, expiryAt row.2 168 < slot := by
  simp only [destinationProblem] at clean
  split at clean
  · cases clean
  · split at clean
    · next only listed =>
      split at clean
      · cases clean
      · next shape =>
        obtain ⟨type, role, credential⟩ := not_not.mp shape
        split at clean
        · cases clean
        · next passkey =>
          split at clean
          · cases clean
          · next sessions =>
            split at clean
            · cases clean
            · next deferred =>
              refine ⟨only, listed, byte_of_getElem? type, byte_of_getElem? role, credential, fun is => ?_,
                fun row member => ?_, fun row member => ?_⟩
              · by_contra other
                exact passkey ⟨is, other⟩
              · by_contra live
                exact sessions (List.any_eq_true.mpr ⟨row, member, decide_eq_true (Nat.le_of_not_lt live)⟩)
              · by_contra live
                exact deferred (List.any_eq_true.mpr ⟨row, member, decide_eq_true (Nat.le_of_not_lt live)⟩)
    · cases clean

private theorem resolveOwnerFields_authType (resolved : resolveOwnerFields owner = .ok fields) :
    fields.authType = authTypeEd25519 ∨ fields.authType = authTypeSecp256r1 := by
  cases owner with
  | ed25519 publicKey =>
    simp only [resolveOwnerFields, Except.bind_eq_ok] at resolved
    obtain ⟨_, _, same⟩ := resolved
    cases Except.ok.inj same
    exact .inl rfl
  | secp256r1 credentialIdHash compressedPubkey rpId =>
    simp only [resolveOwnerFields, Except.bind_eq_ok] at resolved
    obtain ⟨_, _, _, _, _, _, _, _, same⟩ := resolved
    cases Except.ok.inj same
    exact .inr rfl

private theorem holdsOwner_keyMaterial {own : Bytes}
    (known : fields.authType = authTypeEd25519 ∨ fields.authType = authTypeSecp256r1)
    (type : own.byte 1 = byteOf fields.authType) (role : own.byte 2 = rankOwner)
    (credential : own.slice 48 32 = fields.credentialOrPubkey)
    (passkey : fields.authType = authTypeSecp256r1 →
      some (own.slice 80 33) = fields.secp256r1Pubkey ∧ own.slice 113 32 = rpIdHash) :
    HoldsOwner fields rpIdHash (own.byte 2) (own.byte 1) (keyMaterial own) := by
  have front : (keyMaterial own).slice 0 32 = own.slice 48 32 := by
    rcases known with is | is <;> rw [is] at type
    · exact slice_keyMaterial type rfl (by decide)
    · exact slice_keyMaterial type rfl (by decide)
  refine ⟨role, type, front.trans credential, fun is => ?_⟩
  obtain ⟨publicKey, rp⟩ := passkey is
  rw [is] at type
  rw [slice_keyMaterial type rfl (by decide), slice_keyMaterial type rfl (by decide)]
  exact ⟨publicKey, rp⟩

/-- A wallet that passed the vet, with the record of its one authority. -/
theorem sound_of_vetted (unwritten : Unwritten dep start) (ordered : Monotone position)
    (follows : Follows dep start events position rpc) (resolved : resolveOwnerFields owner = .ok fields)
    (success : vetDestination dep.toRuntime derive rpc dep.programId wallet owner getSlot mints = .ok vet)
    (clean : vet.problem = none) :
    ∃ slot state a key own, getSlot = .ok slot ∧ vet.slot = state.slot ∧
      ReadAt rpc dep.programId wallet (vaultOf dep wallet)
        (wallet :: vaultOf dep wallet :: watchedAtasOf derive (vaultOf dep wallet) mints) state a ∧
      state.authorities = [(key, own)] ∧ registryAt dep start events (position a) key = some own ∧
      AuthorityAccountHeader.check own = .ok () ∧ (AuthorityAccountHeader.read own).wallet = wallet ∧
      HoldsOwner fields (dep.sha256 (utf8 (fields.rpId.getD ""))).bytes (own.byte 2) (own.byte 1) (keyMaterial own) ∧
      (0 < vet.signatureCount → fields.authType = authTypeSecp256r1 ∧ own.byte 1 = 1 ∧
        vet.signatureCount = (own.slice 8 4).toNatLE) ∧
      Sound dep start events position (fun _ => HoldsOwner fields (dep.sha256 (utf8 (fields.rpId.getD ""))).bytes)
        (fun _ => False) wallet a state.slot slot := by
  simp only [vetDestination, resolved, Except.ok_bind, Except.bind_eq_ok] at success
  obtain ⟨slot, asked, state, read, same⟩ := success
  cases Except.ok.inj same
  obtain ⟨own, only, type, role, credential, passkey, sessions, deferred⟩ := destinationProblem_eq_none clean
  obtain ⟨a, s, d, readAt, listed⟩ := listed_of_read unwritten follows read
  obtain ⟨recorded, checked, named⟩ := (listed.authorities own.1 own.2).mp
    (by rw [only]; exact List.mem_singleton_self own)
  have holds := holdsOwner_keyMaterial (resolveOwnerFields_authType resolved) type role credential passkey
  refine ⟨slot, state, a, own.1, own.2, asked, rfl, readAt, only, recorded, checked, named, holds,
    fun positive => ?_, ?_⟩
  · simp only at positive ⊢
    split at positive
    · next both =>
      rw [if_pos both, only]
      exact ⟨both.2, type.trans (by rw [both.2]; rfl), rfl⟩
    · exact absurd positive (lt_irrefl 0)
  · apply sound_of_listed unwritten.records ordered listed (by rw [only]; exact List.cons_ne_nil own [])
    · intro key data member
      rw [only] at member
      cases List.mem_singleton.mp member
      exact holds
    · intro key data member fits
      have expired := sessions (key, data) member
      rw [expiryAt, if_pos (show 72 + 8 ≤ data.length from fits)] at expired
      exact .inl expired
    · intro key data member fits
      have expired := deferred (key, data) member
      rwa [expiryAt, if_pos (show 168 + 8 ≤ data.length from fits)] at expired

/-- An authority that stores the whole passkey and has counted a signature. -/
structure SignedPasskey (fields : OwnerFields) (rpIdHash bytes : Bytes) : Prop where
  type : bytes.byte 1 = 1
  credential : bytes.slice 48 32 = fields.credentialOrPubkey
  publicKey : some (bytes.slice 80 33) = fields.secp256r1Pubkey
  rpIdHash : bytes.slice 113 32 = rpIdHash
  signed : (AuthorityAccountHeader.read bytes).counter ≠ 0

/-- The scan for the passkey's authorities was answered at a slot. -/
def ScannedAt (dep : Deployment) (rpc : OwnershipRpc) (fields : OwnerFields) (p : ℕ) : Prop :=
  ∃ rows, rpc.programAccounts dep.programId
    [(0, [AccountDiscriminator.authority.toByte, byteOf authTypeSecp256r1]), (48, fields.credentialOrPubkey),
      (113, (dep.sha256 (utf8 (fields.rpId.getD ""))).bytes)] none = .ok (p, rows)

variable {signed : List SignedAuthority}

/-- Every signed-on authority of the passkey is found. -/
theorem mem_signedPasskeyAuthorities (unwritten : Unwritten dep start)
    (follows : Follows dep start events position rpc) (resolved : resolveOwnerFields owner = .ok fields)
    (success : signedPasskeyAuthorities dep.toRuntime rpc dep.programId owner = .ok signed) :
    ∃ p, ScannedAt dep rpc fields p ∧ ∀ key bytes, registryAt dep start events (position p) key = some bytes →
      AuthorityAccountHeader.check bytes = .ok () →
      SignedPasskey fields (dep.sha256 (utf8 (fields.rpId.getD ""))).bytes bytes →
      ⟨(AuthorityAccountHeader.read bytes).wallet, (((AuthorityAccountHeader.read bytes).role).toNat : ℤ)⟩ ∈
        signed := by
  simp only [signedPasskeyAuthorities, resolved, Except.ok_bind, Except.bind_eq_ok] at success
  obtain ⟨⟨p, rows⟩, scan, same⟩ := success
  cases Except.ok.inj same
  obtain ⟨_, listed⟩ := follows _ _ _ _ scan
  refine ⟨p, ⟨rows, scan⟩, fun key bytes recorded checked passkey => ?_⟩
  have long : 145 ≤ bytes.length := by
    have width := congrArg List.length passkey.rpIdHash
    rw [Bytes.length_slice, BytesN.length_bytes] at width
    omega
  obtain ⟨owned, stored, _⟩ := registry_eq_some.mp recorded
  have tag : bytes.byte 0 = AccountDiscriminator.authority.toByte := (AuthorityAccountHeader.check_eq_ok.mp checked).2.1
  have funded : 0 < (ledgerAt dep start events (position p) key).lamports :=
    funded_ledgerAt events unwritten.records.funded (position p) key (by
      rw [show registry dep (ledgerAt dep start events (position p)) key = some bytes from recorded]
      exact Option.some_ne_none _)
  apply List.mem_filterMap.mpr
  refine ⟨(key, bytes), (listed _).mpr ⟨funded.ne', owned, stored, ?_⟩, ?_⟩
  · intro filter member
    simp only [List.mem_cons, List.not_mem_nil, or_false] at member
    rcases member with rfl | rfl | rfl
    · change bytes.slice 0 (1 + 1) = _
      rw [← Bytes.slice_append_slice, Bytes.slice_one (by omega), Bytes.slice_one (by omega), tag, passkey.type]
      rfl
    · rw [← passkey.credential, Bytes.length_slice_of_le (by omega)]
    · rw [BytesN.length_bytes]
      exact passkey.rpIdHash
  · unfold signedAuthority
    apply if_neg
    rintro (short | other | other | unsigned)
    · exact absurd short (by simpa using long)
    · exact other passkey.publicKey
    · exact other passkey.rpIdHash
    · exact passkey.signed unsigned

variable {reads : MigrationReads} {params : MigrateV1WalletParams} {plan : MigrationPlan}

/-- The plan creates the wallet, where it found nothing. -/
def CreatedByPlan (dep : Deployment) (reads : MigrationReads) (plan : MigrationPlan) : Prop :=
  ∃ seed account created, plan.destinationWallet = findWallet dep.toRuntime seed ∧
    reads.walletAccount plan.destinationWallet = .ok account ∧ isSystemAccount account = true ∧
    reads.createWallet seed = .ok created ∧ created <+: plan.setupInstructions

/-- The reading found one authority, the owner's, and from the newest read on nobody but the owner, and what it makes,
is in control. -/
def HeldByOwner (dep : Deployment) (start : Ledger) (events : List Event) (position : ℕ → ℕ) (fields : OwnerFields)
    (wallet : Pubkey) (state : SpendingState) (a slot : ℕ) : Prop :=
  (∃ key own, state.authorities = [(key, own)] ∧ registryAt dep start events (position a) key = some own ∧
      AuthorityAccountHeader.check own = .ok () ∧ (AuthorityAccountHeader.read own).wallet = wallet ∧
      HoldsOwner fields (dep.sha256 (utf8 (fields.rpId.getD ""))).bytes (own.byte 2) (own.byte 1) (keyMaterial own)) ∧
    Sound dep start events position (fun _ => HoldsOwner fields (dep.sha256 (utf8 (fields.rpId.getD ""))).bytes)
      (fun _ => False) wallet a state.slot slot

/-- The program has accepted an assertion by the owner's key for the wallet, and at the scan for its authorities for no
other. -/
def UsedByOwner (dep : Deployment) (start : Ledger) (events : List Event) (position : ℕ → ℕ) (rpc : OwnershipRpc)
    (fields : OwnerFields) (wallet : Pubkey) (a : ℕ) : Prop :=
  (∃ i < position a, ∃ key discriminator assertion, AcceptedAt dep start events i key discriminator assertion ∧
      assertion.wallet = wallet ∧
      some ((ledgerAt dep start events i key).data.slice 80 33) = fields.secp256r1Pubkey) ∧
    ∃ p, ScannedAt dep rpc fields p ∧ ∀ key bytes, registryAt dep start events (position p) key = some bytes →
      AuthorityAccountHeader.check bytes = .ok () →
      SignedPasskey fields (dep.sha256 (utf8 (fields.rpId.getD ""))).bytes bytes →
      (AuthorityAccountHeader.read bytes).wallet = wallet

/-- The wallet of a seed is to be created, or passed the vet. -/
def Seeded (rt : Runtime) (reads : MigrationReads) (destination : Destination) : Prop :=
  ∃ seed, destination.wallet = findWallet rt seed ∧ destination.seed = some seed ∧
    ((destination.createFrom = some seed ∧ ∃ account, reads.walletAccount destination.wallet = .ok account ∧
        isSystemAccount account = true) ∨
      destination.createFrom = none ∧ ∃ vet, reads.vetDestination destination.wallet = .ok vet ∧ vet.problem = none)

/-- The passkey has signed for this wallet alone, and it passed the vet. -/
def Reused (reads : MigrationReads) (destination : Destination) : Prop :=
  destination.seed = none ∧ destination.createFrom = none ∧ ∃ only vet,
    reads.signedPasskeyAuthorities = .ok [only] ∧ only.walletPda = destination.wallet ∧
      reads.vetDestination destination.wallet = .ok vet ∧ vet.problem = none ∧ 0 < vet.signatureCount

variable {rt : Runtime} {destination : Destination} {authType : ℤ}

private theorem seeded_of_ok {seed : Bytes} (success : seededDestination rt reads params seed = .ok destination) :
    Seeded rt reads destination := by
  simp only [seededDestination, Except.bind_eq_ok] at success
  obtain ⟨account, read, success⟩ := success
  split at success
  · next vacant =>
    cases Except.ok.inj success
    exact ⟨seed, rfl, rfl, .inl ⟨rfl, account, read, vacant⟩⟩
  · obtain ⟨vet, vetted, success⟩ := Except.bind_eq_ok.mp success
    split at success
    · cases success
    · next clean =>
      cases Except.ok.inj success
      exact ⟨seed, rfl, rfl, .inr ⟨rfl, vet, vetted, clean⟩⟩

private theorem reused_of_ok {wallet : Pubkey} {slot : ℕ}
    (success : reusedDestination reads authType = .ok (some (wallet, slot))) :
    Reused reads ⟨wallet, none, none, some slot⟩ := by
  unfold reusedDestination at success
  split at success
  · obtain ⟨signed, scan, success⟩ := Except.bind_eq_ok.mp success
    split at success
    · next only =>
      split at success
      · obtain ⟨vet, vetted, success⟩ := Except.bind_eq_ok.mp success
        split at success
        · next passed =>
          cases Option.some.inj (Except.ok.inj success)
          exact ⟨rfl, rfl, only, vet, scan, rfl, vetted, passed.1, passed.2⟩
        · cases success
      · cases success
    · cases success
  · cases success

private theorem chooseDestination_eq_ok (success : chooseDestination rt reads params authType = .ok destination) :
    Seeded rt reads destination ∨ params.userSeed = none ∧ Reused reads destination := by
  unfold chooseDestination at success
  split at success
  · exact .inl (seeded_of_ok success)
  · next noSeed =>
    obtain ⟨reused, tried, success⟩ := Except.bind_eq_ok.mp success
    split at success
    · cases Except.ok.inj success
      exact .inr ⟨noSeed, reused_of_ok tried⟩
    · exact .inl (seeded_of_ok success)

/-- Whatever the node answers along a run, a plan delivers into the vault of a wallet that it creates itself, or of
one held by the owner alone; and a wallet it found without a seed is the only one the passkey has used. -/
theorem migration_destination {rpcs : Pubkey → OwnershipRpc} {signedRpc : OwnershipRpc}
    {slots : Pubkey → Except Error ℕ} (unwritten : Unwritten dep start) (ordered : Monotone position)
    (follows : ∀ wallet, Follows dep start events position (rpcs wallet))
    (scans : Follows dep start events position signedRpc)
    (vets : ∀ wallet, reads.vetDestination wallet =
      vetDestination dep.toRuntime derive (rpcs wallet) dep.programId wallet params.owner (slots wallet) mints)
    (finds : reads.signedPasskeyAuthorities =
      signedPasskeyAuthorities dep.toRuntime signedRpc dep.programId params.owner)
    (resolved : resolveOwnerFields params.owner = .ok fields)
    (success : migrateV1Wallet dep.toRuntime derive reads params = .ok plan) :
    plan.v2Vault = vaultOf dep plan.destinationWallet ∧
      (CreatedByPlan dep reads plan ∨ ∃ slot state a, slots plan.destinationWallet = .ok slot ∧
        ReadAt (rpcs plan.destinationWallet) dep.programId plan.destinationWallet plan.v2Vault
          (plan.destinationWallet :: plan.v2Vault :: watchedAtasOf derive plan.v2Vault mints) state a ∧
        HeldByOwner dep start events position fields plan.destinationWallet state a slot ∧
        (params.userSeed = none → plan.destinationUserSeed = none →
          UsedByOwner dep start events position signedRpc fields plan.destinationWallet a)) := by
  simp only [migrateV1Wallet, Except.bind_eq_ok, Except.ensure_eq_ok, exists_const, Except.ok.injEq] at success
  obtain ⟨fields', same, _, v1, _, _, _, destination, chosen, ⟨tokens, skippedTokens⟩, planned, created, creates,
    migrate, step, rfl⟩ := success
  rw [resolved] at same
  cases Except.ok.inj same
  refine ⟨rfl, ?_⟩
  have vetted {vet : DestinationVet} (asked : reads.vetDestination destination.wallet = .ok vet)
      (clean : vet.problem = none) :
      ∃ slot state a, slots destination.wallet = .ok slot ∧
        ReadAt (rpcs destination.wallet) dep.programId destination.wallet (vaultOf dep destination.wallet)
          (destination.wallet :: vaultOf dep destination.wallet ::
            watchedAtasOf derive (vaultOf dep destination.wallet) mints) state a ∧
        HeldByOwner dep start events position fields destination.wallet state a slot ∧
        (0 < vet.signatureCount → ∃ i < position a, ∃ key discriminator assertion,
          AcceptedAt dep start events i key discriminator assertion ∧ assertion.wallet = destination.wallet ∧
            some ((ledgerAt dep start events i key).data.slice 80 33) = fields.secp256r1Pubkey) := by
    rw [vets] at asked
    obtain ⟨slot, state, a, key, own, asked, _, readAt, only, recorded, checked, named, holds, counted, sound⟩ :=
      sound_of_vetted unwritten ordered (follows destination.wallet) resolved asked clean
    refine ⟨slot, state, a, asked, readAt, ⟨⟨key, own, only, recorded, checked, named, holds⟩, sound⟩,
      fun positive => ?_⟩
    obtain ⟨kind, type, count⟩ := counted positive
    obtain ⟨born, _, total, each⟩ := exists_signedSince unwritten.records recorded checked type
    have some_ : (acceptedSince dep start events key born (position a)).ncard ≠ 0 := by
      rw [total]
      exact (positive.trans_eq count).ne'
    obtain ⟨i, member⟩ := Set.nonempty_of_ncard_ne_zero some_
    obtain ⟨discriminator, assertion, accepts, ofWallet, publicKey⟩ := each i member
    refine ⟨i, member.2.1, key, discriminator, assertion, accepts, ofWallet.trans named, ?_⟩
    obtain ⟨_, _, _, passkey⟩ := holds
    have stored : (keyMaterial own).slice 32 33 = own.slice 80 33 := slice_keyMaterial type rfl (by decide)
    rw [publicKey, ← (passkey kind).1, stored]
  rcases chooseDestination_eq_ok chosen with ⟨seed, isWallet, isSeed,
    ⟨from_, account, read, vacant⟩ | ⟨_, vet, asked, clean⟩⟩ |
    ⟨noSeed, isSeed, _, only, vet, scan, isWallet, asked, clean, positive⟩
  · rw [from_] at creates
    exact .inl ⟨seed, account, created, isWallet, read, vacant, creates, List.prefix_append _ _⟩
  · obtain ⟨slot, state, a, answered, readAt, held, _⟩ := vetted asked clean
    refine .inr ⟨slot, state, a, answered, readAt, held, fun noSeed unseeded => ?_⟩
    simp only [noSeed, Option.isSome_none, isSeed] at unseeded
    cases unseeded
  · obtain ⟨slot, state, a, answered, readAt, held, used⟩ := vetted asked clean
    refine .inr ⟨slot, state, a, answered, readAt, held, fun _ _ => ⟨used positive, ?_⟩⟩
    rw [finds] at scan
    obtain ⟨p, scanned, complete⟩ := mem_signedPasskeyAuthorities unwritten scans resolved scan
    refine ⟨p, scanned, fun key bytes recorded checked passkey => ?_⟩
    have listed := List.mem_singleton.mp (complete key bytes recorded checked passkey)
    exact (congrArg SignedAuthority.walletPda listed).trans isWallet

namespace Sample

open LazorKit.Sample

def createPasskeyWalletData : Bytes :=
  [0] ++ userSeed.bytes ++ [1] ++ List.replicate 7 0 ++ credentialA.bytes ++ passkey ++ [12] ++ rpId

/-- A wallet whose first Owner is the passkey. -/
def createPasskeyWallet : Call where
  frame := topLevel 1000 [] 0 createPasskeyWalletData
  accounts := ⟨[payerInfo, writable LazorKit.Sample.wallet, readonly LazorKit.Sample.vault, writable authorityA,
    readonly systemProgram, readonly rentSysvar] ++ feeAccounts, by decide, by decide +kernel⟩
  data := createPasskeyWalletData

/-- The passkey creates a wallet and executes once. -/
def used : List Event := LazorKit.Sample.events.take 2 ++ [.call createPasskeyWallet, .call executeA]

/-- The passkey's v1 wallet is named, and no seed. -/
def unseededParams : MigrateV1WalletParams :=
  { migrationParams with userSeed := none, v1Wallet := some v1.wallet }

/-- The answers of a node that stopped behind that run. -/
def vettedReads : MigrationReads :=
  { migrationReads none with
    walletAccount := fun key => .ok (some (ledgerAt deployment Ledger.empty used 4 key))
    signedPasskeyAuthorities :=
      signedPasskeyAuthorities deployment.toRuntime (node used 4) deployment.programId unseededParams.owner
    vetDestination := fun wallet => vetDestination deployment.toRuntime LazorKit.Kit.Sample.derive (node used 4)
      deployment.programId wallet unseededParams.owner (.ok 1000) watchedMintsBase }

/-- The passkey, as the vet looks for it. -/
def passkeyFields : OwnerFields := ⟨authTypeSecp256r1, credentialA.bytes, some passkey, some "lazorkit.com"⟩

end Sample

/-- The migration delivers into the wallet the passkey uses. -/
theorem migration_destination_sample : ∃ plan,
    migrateV1Wallet LazorKit.Sample.deployment.toRuntime Sample.derive Sample.vettedReads Sample.unseededParams =
      .ok plan ∧
    plan.destinationWallet = LazorKit.Sample.wallet ∧ ∃ state,
      HeldByOwner LazorKit.Sample.deployment Ledger.empty Sample.used id Sample.passkeyFields LazorKit.Sample.wallet
        state 4 1000 ∧
      UsedByOwner LazorKit.Sample.deployment Ledger.empty Sample.used id (Sample.node Sample.used 4)
        Sample.passkeyFields LazorKit.Sample.wallet 4 := by
  obtain ⟨_, success⟩ := Except.exists_of_succeeded
    (show
      (migrateV1Wallet LazorKit.Sample.deployment.toRuntime Sample.derive Sample.vettedReads Sample.unseededParams >>=
      fun plan => Except.ensure (plan.destinationWallet = LazorKit.Sample.wallet ∧ plan.destinationUserSeed = none)
        (⟨""⟩ : Error)).succeeded = true by decide +kernel)
  simp only [Except.bind_eq_ok, Except.ensure_eq_ok] at success
  obtain ⟨plan, planned, isWallet, unseeded⟩ := success
  have answers := Sample.follows_node Sample.used 4
  have vets (wallet : Pubkey) : Sample.vettedReads.vetDestination wallet =
      vetDestination LazorKit.Sample.deployment.toRuntime Sample.derive (Sample.node Sample.used 4)
        LazorKit.Sample.deployment.programId wallet Sample.unseededParams.owner (.ok 1000) watchedMintsBase := rfl
  have resolved : resolveOwnerFields Sample.unseededParams.owner = .ok Sample.passkeyFields := rfl
  obtain ⟨_, created | ⟨slot, state, a, asked, readAt, held, reuse⟩⟩ := migration_destination
    (unwritten_empty LazorKit.Sample.deployment) monotone_id (fun _ => answers) answers vets rfl resolved planned
  · obtain ⟨_, account, _, _, read, vacant, _⟩ := created
    rw [isWallet] at read
    cases Except.ok.inj read
    exact absurd vacant (by decide +kernel)
  · cases Except.ok.inj asked
    obtain rfl : a = 4 := Sample.slot_of_node readAt
    rw [isWallet] at held reuse
    exact ⟨plan, planned, isWallet, state, held, reuse rfl unseeded⟩

end LazorKit.Kit
