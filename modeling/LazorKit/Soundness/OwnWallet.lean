import LazorKit.Soundness.KitOwnership
import LazorKit.Soundness.WalletChoice

/-! # The wallet that a returning passkey adopts

The counter of a passkey authority is the number of events since its record was made in which the program accepted an
assertion by its key for its wallet. So a wallet that the kit adopts is one the passkey has used, proved by its own
key, and under control of that key and the trusted ones alone.
-/

namespace LazorKit

open Solana

variable {dep : Deployment} {start : Ledger} {events : List Event} {key : Pubkey} {bytes : Bytes} {k : ℕ}

/-- The events behind `born` and in front of the `k`th in which an assertion by the authority was accepted. -/
def acceptedSince (dep : Deployment) (start : Ledger) (events : List Event) (key : Pubkey) (born k : ℕ) : Set ℕ :=
  {i | born < i ∧ i < k ∧ ∃ discriminator assertion, AcceptedAt dep start events i key discriminator assertion}

/-- The record at an address was made by the event at `born`, and has shown one face since. -/
structure StandsSince (dep : Deployment) (start : Ledger) (events : List Event) (key : Pubkey) (born k : ℕ) : Prop where
  made : born < k ∧ registryAt dep start events born key = none
  stands : ∀ i, born < i → i ≤ k → registryAt dep start events i key ≠ none ∧
    faces (registryAt dep start events i) key = faces (registryAt dep start events k) key

section Counting

variable {born : ℕ}

private theorem finite_acceptedSince : (acceptedSince dep start events key born k).Finite :=
  (Set.finite_Iio k).subset fun _ inside => inside.2.1

private theorem acceptedSince_self : acceptedSince dep start events key born (born + 1) = ∅ :=
  Set.eq_empty_of_forall_notMem fun _ inside => absurd inside.2.1 (Nat.not_lt.mpr inside.1)

private theorem acceptedSince_succ_of_not
    (silent : ∀ discriminator assertion, ¬AcceptedAt dep start events k key discriminator assertion) :
    acceptedSince dep start events key born (k + 1) = acceptedSince dep start events key born k := by
  ext i
  constructor
  · rintro ⟨after, before, discriminator, assertion, accepted⟩
    rcases Nat.lt_succ_iff_lt_or_eq.mp before with earlier | rfl
    · exact ⟨after, earlier, discriminator, assertion, accepted⟩
    · exact absurd accepted (silent discriminator assertion)
  · rintro ⟨after, before, accepted⟩
    exact ⟨after, before.trans k.lt_succ_self, accepted⟩

private theorem acceptedSince_succ {discriminator : UInt8} {assertion : Assertion} (after : born < k)
    (accepted : AcceptedAt dep start events k key discriminator assertion) :
    acceptedSince dep start events key born (k + 1) = insert k (acceptedSince dep start events key born k) := by
  ext i
  rw [Set.mem_insert_iff]
  constructor
  · rintro ⟨after, before, accepted⟩
    rcases Nat.lt_succ_iff_lt_or_eq.mp before with earlier | same
    · exact .inr ⟨after, earlier, accepted⟩
    · exact .inl same
  · rintro (rfl | ⟨after, before, accepted⟩)
    · exact ⟨after, Nat.lt_succ_self _, discriminator, assertion, accepted⟩
    · exact ⟨after, before.trans k.lt_succ_self, accepted⟩

/-- A record that is still there, with the face it had, has stood for one event more. -/
theorem StandsSince.succ (stands : StandsSince dep start events key born k)
    (recorded : registryAt dep start events (k + 1) key ≠ none)
    (same : faces (registryAt dep start events (k + 1)) key = faces (registryAt dep start events k) key) :
    StandsSince dep start events key born (k + 1) where
  made := ⟨stands.made.1.trans k.lt_succ_self, stands.made.2⟩
  stands := by
    intro i after before
    rcases Nat.le_succ_iff.mp before with earlier | rfl
    · exact ⟨(stands.stands i after earlier).1, (stands.stands i after earlier).2.trans same.symm⟩
    · exact ⟨recorded, rfl⟩

end Counting

theorem Birth.counter {fr : Frame} {accounts : List AccountInfo} {data : Bytes} {reg : Registry}
    {discriminator : UInt8} {approvals : List Approval}
    (birth : Birth dep fr accounts data reg discriminator approvals bytes)
    (checked : AuthorityAccountHeader.check bytes = .ok ()) : (AuthorityAccountHeader.read bytes).counter = 0 := by
  have tag := (AuthorityAccountHeader.check_eq_ok.mp checked).2.1
  cases birth with
  | wallet bump =>
    have first : (newWalletBytes bump).byte 0 = AccountDiscriminator.wallet.toByte := rfl
    exact absurd (first.symm.trans tag) (by decide)
  | authority _ short => rw [read_newAuthority short, newAuthorityHeader]
  | session => exact absurd ((byte_newSession ..).symm.trans tag) (by decide)
  | @deferred wallet authority payer _ _ _ _ _ _ bump =>
    have first :
        (newDeferred bump data wallet authority payer (fr.slot.toNat + (data.slice 64 2).toNatLE)).toBytes.byte 0 =
        AccountDiscriminator.deferredExec.toByte := rfl
    exact absurd (first.symm.trans tag) (by decide)

private theorem exists_of_acceptances {approvals : List Approval} (positive : 0 < acceptances key approvals) :
    ∃ used assertion, Approval.authority key used (some assertion) ∈ approvals := by
  obtain ⟨approval, member, by_⟩ := List.countP_pos_iff.mp positive
  cases approval with
  | session => cases by_
  | authority account used assertion =>
    cases assertion with
    | none => cases by_
    | some assertion =>
      have same : account = key := by simpa [Approval.isAssertionBy] using by_
      exact ⟨used, assertion, same ▸ member⟩

private theorem AcceptedAt.acceptances_pos {call : Call} {m : Machine Approval} {discriminator : UInt8}
    {assertion : Assertion} (accepted : AcceptedAt dep start events k key discriminator assertion)
    (success : SucceedsAt dep start events k call m) : 0 < acceptances key m.approved := by
  obtain ⟨⟨_, _, success', member⟩, _⟩ := accepted
  obtain ⟨_, rfl⟩ := success.unique success'
  exact List.countP_pos_iff.mpr ⟨_, member, decide_eq_true rfl⟩

/-- A passkey's counter is the number of events since its record was made in which an assertion of it was accepted. -/
theorem exists_standsSince (genesis : Genesis dep start) (recorded : registryAt dep start events k key = some bytes)
    (checked : AuthorityAccountHeader.check bytes = .ok ())
    (kind : (AuthorityAccountHeader.read bytes).authorityType = 1) :
    ∃ born, StandsSince dep start events key born k ∧
      (acceptedSince dep start events key born k).ncard = (AuthorityAccountHeader.read bytes).counter := by
  induction k generalizing bytes with
  | zero =>
    rw [show registryAt dep start events 0 key = none from genesis key] at recorded
    cases recorded
  | succ k ih =>
    have still : registryAt dep start events (k + 1) key ≠ none := recorded ▸ Option.some_ne_none bytes
    rcases registryAt_succ events genesis.funded k with ⟨same, failed⟩ | ⟨call, m, success⟩
    · have silent discriminator assertion : ¬AcceptedAt dep start events k key discriminator assertion := by
        rintro ⟨⟨call, m, success, _⟩, _⟩
        exact failed call m success
      rw [same] at recorded
      obtain ⟨born, stands, count⟩ := ih recorded checked kind
      exact ⟨born, stands.succ still (by rw [same]), by rw [acceptedSince_succ_of_not silent, count]⟩
    · cases before : registryAt dep start events k key with
      | none =>
        refine ⟨k, ⟨⟨k.lt_succ_self, before⟩, fun i after upTo => ?_⟩, ?_⟩
        · obtain rfl : i = k + 1 := by omega
          exact ⟨still, rfl⟩
        · rw [acceptedSince_self, Set.ncard_empty, (success.transition.birth before recorded).counter checked]
      | some old =>
        have fate := success.transition.fate before
        rw [recorded] at fate
        have checkedOld := fate.check_authority checked
        have shows := fate.face_eq checkedOld
        have kindOld : (AuthorityAccountHeader.read old).authorityType = 1 := by
          rw [face_authority checked, face_authority checkedOld, Face.authority.injEq] at shows
          rw [← shows.2.2.1, kind]
        obtain ⟨born, stands, count⟩ := ih before checkedOld kindOld
        have moved := (fate.counter checkedOld kindOld).1
        refine ⟨born, stands.succ still (by rw [faces, faces, recorded, before, shows]), ?_⟩
        by_cases silent : acceptances key m.approved = 0
        · rw [acceptedSince_succ_of_not fun _ _ accepted => (accepted.acceptances_pos success).ne' silent, count, moved,
            silent, Nat.add_zero]
        · have one : acceptances key m.approved = 1 := by
            have most : acceptances key m.approved ≤ 1 := acceptances_le_one success
            omega
          obtain ⟨used, assertion, member⟩ := exists_of_acceptances (Nat.pos_of_ne_zero silent)
          have accepted : AcceptedAt dep start events k key used assertion :=
            ⟨⟨call, m, success, member⟩, liveAuthority_iff.mpr ⟨old, before, checkedOld⟩⟩
          have fresh : k ∉ acceptedSince dep start events key born k := fun inside => lt_irrefl k inside.2.1
          rw [acceptedSince_succ stands.made.1 accepted, Set.ncard_insert_of_notMem fresh finite_acceptedSince, count,
            moved, one]

namespace Kit

variable {rt : Runtime} {lib : ProofLibraries} {derive : Pubkey → List Bytes → Pubkey} {answers : LookupAnswers}
  {rpc : OwnershipRpc} {position : ℕ → ℕ} {c : PasskeyWalletCandidate} {candidates : List PasskeyWalletCandidate}
  {facts : WalletFacts} {described : List WalletFacts} {slot : ℕ} {trustedKeys mints : List Pubkey}
  {params : FindOwnWalletParams} {result : FoundWallet} {programId : Pubkey}

private theorem describeCandidate_eq_ok
    (described : describeCandidate derive rpc c slot trustedKeys mints = .ok (some facts)) :
    facts.toPasskeyWalletCandidate = c ∧ facts.slot = slot := by
  simp only [describeCandidate, Except.bind_eq_ok] at described
  obtain ⟨state, _, described⟩ := described
  split at described
  · cases Option.some.inj (Except.ok.inj described)
    exact ⟨rfl, rfl⟩
  · cases described

/-- Each description is of one of the candidates, from a reading of its own. -/
theorem describeWalletCandidates_eq_ok {watchMints : List Pubkey}
    (success : describeWalletCandidates derive answers candidates trustedKeys watchMints = .ok described)
    (member : facts ∈ described) :
    facts.toPasskeyWalletCandidate ∈ candidates ∧ ∃ i, describeCandidate derive (answers.reading i)
      facts.toPasskeyWalletCandidate facts.slot trustedKeys (watchedMints watchMints) = .ok (some facts) := by
  unfold describeWalletCandidates at success
  split at success
  · cases Except.ok.inj success
    cases member
  · simp only [Except.bind_eq_ok, Except.mapM_eq_ok] at success
    obtain ⟨slot, _, wallets, _, descriptions, each, same⟩ := success
    cases Except.ok.inj same
    obtain ⟨description, listed, is⟩ := List.mem_filterMap.mp member
    obtain ⟨⟨c, i⟩, live, success⟩ := each.exists_left listed
    rw [show description = some facts from is] at success
    obtain ⟨rfl, rfl⟩ := describeCandidate_eq_ok success
    have kept := List.fst_mem_of_mem_zipIdx live
    simp only [List.mem_map, List.mem_filter] at kept
    obtain ⟨entry, ⟨inside, _⟩, first⟩ := kept
    exact ⟨first ▸ List.fst_mem_of_mem_zipIdx inside, i, success⟩

private theorem candidateOf_eq_some {version : WalletVersion} {row : Pubkey × Bytes}
    (some : candidateOf derive version programId row = some c) : c.version = version ∧ c.programId = programId := by
  unfold candidateOf at some
  split at some
  · cases some
  · cases Option.some.inj some
    exact ⟨rfl, rfl⟩

/-- The candidates of the current version are of the client's own program. -/
theorem programId_of_candidate {credentialIdHash : Bytes} {rpId : String} {includeV1 : Bool}
    (success : findPasskeyWalletCandidates rt derive rpc programId credentialIdHash rpId includeV1 = .ok candidates)
    (member : c ∈ candidates) (version : c.version = .v2) : c.programId = programId := by
  have scanned {kind : WalletVersion} {asked : Pubkey} {rpIdHash : Bytes} {found : List PasskeyWalletCandidate}
      {c : PasskeyWalletCandidate} (scan : scanCandidates derive rpc kind asked credentialIdHash rpIdHash = .ok found)
      (listed : c ∈ found) : c.version = kind ∧ c.programId = asked := by
    simp only [scanCandidates, Except.bind_eq_ok] at scan
    obtain ⟨_, _, same⟩ := scan
    cases Except.ok.inj same
    obtain ⟨_, _, is⟩ := List.mem_filterMap.mp listed
    exact candidateOf_eq_some is
  obtain ⟨v2, v1, scanV2, scanV1, rfl⟩ : ∃ v2 v1, scanCandidates derive rpc .v2 programId credentialIdHash
      (rt.sha256 (utf8 rpId)).bytes = .ok v2 ∧ (∀ c ∈ v1, c.version = .v1) ∧ candidates = v2 ++ v1 := by
    simp only [findPasskeyWalletCandidates, Except.bind_eq_ok] at success
    obtain ⟨_, _, v2, scanV2, success⟩ := success
    split at success
    · obtain ⟨v1, scanV1, same⟩ := Except.bind_eq_ok.mp success
      exact ⟨v2, v1, scanV2, fun c listed => (scanned scanV1 listed).1, (Except.ok.inj same).symm⟩
    · exact ⟨v2, [], scanV2, by simp, (Except.ok.inj success).symm⟩
  rcases List.mem_append.mp member with first | second
  · exact (scanned scanV2 first).2
  · rw [scanV1 c second] at version
    cases version

private theorem mem_verifyOwnershipProof {α : Type} {publicKey : α → Bytes} {candidates : List α}
    {proof : OwnershipProof} {rpId : String} {c : α} : c ∈ verifyOwnershipProof lib publicKey candidates proof rpId ↔
      ∃ digest, assertionDigest lib proof rpId = some digest ∧ c ∈ candidates ∧
        p256Verifies lib proof.signature digest (publicKey c) = true := by
  unfold verifyOwnershipProof
  split
  · next none => simp [none]
  · next digest some => simp [some]

/-- An authority that showed the face of a passkey record had its wallet and its public key. -/
theorem same_key {own : Bytes} {key : Pubkey} {i : ℕ} (checked : AuthorityAccountHeader.check own = .ok ())
    (type : own.byte 1 = 1) (live : LiveAuthority dep (ledgerAt dep start events i) key)
    (shows : faces (registryAt dep start events i) key = face (some own)) :
    (AuthorityAccountHeader.read (ledgerAt dep start events i key).data).wallet =
      (AuthorityAccountHeader.read own).wallet ∧
      (ledgerAt dep start events i key).data.slice 80 33 = own.slice 80 33 := by
  have recorded : registryAt dep start events i key = some (ledgerAt dep start events i key).data :=
    registry_of_liveAuthority live
  rw [faces, recorded, face_authority live.2, face_authority checked, Face.authority.injEq] at shows
  obtain ⟨wallet, _, kind, material⟩ := shows
  have typeThen : (ledgerAt dep start events i key).data.byte 1 = 1 := kind.trans type
  refine ⟨wallet, ?_⟩
  have same := congrArg (Bytes.slice · 32 33) material
  rwa [slice_keyMaterial typeThen rfl (by decide), slice_keyMaterial type rfl (by decide)] at same

/-- The authority's record has stood since an event, and in exactly so many events since then the program accepted an
assertion by its key for its wallet. -/
def SignedSince (dep : Deployment) (start : Ledger) (events : List Event) (wallet authority : Pubkey)
    (publicKey : Bytes) (count born k : ℕ) : Prop :=
  StandsSince dep start events authority born k ∧ (acceptedSince dep start events authority born k).ncard = count ∧
    ∀ i ∈ acceptedSince dep start events authority born k, ∃ discriminator assertion,
      AcceptedAt dep start events i authority discriminator assertion ∧ assertion.wallet = wallet ∧
        (ledgerAt dep start events i authority).data.slice 80 33 = publicKey

theorem exists_signedSince {own : Bytes} {k : ℕ} {key : Pubkey} (genesis : Genesis dep start)
    (recorded : registryAt dep start events k key = some own) (checked : AuthorityAccountHeader.check own = .ok ())
    (type : own.byte 1 = 1) :
    ∃ born, SignedSince dep start events (AuthorityAccountHeader.read own).wallet key (own.slice 80 33)
      (AuthorityAccountHeader.read own).counter born k := by
  obtain ⟨born, stands, count⟩ := exists_standsSince genesis recorded checked type
  refine ⟨born, stands, count, ?_⟩
  rintro i ⟨after, before, discriminator, assertion, accepted⟩
  have shows := (stands.stands i after before.le).2
  rw [faces.eq_def (registryAt dep start events k), recorded] at shows
  obtain ⟨⟨live, _⟩, _, _, _, _, _, _, _, verified⟩ := accepted.verified
  obtain ⟨ofWallet, material⟩ := same_key checked type live shows
  exact ⟨discriminator, assertion, accepted, verified.wallet.trans ofWallet, material⟩

/-- What an adoption says of the wallet, by the slots of its first read and of its newest. -/
structure Adopted (dep : Deployment) (start : Ledger) (events : List Event) (position : ℕ → ℕ) (lib : ProofLibraries)
    (params : FindOwnWalletParams) (facts : WalletFacts) (a newest : ℕ) : Prop where
  /-- Its key made the caller's assertion. -/
  proven : ∃ digest, assertionDigest lib params.proof params.rpId = some digest ∧
    p256Verifies lib params.proof.signature digest facts.publicKey = true
  /-- The key, the trusted keys, and what they make are in control from then on. -/
  sound : Sound dep start events position (OwnOrTrusted facts.toPasskeyWalletCandidate params.trustedKeys)
    (· ∈ params.trustedKeys) facts.walletPda a newest facts.slot
  /-- The program has accepted assertions by the key for this wallet, since the record was made exactly so many. -/
  signed : 0 < facts.signatureCount ∧ ∃ born, SignedSince dep start events facts.walletPda facts.authorityPda
    facts.publicKey facts.signatureCount born (position a)

/-- A wallet of this program that is adopted is the passkey's. -/
theorem adopted_sound (unwritten : Unwritten dep start) (ordered : Monotone position)
    (follows : ∀ i, Follows dep start events position (answers.reading i))
    (found : findOwnPasskeyWallet rt lib derive answers dep.programId params = .ok result)
    (adopted : result.adopt = some facts) (version : facts.version = .v2) :
    ∃ i state a, ReadAt (answers.reading i) dep.programId facts.walletPda facts.vaultPda
        (facts.walletPda :: facts.vaultPda :: watchedAtasOf derive facts.vaultPda (watchedMints params.watchMints))
        state a ∧
      AuthorityOf dep start events facts.walletPda (position a) facts.authorityPda ∧
      Adopted dep start events position lib params facts a state.slot := by
  simp only [findOwnPasskeyWallet, Except.bind_eq_ok] at found
  obtain ⟨candidates, scan, found⟩ := found
  split at found
  · cases Except.ok.inj found
    cases adopted
  · obtain ⟨described, describe, same⟩ := Except.bind_eq_ok.mp found
    cases Except.ok.inj same
    obtain ⟨signed, alone⟩ := adopt_eq_some.mp adopted
    have member : facts ∈ described.filter fun f => decide (0 < f.signatureCount) := by
      rw [signed]
      exact List.mem_singleton_self facts
    obtain ⟨listed, used⟩ := List.mem_filter.mp member
    obtain ⟨candidate, i, success⟩ := describeWalletCandidates_eq_ok describe listed
    obtain ⟨digest, covers, inside, verifies⟩ := mem_verifyOwnershipProof.mp candidate
    have program := programId_of_candidate scan inside version
    obtain ⟨state, a, own, readAt, recorded, checked, named, type, publicKey, count, sound⟩ :=
      sound_of_described unwritten ordered (follows i) version program success alone
    refine ⟨i, state, a, readAt, authorityOf_iff.mpr ⟨own, recorded, checked, named⟩, ⟨digest, covers, verifies⟩, sound,
      of_decide_eq_true used, ?_⟩
    rw [← named, ← publicKey, count]
    exact exists_signedSince unwritten.records recorded checked type

namespace Sample

open LazorKit.Sample

/-- The passkey joins the wallet's first owner and executes once. -/
def returning : List Event := LazorKit.Sample.events.take 4 ++ [.call executeA]

/-- The text of the challenge in the assertion of that execution. -/
def challenge : Bytes32 := bytes32 0x59293d4d1a08bf373a4616283a17090ff23a64139ac1533cd9ac5a973d5a2065

/-- What the libraries answer about that assertion. -/
def libraries : ProofLibraries where
  sha256 := lookup (digests ++ [(authenticatorData ++
    (bytes32 0x97b6b7834b3622ed619d6922a1fe8de912f3c243eef221a3b522f24b33fff55e).bytes,
    bytes32 0xb5c1336d8f8f461b9f180977cce637545d33d066b17824644a58ac17becec7d8)])
  parseClientData json := if json = executeAssertion.clientDataJson then
    some ⟨some webauthnGet, some (base64urlEncodeNoPad challenge.bytes)⟩ else none
  verifies format signature message publicKey := format = .compact && signature = executeAssertion.signature &&
    message = bytes32 0xb5c1336d8f8f461b9f180977cce637545d33d066b17824644a58ac17becec7d8 && publicKey = passkey
  recoverPublicKey format signature recovery message := if format = .compact ∧ signature = executeAssertion.signature ∧
    recovery = 0 ∧ message = bytes32 0xb5c1336d8f8f461b9f180977cce637545d33d066b17824644a58ac17becec7d8
    then some passkey else none
  base64 := base64

def requests : LookupAnswers where
  candidates := node returning 5
  slot := .ok 1000
  wallets := node returning 5
  reading _ := node returning 5

def asked : FindOwnWalletParams where
  credentialIdHash := credentialA.bytes
  rpId := "lazorkit.com"
  proof := ⟨challenge.bytes, executeAssertion.signature, authenticatorData, executeAssertion.clientDataJson⟩
  trustedKeys := [ownerKey]
  watchMints := []
  includeV1 := false

/-- The passkey has signed for it once. -/
def adopted : WalletFacts := { report with signatureCount := 1 }

/-- The passkey finds its wallet again. -/
theorem adopted_sound_sample :
    ∃ newest, Adopted deployment Ledger.empty returning id libraries asked adopted 5 newest := by
  have found : findOwnPasskeyWallet deployment.toRuntime libraries (fun _ seeds => (lookup derived seeds).1) requests
      deployment.programId asked = .ok ⟨⟨some adopted, []⟩, 0⟩ := by decide +kernel
  obtain ⟨_, state, a, readAt, _, sound⟩ := adopted_sound (unwritten_empty deployment) monotone_id
    (fun _ => follows_node returning 5) found rfl rfl
  obtain rfl : a = 5 := slot_of_node readAt
  exact ⟨state.slot, sound⟩

end Sample

end Kit

end LazorKit
