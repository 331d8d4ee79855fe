import LazorKit.Soundness.FeeLedger
import LazorKit.Soundness.Sessions

/-! # An account is what its tag says

Processors recognise an account by its owner and its first byte. That is sound because every account under a
tag of this version was created for that type, at the address its type's seeds derive from what it records,
and keeps its tag and its version until it is zeroed. The registry covers wallets, authorities, sessions and
deferred authorizations, the book the accounts of the protocol layer.
-/

namespace LazorKit

open Solana

/-- The check of each type. -/
def AccountDiscriminator.check : AccountDiscriminator → Bytes → Except ProgramError Unit
  | .wallet => WalletAccount.check
  | .authority => AuthorityAccountHeader.check
  | .session => SessionAccount.check
  | .deferredExec => DeferredExecAccount.check
  | .protocolConfig => ProtocolConfig.check
  | .feeRecord => FeeRecord.check
  | .treasuryShard => TreasuryShard.check

/-- An account lives at the address that its type's seeds derive from the values its data records. Neither a
wallet's seed nor the counter of an authorization nor the payer of a fee record is among these. -/
def AtOwnAddress (dep : Deployment) (kind : AccountDiscriminator) (key : Pubkey) (bytes : Bytes) : Prop :=
  match kind with
  | .wallet => ∃ userSeed, key = (dep.findProgramAddress [Seeds.wallet, userSeed]).1
  | .authority => key = (dep.findProgramAddress
      [Seeds.authority, (AuthorityAccountHeader.read bytes).wallet.bytes, bytes.slice AuthorityAccountHeader.size 32]).1
  | .session => key = (dep.findProgramAddress
      [Seeds.session, (SessionAccount.read bytes).wallet.bytes, (SessionAccount.read bytes).sessionKey.bytes]).1
  | .deferredExec => ∃ counter, key = (dep.findProgramAddress [Seeds.deferred,
      (DeferredExecAccount.read bytes).wallet.bytes, (DeferredExecAccount.read bytes).authority.bytes,
      Bytes.ofNatLE 4 counter]).1
  | .protocolConfig => key = ProtocolConfig.pda dep
  | .feeRecord => ∃ payer, key = feeRecordAddress dep payer
  | .treasuryShard => key = shardAddress dep (TreasuryShard.readShardId bytes)

/-- Bytes that pass the check of a type, at an address of that type. -/
structure Typed (dep : Deployment) (kind : AccountDiscriminator) (key : Pubkey) (bytes : Bytes) : Prop where
  checked : kind.check bytes = .ok ()
  address : AtOwnAddress dep kind key bytes

variable {dep : Deployment} {fr : Frame} {accounts : List AccountInfo} {data : Bytes} {key : Pubkey}
  {kind : AccountDiscriminator} {bytes old new : Bytes}

namespace AccountDiscriminator

theorem check_tag (checked : kind.check bytes = .ok ()) : bytes.byte 0 = kind.toByte := by
  cases kind with
  | wallet => exact checkHeader_tag (show WalletAccount.check bytes = _ from checked)
  | authority => exact checkHeader_tag (show AuthorityAccountHeader.check bytes = _ from checked)
  | session => exact checkHeader_tag (show SessionAccount.check bytes = _ from checked)
  | deferredExec => exact checkHeader_tag (show DeferredExecAccount.check bytes = _ from checked)
  | protocolConfig => exact checkHeader_tag (show ProtocolConfig.check bytes = _ from checked)
  | feeRecord => exact checkHeader_tag (show FeeRecord.check bytes = _ from checked)
  | treasuryShard => exact checkHeader_tag (show TreasuryShard.check bytes = _ from checked)

theorem toByte_inj {other : AccountDiscriminator} (same : kind.toByte = other.toByte) : kind = other := by
  cases kind <;> cases other <;> first | rfl | exact absurd same (by decide)

/-- A type rejects bytes under another tag. -/
theorem check_ne_of_tag (other : bytes.byte 0 ≠ kind.toByte) : kind.check bytes ≠ .ok () :=
  fun checked => other (check_tag checked)

/-- The tags of the previous version are not tags of this one. -/
theorem toByte_ne_v1 {tag : UInt8} (v1 : tag ≤ 7) : kind.toByte ≠ tag := by
  rintro rfl
  revert v1
  cases kind <;> decide

end AccountDiscriminator

/-- The fixed part of an authority holds at least a seed behind its header. -/
theorem eighty_le_authorityFixedLen {type : UInt8} {fixed : ℕ} (known : authorityFixedLen type = some fixed) :
    AuthorityAccountHeader.size + 32 ≤ fixed := by
  unfold authorityFixedLen at known
  split at known <;> cases known <;> decide

/-- The address seed is the first part of the stored key material. -/
theorem storedKeyMaterial_seed {type : UInt8} {fullAuthData material : Bytes} (long : 32 ≤ fullAuthData.length)
    (stored : storedKeyMaterial dep type fullAuthData = .ok material) :
    material.slice 0 32 = fullAuthData.slice 0 32 := by
  have width : (fullAuthData.slice 0 32).length = 32 := Bytes.length_slice_of_le (by simpa using long)
  unfold storedKeyMaterial at stored
  split at stored
  · cases stored
    rw [← List.append_nil (fullAuthData.slice 0 32), slice_front width, List.append_nil]
  · cases stored
    rw [List.append_assoc, slice_front width]
  · cases stored

/-- The address seed is the first part of the key material as sent. -/
def AuthorityKey.Seeded (key : AuthorityKey) : Prop :=
  key.idSeed = key.fullAuthData.slice 0 32 ∧ 32 ≤ key.fullAuthData.length

private theorem seeded_of_slice {rest : Bytes} {count : ℕ} (enough : 32 ≤ count) (long : count ≤ rest.length) :
    AuthorityKey.Seeded ⟨rest.slice 0 32, rest.slice 0 count⟩ := by
  refine ⟨?_, ?_⟩
  · simp [Bytes.slice, List.take_take, min_eq_left enough]
  · rwa [Bytes.length_slice_of_le (by simpa using long)]

private theorem parseAuthorityKey_seeded {type : UInt8} {rest : Bytes} {authorityKey : AuthorityKey}
    (success : parseAuthorityKey type rest = .ok authorityKey) : authorityKey.Seeded := by
  unfold parseAuthorityKey at success
  split at success
  · simp only [Except.bind_eq_ok, Except.ensure_eq_ok, exists_const] at success
    obtain ⟨long, _, result⟩ := success
    cases Except.ok.inj result
    exact seeded_of_slice (le_refl 32) long
  · simp only [Except.bind_eq_ok, Except.ensure_eq_ok, exists_const] at success
    obtain ⟨_, _, _, long, result⟩ := success
    cases Except.ok.inj result
    exact seeded_of_slice (by omega) long
  · cases success

private theorem parseNewOwnerKey_seeded {type : UInt8} {rest : Bytes} {authorityKey : AuthorityKey}
    (success : parseNewOwnerKey type rest = .ok authorityKey) : authorityKey.Seeded := by
  unfold parseNewOwnerKey at success
  split at success
  · simp only [Except.bind_eq_ok, Except.ensure_eq_ok, exists_const] at success
    obtain ⟨long, result⟩ := success
    cases Except.ok.inj result
    exact seeded_of_slice (le_refl 32) long
  · simp only [Except.bind_eq_ok, Except.ensure_eq_ok, exists_const] at success
    obtain ⟨_, _, _, long, result⟩ := success
    cases Except.ok.inj result
    exact seeded_of_slice (by omega) long
  · cases success

private theorem typed_newWallet (bump : UInt8) (userSeed : Bytes) :
    Typed dep .wallet (dep.findProgramAddress [Seeds.wallet, userSeed]).1 (newWalletBytes bump) :=
  ⟨WalletAccount.check_eq_ok.mpr ⟨by simp [newWalletBytes], rfl, rfl⟩, userSeed, rfl⟩

/-- An authority created from a key lives at the key's address. -/
theorem typed_newAuthority {type role bump : UInt8} {wallet : Pubkey} {authorityKey : AuthorityKey}
    {material policy : Bytes} (short : policy.length < 2 ^ 16) (seeded : authorityKey.Seeded)
    (stored : storedKeyMaterial dep type authorityKey.fullAuthData = .ok material)
    (space : authorityFixedLen type = some (AuthorityAccountHeader.size + material.length))
    (address : key = (dep.findProgramAddress [Seeds.authority, wallet.bytes, authorityKey.idSeed]).1) :
    Typed dep .authority key (newAuthorityBytes type role bump wallet material policy) := by
  refine ⟨check_newAuthority .., ?_⟩
  have long : 32 ≤ material.length := by
    have fixed := eighty_le_authorityFixedLen space
    simp only [AuthorityAccountHeader.size] at fixed
    omega
  have seed : (newAuthorityBytes type role bump wallet material policy).slice AuthorityAccountHeader.size 32 =
      authorityKey.idSeed := by
    rw [seeded.1, ← storedKeyMaterial_seed seeded.2 stored, newAuthorityBytes,
      slice_skip (AuthorityAccountHeader.length_toBytes _) (le_refl _), Nat.sub_self]
    simp [Bytes.slice, List.take_append_of_le_length long]
  rw [AtOwnAddress, read_newAuthority short, seed]
  exact address

private theorem typed_newSession {bump : UInt8} {wallet : Pubkey} {args : ParsedCreateSessionArgs}
    (bound : args.expiresAt < 2 ^ 64)
    (address : key = (dep.findProgramAddress [Seeds.session, wallet.bytes, args.sessionKey.bytes]).1) :
    Typed dep .session key (newSessionBytes bump wallet args) := by
  refine ⟨SessionAccount.check_eq_ok.mpr ⟨by simp [newSessionBytes], rfl, rfl⟩, ?_⟩
  rw [AtOwnAddress, read_newSession bound]
  exact address

private theorem typed_newDeferred {bump : UInt8} {wallet authority payer : Pubkey} {expiresAt counter : ℕ}
    (bound : expiresAt < 2 ^ 64)
    (address : key = (dep.findProgramAddress [Seeds.deferred, wallet.bytes, authority.bytes,
      Bytes.ofNatLE 4 counter]).1) :
    Typed dep .deferredExec key (newDeferred bump data wallet authority payer expiresAt).toBytes := by
  refine ⟨DeferredExecAccount.check_eq_ok.mpr ⟨by simp, rfl, rfl⟩, counter, ?_⟩
  rw [DeferredExecAccount.read_toBytes _ bound]
  exact address

theorem Typed.tag (typed : Typed dep kind key bytes) : bytes.byte 0 = kind.toByte :=
  AccountDiscriminator.check_tag typed.checked

/-- Whatever its type, an account lives at a derived address. -/
theorem Typed.exists_seeds (typed : Typed dep kind key bytes) : ∃ seeds, key = (dep.findProgramAddress seeds).1 := by
  have address := typed.address
  cases kind with
  | authority | session | protocolConfig | treasuryShard => exact ⟨_, address⟩
  | wallet | deferredExec | feeRecord =>
    obtain ⟨_, is⟩ := address
    exact ⟨_, is⟩

/-- The type of bytes is known from any check they pass. -/
theorem Typed.kind_eq {other : AccountDiscriminator} (typed : Typed dep kind key bytes)
    (tag : bytes.byte 0 = other.toByte) : kind = other :=
  AccountDiscriminator.toByte_inj (typed.tag.symm.trans tag)

/-- Approving an instruction keeps an authority's type. -/
theorem Typed.authStep {authPayload signedPayload : Bytes} {discriminator : UInt8} {approval : Approval}
    (typed : Typed dep .authority key old)
    (step : AuthStep dep fr accounts key authPayload signedPayload discriminator old new approval) :
    Typed dep .authority key new := by
  refine ⟨step.check_eq typed.checked, ?_⟩
  have seed : new.slice AuthorityAccountHeader.size 32 = old.slice AuthorityAccountHeader.size 32 :=
    Bytes.slice_congr fun i low _ => step.getElem?_eq (.inr (le_trans (by decide) low))
  rw [AtOwnAddress, step.read_eq, seed]
  exact typed.address

/-- So does evaluating its policy. -/
theorem Typed.policyStep (typed : Typed dep .authority key old) (step : PolicyStep old new) :
    Typed dep .authority key new := by
  rcases step with rfl | ⟨loc, _, _, _, _, _, found, present, evaluated⟩
  · exact typed
  · obtain ⟨_, _, same⟩ := evaluatePostActions_eq_ok present evaluated
    rw [PolicyLocation.of_authority typed.checked, Option.map_eq_some_iff] at found
    obtain ⟨fixed, known, rfl⟩ := found
    have header : ∀ i, i < AuthorityAccountHeader.size → new[i]? = old[i]? := fun i early =>
      same.getElem?_of_lt (early.trans_le (authorityFixedLen_pos known))
    refine ⟨AuthorityAccountHeader.check_congr same.length header typed.checked, ?_⟩
    rw [AtOwnAddress, AuthorityAccountHeader.read_congr header, same.slice_of_le (eighty_le_authorityFixedLen known)]
    exact typed.address

/-- Using a session keeps its type. -/
theorem Typed.sessionStep (typed : Typed dep .session key old) (step : PolicyStep old new) :
    Typed dep .session key new := by
  rcases step with rfl | ⟨loc, _, _, _, _, _, found, present, evaluated⟩
  · exact typed
  · obtain ⟨_, _, same⟩ := evaluatePostActions_eq_ok present evaluated
    obtain ⟨fits, tag, version⟩ := SessionAccount.check_eq_ok.mp typed.checked
    have offset := PolicyLocation.of_session tag found
    have header : ∀ i, i < sessionHeaderSize → new[i]? = old[i]? := fun i early =>
      same.getElem?_of_lt (by rwa [offset])
    refine ⟨SessionAccount.check_eq_ok.mpr ⟨by rwa [same.length], ?_, ?_⟩, ?_⟩
    · rwa [same.byte_of_lt (by rw [offset]; decide)]
    · rwa [same.byte_of_lt (by rw [offset]; decide)]
    · rw [AtOwnAddress, SessionAccount.read_congr header]
      exact typed.address

section Records

variable {reg reg' : Registry} {discriminator : UInt8} {approvals : List Approval}

/-- A record that survives an instruction keeps its type. -/
theorem Fate.typed (fate : Fate dep fr accounts discriminator approvals key old (some new))
    (typed : Typed dep kind key old) : Typed dep kind key new := by
  cases fate with
  | kept => exact typed
  | recounted checked role count =>
    cases typed.kind_eq (WalletAccount.check_eq_ok.mp checked).2.1
    exact ⟨check_recount checked role count, typed.address⟩
  | acted checked _ step policy =>
    cases typed.kind_eq (AuthorityAccountHeader.check_eq_ok.mp checked).2.1
    exact (typed.authStep step).policyStep policy
  | sessionUsed tag policy =>
    cases typed.kind_eq tag
    exact typed.sessionStep policy

/-- Every record that appears has a type; CreateWallet is looked at where its key is known. -/
theorem Transition.typed_birth (transition : Transition dep fr accounts data reg discriminator approvals reg')
    (other : discriminator ≠ 0) (fresh : reg key = none) (born : reg' key = some bytes) :
    ∃ kind, Typed dep kind key bytes := by
  cases transition with
  | protocol | migrate | reclaimLegacy | closeLegacy =>
    rw [fresh] at born
    cases born
  | createWallet => exact absurd rfl other
  | @addAuthority _ _ _ created _ _ _ _ _ _ _ parsed live acting _ _ _ address _ stored space =>
    by_cases here : key = created
    · subst here
      rw [Function.update_self] at born
      cases Option.some.inj born
      obtain ⟨parsedKey, _, short⟩ := AddAuthorityArgs.parse_eq_ok parsed
      exact ⟨.authority, typed_newAuthority (short.trans_lt (by decide)) (parseAuthorityKey_seeded parsedKey) stored
        space address⟩
    · rw [Function.update_of_ne here, Function.update_of_ne (ne_of_recorded fresh live.recorded),
        none_of_update fresh acting.recorded] at born
      cases born
  | removeAuthority live acting recorded =>
    rw [Function.update_of_ne (ne_of_recorded fresh recorded),
      Function.update_of_ne (ne_of_recorded fresh live.recorded), none_of_update fresh acting.recorded] at born
    cases born
  | @transferOwnership _ _ created _ _ _ _ _ _ _ _ _ parsed _ acting _ _ address _ stored space =>
    rw [Function.update_of_ne (ne_of_recorded fresh acting.recorded)] at born
    by_cases here : key = created
    · subst here
      rw [Function.update_self] at born
      cases Option.some.inj born
      exact ⟨.authority, typed_newAuthority (by decide)
        (parseNewOwnerKey_seeded (TransferOwnershipArgs.parse_eq_ok parsed).1) stored space address⟩
    · rw [Function.update_of_ne here, fresh] at born
      cases born
  | execute _ acting =>
    rw [none_of_update fresh acting.recorded] at born
    cases born
  | executeSession _ _ recorded =>
    rw [none_of_update fresh recorded] at born
    cases born
  | @createSession _ _ created _ _ _ _ _ _ _ parsed live acting _ _ _ duration address _ =>
    by_cases here : key = created
    · subst here
      rw [Function.update_self] at born
      cases Option.some.inj born
      exact ⟨.session, typed_newSession (ParsedCreateSessionArgs.expiresAt_lt parsed) address⟩
    · rw [Function.update_of_ne here, none_of_update fresh acting.recorded] at born
      cases born
  | @authorize _ _ created _ _ _ _ _ _ _ _ acting _ _ _ _ bound address _ _ =>
    by_cases here : key = created
    · subst here
      rw [Function.update_self] at born
      cases Option.some.inj born
      exact ⟨.deferredExec, typed_newDeferred bound address⟩
    · rw [Function.update_of_ne here, none_of_update fresh acting.recorded] at born
      cases born
  | executeDeferred _ _ _ recorded | reclaimDeferred _ recorded | closeExpiredSession _ recorded =>
    rw [none_of_update fresh recorded] at born
    cases born
  | revokeSession _ acting _ recorded =>
    rw [Function.update_of_ne (ne_of_recorded fresh recorded), none_of_update fresh acting.recorded] at born
    cases born

theorem processCreateWallet_typed {m m' : Machine Approval} (success : processCreateWallet dep accounts data m = .ok m')
    (fresh : registry dep m.ledger key = none) (born : registry dep m'.ledger key = some bytes) :
    ∃ kind, Typed dep kind key bytes := by
  obtain ⟨wallet, authority, authorityKey, material, _, _, created⟩ := processCreateWallet_created success
  rw [created.registry] at born
  by_cases atAuthority : key = authority
  · subst atAuthority
    rw [Function.update_self] at born
    cases Option.some.inj born
    exact ⟨.authority, typed_newAuthority (by decide) (parseAuthorityKey_seeded created.parsed) created.stored
      (storedKeyMaterial_length (parseAuthorityKey_complete created.parsed) created.stored) created.address⟩
  · rw [Function.update_of_ne atAuthority] at born
    by_cases atWallet : key = wallet
    · rw [atWallet, Function.update_self] at born
      cases Option.some.inj born
      rw [atWallet, created.walletAddress]
      exact ⟨.wallet, typed_newWallet ..⟩
    · rw [Function.update_of_ne atWallet, fresh] at born
      cases born

end Records

end LazorKit
