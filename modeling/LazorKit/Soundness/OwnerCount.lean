import LazorKit.Proofs.ConcreteRun
import LazorKit.Soundness.Custody
import LazorKit.ToMathlib.CountUpdate

/-! # The owner count is the number of Owners

The wallet stores how many of its authorities are Owners, apart from the authorities themselves.
Over the custody picture the two agree: the count is kept step by step, and a new wallet starts from
none because an authority never names a wallet that does not exist.
-/

namespace LazorKit

open Solana

namespace Face

variable {wallet : Pubkey}

@[simp] theorem isOwnerOf_authority {named : Pubkey} {role kind : UInt8} {material : Bytes} :
    (Face.authority named role kind material).IsOwnerOf wallet ↔ named = wallet ∧ role = rankOwner := by
  simp [IsOwnerOf]

@[simp] theorem not_isOwnerOf_wallet (count : ℕ) : ¬(Face.wallet count).IsOwnerOf wallet := by simp [IsOwnerOf]

@[simp] theorem not_isOwnerOf_vacant : ¬Face.vacant.IsOwnerOf wallet := by simp [IsOwnerOf]

@[simp] theorem not_isOwnerOf_session (named : Pubkey) : ¬(Face.session named).IsOwnerOf wallet := by
  simp [IsOwnerOf]

@[simp] theorem not_isOwnerOf_deferred (named : Pubkey) : ¬(Face.deferred named).IsOwnerOf wallet := by
  simp [IsOwnerOf]

end Face

/-- The addresses of a wallet's Owners. -/
def ownersOf (f : Pubkey → Face) (wallet : Pubkey) : Set Pubkey := {key | (f key).IsOwnerOf wallet}

/-- Counts are right and positive, and every authority's wallet exists. -/
structure Consistent (f : Pubkey → Face) : Prop where
  counted : ∀ wallet count, f wallet = .wallet count → count = (ownersOf f wallet).ncard ∧ 1 ≤ count
  anchored : ∀ key wallet role kind material, f key = .authority wallet role kind material →
    ∃ count, f wallet = .wallet count

section Step

variable {f f' : Pubkey → Face} {discriminator : UInt8} {approver : Option (Pubkey × UInt8)}

open scoped Classical in
private theorem ncard_ownersOf_update (f : Pubkey → Face) (key : Pubkey) (v : Face) (wallet : Pubkey) :
    (ownersOf (Function.update f key v) wallet).ncard + (if (f key).IsOwnerOf wallet then 1 else 0) =
      (ownersOf f wallet).ncard + (if v.IsOwnerOf wallet then 1 else 0) :=
  Function.ncard_update f key v (Face.IsOwnerOf wallet)

open scoped Classical in
/-- The number of Owners after a wallet's face and another one were replaced. -/
theorem ncard_ownersOf_update₂ {key : Pubkey} {anchor : Pubkey} (distinct : key ≠ anchor) (count : ℕ) (v : Face)
    (wallet : Pubkey) (old : ∀ wallet, ¬(f anchor).IsOwnerOf wallet) :
    (ownersOf (Function.update (Function.update f anchor (.wallet count)) key v) wallet).ncard +
        (if (f key).IsOwnerOf wallet then 1 else 0) =
      (ownersOf f wallet).ncard + (if v.IsOwnerOf wallet then 1 else 0) := by
  have outer := ncard_ownersOf_update (Function.update f anchor (.wallet count)) key v wallet
  have inner := ncard_ownersOf_update f anchor (.wallet count) wallet
  rw [Function.update_of_ne distinct] at outer
  rw [if_neg (old wallet), if_neg (Face.not_isOwnerOf_wallet count)] at inner
  omega

/-- A wallet that does not exist has no Owners. -/
theorem Consistent.ownersOf_eq_empty (consistent : Consistent f) {wallet : Pubkey}
    (missing : ∀ count, f wallet ≠ .wallet count) : ownersOf f wallet = ∅ := by
  ext key
  simp only [ownersOf, Set.mem_ofPred_eq, Set.mem_empty_iff_false, iff_false]
  rintro ⟨kind, material, held⟩
  obtain ⟨count, live⟩ := consistent.anchored key wallet rankOwner kind material held
  exact missing count live

/-- Replacing a face that is no wallet by one that is none leaves every wallet where it was. -/
theorem wallet_of_update {key : Pubkey} {v : Face} {wallet : Pubkey} {count : ℕ}
    (old : ∀ count, f key ≠ .wallet count) (live : f wallet = .wallet count) :
    Function.update f key v wallet = .wallet count := by
  have other : wallet ≠ key := by
    rintro rfl
    exact old count live
  rwa [Function.update_of_ne other]

private theorem wallet_of_update_eq {key : Pubkey} {v : Face} {wallet : Pubkey} {count : ℕ}
    (new : ∀ count, v ≠ .wallet count) (live : Function.update f key v wallet = .wallet count) :
    wallet ≠ key ∧ f wallet = .wallet count := by
  have other : wallet ≠ key := by
    rintro rfl
    rw [Function.update_self] at live
    exact new count live
  exact ⟨other, by rwa [Function.update_of_ne other] at live⟩

/-- Replacing one face that is neither a wallet nor an Owner by another such face. -/
theorem Consistent.update {key : Pubkey} {v : Face} (consistent : Consistent f)
    (oldWallet : ∀ count, f key ≠ .wallet count) (newWallet : ∀ count, v ≠ .wallet count)
    (oldOwner : ∀ wallet, ¬(f key).IsOwnerOf wallet) (newOwner : ∀ wallet, ¬v.IsOwnerOf wallet)
    (anchored : ∀ wallet role kind material, v = .authority wallet role kind material →
      ∃ count, f wallet = .wallet count) : Consistent (Function.update f key v) where
  counted wallet count live := by
    obtain ⟨_, before⟩ := wallet_of_update_eq newWallet live
    have same := ncard_ownersOf_update f key v wallet
    rw [if_neg (oldOwner wallet), if_neg (newOwner wallet)] at same
    have counted := consistent.counted wallet count before
    omega
  anchored other wallet role kind material held := by
    have before : ∃ count, f wallet = .wallet count := by
      by_cases same : other = key
      · subst same
        rw [Function.update_self] at held
        exact anchored wallet role kind material held
      · rw [Function.update_of_ne same] at held
        exact consistent.anchored other wallet role kind material held
    obtain ⟨count, live⟩ := before
    exact ⟨count, wallet_of_update oldWallet live⟩

/-- Replacing a wallet's count together with one of its authorities. -/
theorem Consistent.update₂ {anchor key : Pubkey} {count' : ℕ} {v : Face} (consistent : Consistent f)
    (distinct : key ≠ anchor) (anchorOwner : ∀ wallet, ¬(f anchor).IsOwnerOf wallet)
    (oldWallet : ∀ count, f key ≠ .wallet count) (newWallet : ∀ count, v ≠ .wallet count)
    (oldOwner : ∀ wallet, (f key).IsOwnerOf wallet → wallet = anchor)
    (newNames : ∀ wallet role kind material, v = .authority wallet role kind material → wallet = anchor)
    (counted : count' = (ownersOf (Function.update (Function.update f anchor (.wallet count')) key v)
      anchor).ncard ∧ 1 ≤ count') :
    Consistent (Function.update (Function.update f anchor (.wallet count')) key v) where
  counted wallet count live := by
    obtain ⟨_, before⟩ := wallet_of_update_eq newWallet live
    by_cases same : wallet = anchor
    · subst same
      rw [Function.update_self] at before
      cases before
      exact counted
    · rw [Function.update_of_ne same] at before
      have kept := ncard_ownersOf_update₂ distinct count' v wallet anchorOwner
      have notNew : ¬v.IsOwnerOf wallet := by
        rintro ⟨kind, material, rfl⟩
        exact same (newNames wallet rankOwner kind material rfl)
      rw [if_neg (fun owner => same (oldOwner wallet owner)), if_neg notNew] at kept
      have old := consistent.counted wallet count before
      omega
  anchored other wallet role kind material held := by
    have inner : ∃ count, Function.update f anchor (.wallet count') wallet = .wallet count := by
      by_cases same : wallet = anchor
      · exact ⟨count', by rw [same, Function.update_self]⟩
      · have named : f other = .authority wallet role kind material := by
          by_cases atKey : other = key
          · subst atKey
            rw [Function.update_self] at held
            exact absurd (newNames wallet role kind material held) same
          · rw [Function.update_of_ne atKey] at held
            by_cases atAnchor : other = anchor
            · subst atAnchor
              rw [Function.update_self] at held
              cases held
            · rwa [Function.update_of_ne atAnchor] at held
        rw [Function.update_of_ne same]
        exact consistent.anchored other wallet role kind material named
    obtain ⟨count, live⟩ := inner
    exact ⟨count, wallet_of_update (by rwa [Function.update_of_ne distinct]) live⟩

/-- Replacing one Owner of a wallet by a new one. -/
theorem Consistent.transfer {wallet current key : Pubkey} {count : ℕ} {kind kind' : UInt8}
    {material material' : Bytes} (consistent : Consistent f) (live : f wallet = .wallet count)
    (held : f current = .authority wallet rankOwner kind material) (vacant : f key = .vacant)
    (distinct : key ≠ current) :
    Consistent (Function.update (Function.update f key (.authority wallet rankOwner kind' material')) current
      .vacant) where
  counted other count' live' := by
    obtain ⟨_, inner⟩ := wallet_of_update_eq (by simp) live'
    obtain ⟨_, before⟩ := wallet_of_update_eq (by simp) inner
    have added := ncard_ownersOf_update f key (.authority wallet rankOwner kind' material') other
    have removed := ncard_ownersOf_update
      (Function.update f key (.authority wallet rankOwner kind' material')) current .vacant other
    rw [Function.update_of_ne distinct.symm] at removed
    simp only [vacant, held, Face.not_isOwnerOf_vacant, Face.isOwnerOf_authority, and_true, if_false] at added removed
    have counted := consistent.counted other count' before
    omega
  anchored other named role kind material same := by
    have before : ∃ count, f named = .wallet count := by
      by_cases atCurrent : other = current
      · subst atCurrent
        rw [Function.update_self] at same
        cases same
      · rw [Function.update_of_ne atCurrent] at same
        by_cases atKey : other = key
        · subst atKey
          rw [Function.update_self] at same
          cases same
          exact ⟨count, live⟩
        · rw [Function.update_of_ne atKey] at same
          exact consistent.anchored other named role kind material same
    obtain ⟨count', live'⟩ := before
    have inner : Function.update f key (.authority wallet rankOwner kind' material') named = .wallet count' :=
      wallet_of_update (by simp [vacant]) live'
    exact ⟨count', wallet_of_update (by simp [Function.update_of_ne distinct.symm, held]) inner⟩

theorem ne_of_faces {key wallet : Pubkey} {count : ℕ} {v : Face} (live : f wallet = .wallet count)
    (held : f key = v) (other : ∀ count, v ≠ .wallet count) : key ≠ wallet := by
  rintro rfl
  exact other count (held.symm.trans live)

/-- Only an Owner removes an Owner, and never the last. -/
theorem one_lt_of_canRemove_owner {actor : UInt8} {count : ℕ}
    (allowed : canRemove actor rankOwner count = true) : 1 < count := by
  unfold canRemove at allowed
  split at allowed
  · simpa using allowed
  · next notOwner =>
    split at allowed
    · next owner => exact absurd ⟨owner, rfl⟩ notOwner
    · simp [rankOwner, rankDelegate] at allowed

/-- What one instruction can do keeps the counts right. -/
theorem CustodyStep.consistent (step : CustodyStep f discriminator approver f') (consistent : Consistent f) :
    Consistent f' := by
  cases step with
  | idle => exact consistent
  | @createWallet wallet owner kind material walletVacant ownerVacant distinct =>
    refine consistent.update₂ distinct (by simp [walletVacant]) (by simp [ownerVacant]) (by simp)
      (by simp [ownerVacant]) (by rintro _ _ _ _ ⟨⟩; rfl) ⟨?_, le_refl 1⟩
    have count := ncard_ownersOf_update₂ (f := f) distinct 1 (.authority wallet rankOwner kind material) wallet
      (by simp [walletVacant])
    rw [consistent.ownersOf_eq_empty (by simp [walletVacant])] at count
    simpa [ownerVacant] using count.symm
  | @addAuthority wallet key count actor role kind material live vacant allowed =>
    have distinct : key ≠ wallet := ne_of_faces live vacant (by simp)
    obtain ⟨counted, positive⟩ := consistent.counted wallet count live
    refine consistent.update₂ distinct (by simp [live]) (by simp [vacant]) (by simp) (by simp [vacant])
      (by rintro _ _ _ _ ⟨⟩; rfl) ⟨?_, by split <;> omega⟩
    have after := ncard_ownersOf_update₂ (f := f) distinct (if role = rankOwner then count + 1 else count)
      (.authority wallet role kind material) wallet (by simp [live])
    simp only [vacant, Face.not_isOwnerOf_vacant, if_false, Face.isOwnerOf_authority, true_and] at after
    split at after <;> simp_all
  | @removeAuthority wallet key count actor role kind material live held allowed =>
    have distinct : key ≠ wallet := ne_of_faces live held (by simp)
    obtain ⟨counted, positive⟩ := consistent.counted wallet count live
    have several : role = rankOwner → 1 < count := by
      rintro rfl
      exact one_lt_of_canRemove_owner allowed
    have after := ncard_ownersOf_update₂ (f := f) distinct (if role = rankOwner then count - 1 else count)
      .vacant wallet (by simp [live])
    simp only [held, Face.isOwnerOf_authority, true_and, Face.not_isOwnerOf_vacant, if_false] at after
    refine consistent.update₂ distinct (by simp [live]) (by simp [held]) (by simp) ?_ (by simp) ?_
    · intro other owner
      rw [held, Face.isOwnerOf_authority] at owner
      exact owner.1.symm
    · by_cases owner : role = rankOwner
      · have more := several owner
        simp only [if_pos owner] at after ⊢
        omega
      · simp only [if_neg owner] at after ⊢
        omega
  | @transferOwnership wallet current key count kind kind' material material' live held vacant =>
    have distinct : key ≠ current := by
      rintro rfl
      rw [held] at vacant
      cases vacant
    exact consistent.transfer live held vacant distinct
  | @createSession wallet key count actor live vacant _ =>
    exact consistent.update (by simp [vacant]) (by simp) (by simp [vacant]) (by simp) (by simp)
  | @authorize wallet key count actor live vacant _ =>
    exact consistent.update (by simp [vacant]) (by simp) (by simp [vacant]) (by simp) (by simp)
  | revokeSession held =>
    exact consistent.update (by simp [held]) (by simp) (by simp [held]) (by simp) (by simp)
  | expire _ held spared =>
    refine consistent.update held (by simp) ?_ (by simp) (by simp)
    rintro wallet ⟨kind, material, same⟩
    exact spared wallet rankOwner kind material same

end Step

/-- A wallet account of this program, of the current layout. -/
def LiveWallet (dep : Deployment) (ledger : Ledger) (wallet : Pubkey) : Prop :=
  (ledger wallet).owner = dep.programId ∧ WalletAccount.check (ledger wallet).data = .ok ()

/-- An authority account of this program, of the current layout. -/
def LiveAuthority (dep : Deployment) (ledger : Ledger) (key : Pubkey) : Prop :=
  (ledger key).owner = dep.programId ∧ AuthorityAccountHeader.check (ledger key).data = .ok ()

/-- The live authorities of a wallet that hold rank Owner. -/
def ownerAuthorities (dep : Deployment) (ledger : Ledger) (wallet : Pubkey) : Set Pubkey :=
  {key | LiveAuthority dep ledger key ∧ (AuthorityAccountHeader.read (ledger key).data).wallet = wallet ∧
    (AuthorityAccountHeader.read (ledger key).data).role = rankOwner}

theorem registry_of_liveAuthority {dep : Deployment} {ledger : Ledger} {key : Pubkey}
    (live : LiveAuthority dep ledger key) : registry dep ledger key = some (ledger key).data :=
  registry_eq_some.mpr ⟨live.1, rfl, isRecordTag_authority live.2⟩

theorem registry_of_liveWallet {dep : Deployment} {ledger : Ledger} {wallet : Pubkey}
    (live : LiveWallet dep ledger wallet) : registry dep ledger wallet = some (ledger wallet).data :=
  registry_eq_some.mpr ⟨live.1, rfl, isRecordTag_wallet live.2⟩

/-- The Owners custody counts are the live Owner accounts. -/
theorem ownersOf_faces (dep : Deployment) (ledger : Ledger) (wallet : Pubkey) :
    ownersOf (faces (registry dep ledger)) wallet = ownerAuthorities dep ledger wallet := by
  ext key
  simp only [ownersOf, Set.mem_ofPred_eq, ownerAuthorities, Face.IsOwnerOf]
  constructor
  · rintro ⟨kind, material, held⟩
    obtain ⟨bytes, recorded, checked, named, role, _⟩ := face_eq_authority.mp held
    obtain ⟨owned, rfl, _⟩ := registry_eq_some.mp recorded
    exact ⟨⟨owned, checked⟩, named, role⟩
  · rintro ⟨live, named, role⟩
    refine ⟨_, _, face_eq_authority.mpr ⟨_, registry_of_liveAuthority live, live.2, named, role, rfl, rfl⟩⟩

theorem consistent_ledgerAt {dep : Deployment} {start : Ledger} (events : List Event)
    (genesis : Genesis dep start) (i : ℕ) : Consistent (faces (registryAt dep start events i)) := by
  refine registry_invariant (P := fun reg => Consistent (faces reg)) genesis.funded ?_ ?_ i
  · refine ⟨fun wallet count live => ?_, fun key wallet role kind material held => ?_⟩
    · rw [faces_of_fresh (genesis wallet)] at live
      cases live
    · rw [faces_of_fresh (genesis key)] at held
      cases held
  · intro fr accounts data reg discriminator approvals reg' transition consistent
    obtain ⟨_, step, _⟩ := transition.custody
    exact step.consistent consistent

/-- In every state a run can reach from a ledger without records, a live wallet's stored count is the
number of its live Owner authorities, and there is at least one. -/
theorem ownerCount_eq_ncard {dep : Deployment} {start : Ledger} (genesis : Genesis dep start)
    (events : List Event) {wallet : Pubkey} (live : LiveWallet dep (run dep start events) wallet) :
    WalletAccount.readOwnerCount ((run dep start events) wallet).data =
        (ownerAuthorities dep (run dep start events) wallet).ncard ∧
      1 ≤ (ownerAuthorities dep (run dep start events) wallet).ncard := by
  have consistent := consistent_ledgerAt events genesis events.length
  rw [registryAt, ← run_eq_ledgerAt] at consistent
  have held : faces (registry dep (run dep start events)) wallet =
      .wallet (WalletAccount.readOwnerCount ((run dep start events) wallet).data) := by
    rw [faces, registry_of_liveWallet live, face_wallet live.2]
  obtain ⟨counted, positive⟩ := consistent.counted wallet _ held
  rw [ownersOf_faces] at counted
  exact ⟨counted, counted ▸ positive⟩

theorem ownerCount_eq_ncard_sample :
    (ownerAuthorities Sample.deployment (run Sample.deployment Ledger.empty Sample.events) Sample.wallet).ncard =
      2 := by
  have live : LiveWallet Sample.deployment (run Sample.deployment Ledger.empty Sample.events) Sample.wallet := by
    unfold LiveWallet
    decide +kernel
  rw [← (ownerCount_eq_ncard (genesis_empty _) Sample.events live).1]
  decide +kernel

end LazorKit
