import LazorKit.Proofs.ConcreteRun
import LazorKit.Soundness.OwnerCount

/-! # What a rank can change

Without an Owner's approval nothing happens to a wallet's Owners and Admins; without an Admin's
either, nothing new comes into existence that names the wallet. Both are read off the custody steps,
where the rank that approved each change is part of the step, and then carried along a run.
-/

namespace LazorKit

open Solana

/-- Replacing one face does not decide whether some address has the face `wanted`, if it does not
where it happens. -/
theorem update_eq_iff {f : Pubkey → Face} {at_ : Pubkey} {v wanted : Face}
    (same : v = wanted ↔ f at_ = wanted) (key : Pubkey) :
    Function.update f at_ v key = wanted ↔ f key = wanted := by
  by_cases here : key = at_
  · rw [here, Function.update_self, same]
  · rw [Function.update_of_ne here]

/-- An Admin creates Delegates only. -/
theorem canAdd_of_not_owner {actor role : UInt8} (allowed : canAdd actor role = true) (other : actor ≠ rankOwner) :
    actor = rankAdmin ∧ role = rankDelegate := by
  unfold canAdd at allowed
  rw [if_neg other] at allowed
  split at allowed
  · cases allowed
  · split at allowed
    · next admin => exact ⟨admin, by simpa using allowed⟩
    · cases allowed

/-- An Admin removes Delegates only. -/
theorem canRemove_of_not_owner {actor role : UInt8} {count : ℕ} (allowed : canRemove actor role count = true)
    (other : actor ≠ rankOwner) : actor = rankAdmin ∧ role = rankDelegate := by
  unfold canRemove at allowed
  rw [if_neg (by tauto), if_neg other] at allowed
  simpa using allowed

private theorem CustodyStep.wallet_kept {f f' : Pubkey → Face} {discriminator : UInt8}
    {approver : Option (Pubkey × UInt8)} (step : CustodyStep f discriminator approver f') {wallet : Pubkey}
    (live : ∃ count, f wallet = .wallet count) : ∃ count, f' wallet = .wallet count := by
  obtain ⟨count, live⟩ := live
  have anchored {anchor key : Pubkey} {count' : ℕ} {v : Face} (other : key ≠ wallet) :
      ∃ count, Function.update (Function.update f anchor (.wallet count')) key v wallet = .wallet count := by
    rw [Function.update_of_ne other.symm]
    by_cases same : wallet = anchor
    · exact ⟨count', by rw [same, Function.update_self]⟩
    · exact ⟨count, by rwa [Function.update_of_ne same]⟩
  cases step with
  | idle => exact ⟨count, live⟩
  | createWallet _ ownerVacant _ => exact anchored (ne_of_faces live ownerVacant (by simp))
  | addAuthority _ vacant _ => exact anchored (ne_of_faces live vacant (by simp))
  | removeAuthority _ held _ => exact anchored (ne_of_faces live held (by simp))
  | transferOwnership _ held vacant =>
    have notCurrent := ne_of_faces live held (by simp)
    have notKey := ne_of_faces live vacant (by simp)
    exact ⟨count, by rwa [Function.update_of_ne notCurrent.symm, Function.update_of_ne notKey.symm]⟩
  | createSession _ vacant | authorize _ vacant => exact ⟨count, wallet_of_update (by simp [vacant]) live⟩
  | revokeSession held => exact ⟨count, wallet_of_update (by simp [held]) live⟩
  | expire _ held _ => exact ⟨count, wallet_of_update held live⟩

/-- Without an Owner of the wallet, no authority of rank Owner or Admin appears, goes or changes. -/
theorem CustodyStep.senior_iff {f f' : Pubkey → Face} {discriminator : UInt8}
    {approver : Option (Pubkey × UInt8)} (step : CustodyStep f discriminator approver f') {wallet : Pubkey}
    (live : ∃ count, f wallet = .wallet count) (noOwner : approver ≠ some (wallet, rankOwner))
    {key : Pubkey} {role kind : UInt8} {material : Bytes} (senior : role ≤ rankAdmin) :
    f' key = .authority wallet role kind material ↔ f key = .authority wallet role kind material := by
  obtain ⟨count, live⟩ := live
  have notDelegate : role ≠ rankDelegate := by
    rintro rfl
    exact absurd senior (by decide)
  cases step with
  | idle => exact Iff.rfl
  | createWallet walletVacant ownerVacant distinct =>
    have other := ne_of_faces live walletVacant (by simp)
    rw [update_eq_iff, update_eq_iff]
    · simp [walletVacant]
    · simp [Function.update_of_ne distinct, ownerVacant, other]
  | @addAuthority anchor added _ actor role' _ _ anchorLive vacant allowed =>
    have distinct : added ≠ anchor := ne_of_faces anchorLive vacant (by simp)
    rw [update_eq_iff, update_eq_iff]
    · simp [anchorLive]
    · rw [Function.update_of_ne distinct, vacant]
      refine ⟨fun same => ?_, fun same => by cases same⟩
      cases same
      have notOwner : actor ≠ rankOwner := fun owner => noOwner (by rw [owner])
      exact absurd (canAdd_of_not_owner allowed notOwner).2 notDelegate
  | @removeAuthority anchor removed _ actor role' _ _ anchorLive held allowed =>
    have distinct : removed ≠ anchor := ne_of_faces anchorLive held (by simp)
    rw [update_eq_iff, update_eq_iff]
    · simp [anchorLive]
    · rw [Function.update_of_ne distinct, held]
      refine ⟨fun same => (by cases same), fun same => ?_⟩
      cases same
      have notOwner : actor ≠ rankOwner := fun owner => noOwner (by rw [owner])
      exact absurd (canRemove_of_not_owner allowed notOwner).2 notDelegate
  | @transferOwnership anchor current new _ _ _ _ _ _ held vacant =>
    have other : anchor ≠ wallet := fun same => noOwner (by rw [same])
    have distinct : current ≠ new := by
      rintro rfl
      rw [held] at vacant
      cases vacant
    rw [update_eq_iff, update_eq_iff]
    · simp [vacant, other]
    · simp [Function.update_of_ne distinct, held, other]
  | createSession _ vacant | authorize _ vacant => exact update_eq_iff (by simp [vacant]) key
  | revokeSession held => exact update_eq_iff (by simp [held]) key
  | expire _ _ spared => exact update_eq_iff (by simp [spared]) key

/-- Without an Owner or an Admin of the wallet, nothing that names it appears, and what goes goes by
execution, reclaim or expiry. -/
theorem CustodyStep.names_of_names {f f' : Pubkey → Face} {discriminator : UInt8}
    {approver : Option (Pubkey × UInt8)} (step : CustodyStep f discriminator approver f') {wallet : Pubkey}
    (live : ∃ count, f wallet = .wallet count) (noOwner : approver ≠ some (wallet, rankOwner))
    (noAdmin : approver ≠ some (wallet, rankAdmin)) (key : Pubkey) :
    ((f' key).names = some wallet → (f key).names = some wallet) ∧
      ((f key).names = some wallet → (f' key).names ≠ some wallet →
        discriminator = 7 ∨ discriminator = 8 ∨ discriminator = 18) := by
  obtain ⟨count, live⟩ := live
  have junior {actor : UInt8} (rank : actor ≤ rankAdmin) : approver ≠ some (wallet, actor) := by
    have cases : actor = rankOwner ∨ actor = rankAdmin := by
      have bound : actor.toNat ≤ 1 := rank
      have value : actor.toNat = 0 ∨ actor.toNat = 1 := by omega
      exact value.imp (fun zero => UInt8.toNat_inj.mp zero) (fun one => UInt8.toNat_inj.mp one)
    rcases cases with rfl | rfl
    · exact noOwner
    · exact noAdmin
  have kept {at_ : Pubkey} {v : Face} {g : Pubkey → Face} (old : (g at_).names ≠ some wallet)
      (new : v.names ≠ some wallet) :
      (Function.update g at_ v key).names = some wallet ↔ (g key).names = some wallet := by
    by_cases here : key = at_
    · rw [here, Function.update_self]
      simp [old, new]
    · rw [Function.update_of_ne here]
  have same (iff : (f' key).names = some wallet ↔ (f key).names = some wallet) :
      ((f' key).names = some wallet → (f key).names = some wallet) ∧
        ((f key).names = some wallet → (f' key).names ≠ some wallet →
          discriminator = 7 ∨ discriminator = 8 ∨ discriminator = 18) :=
    ⟨iff.mp, fun now gone => absurd (iff.mpr now) gone⟩
  cases step with
  | idle => exact same Iff.rfl
  | createWallet walletVacant ownerVacant distinct =>
    have other := ne_of_faces live walletVacant (by simp)
    exact same ((kept (by simp [Function.update_of_ne distinct, ownerVacant, Face.names])
      (by simp [Face.names, other])).trans (kept (by simp [walletVacant, Face.names]) (by simp [Face.names])))
  | @addAuthority anchor added _ actor _ _ _ anchorLive vacant allowed =>
    have distinct : added ≠ anchor := ne_of_faces anchorLive vacant (by simp)
    have other : anchor ≠ wallet := by
      rintro rfl
      have rank : actor ≠ rankOwner := fun owner => noOwner (by rw [owner])
      exact noAdmin (by rw [(canAdd_of_not_owner allowed rank).1])
    exact same ((kept (by simp [Function.update_of_ne distinct, vacant, Face.names])
      (by simp [Face.names, other])).trans (kept (by simp [anchorLive, Face.names]) (by simp [Face.names])))
  | @removeAuthority anchor removed _ actor _ _ _ anchorLive held allowed =>
    have distinct : removed ≠ anchor := ne_of_faces anchorLive held (by simp)
    have other : anchor ≠ wallet := by
      rintro rfl
      have rank : actor ≠ rankOwner := fun owner => noOwner (by rw [owner])
      exact noAdmin (by rw [(canRemove_of_not_owner allowed rank).1])
    exact same ((kept (by simp [Function.update_of_ne distinct, held, Face.names, other])
      (by simp [Face.names])).trans (kept (by simp [anchorLive, Face.names]) (by simp [Face.names])))
  | @transferOwnership anchor current new _ _ _ _ _ _ held vacant =>
    have other : anchor ≠ wallet := fun here => noOwner (by rw [here])
    have distinct : current ≠ new := by
      rintro rfl
      rw [held] at vacant
      cases vacant
    exact same ((kept (by simp [Function.update_of_ne distinct, held, Face.names, other])
      (by simp [Face.names])).trans (kept (by simp [vacant, Face.names]) (by simp [Face.names, other])))
  | @createSession anchor _ _ _ _ vacant rank =>
    have other : anchor ≠ wallet := fun here => junior rank (by rw [here])
    exact same (kept (by simp [vacant, Face.names]) (by simp [Face.names, other]))
  | @authorize anchor _ _ _ _ vacant rank =>
    have other : anchor ≠ wallet := fun here => junior rank (by rw [here])
    exact same (kept (by simp [vacant, Face.names]) (by simp [Face.names, other]))
  | @revokeSession anchor _ _ held rank =>
    have other : anchor ≠ wallet := fun here => junior rank (by rw [here])
    exact same (kept (by simp [held, Face.names, other]) (by simp [Face.names]))
  | @expire gone _ which _ _ =>
    refine ⟨fun now => ?_, fun _ _ => which⟩
    by_cases here : key = gone
    · rw [here, Function.update_self] at now
      simp [Face.names] at now
    · rwa [Function.update_of_ne here] at now

section Runs

variable {dep : Deployment} {start : Ledger} {events : List Event} {wallet : Pubkey}

/-- The Owner and Admin authorities of a wallet: address, rank, key type and keys. -/
def seniorAuthorities (dep : Deployment) (ledger : Ledger) (wallet : Pubkey) :
    Set (Pubkey × UInt8 × UInt8 × Bytes) :=
  {entry | LiveAuthority dep ledger entry.1 ∧
    (AuthorityAccountHeader.read (ledger entry.1).data).wallet = wallet ∧
    (AuthorityAccountHeader.read (ledger entry.1).data).role = entry.2.1 ∧ entry.2.1 ≤ rankAdmin ∧
    (AuthorityAccountHeader.read (ledger entry.1).data).authorityType = entry.2.2.1 ∧
    keyMaterial (ledger entry.1).data = entry.2.2.2}

/-- The live authorities, sessions and deferred authorizations that name a wallet. -/
def dependents (dep : Deployment) (ledger : Ledger) (wallet : Pubkey) : Set Pubkey :=
  {key | (ledger key).owner = dep.programId ∧
    ((AuthorityAccountHeader.check (ledger key).data = .ok () ∧
        (AuthorityAccountHeader.read (ledger key).data).wallet = wallet) ∨
      (SessionAccount.check (ledger key).data = .ok () ∧ (SessionAccount.read (ledger key).data).wallet = wallet) ∨
      (DeferredExecAccount.check (ledger key).data = .ok () ∧
        (DeferredExecAccount.read (ledger key).data).wallet = wallet))}

/-- In the `k`th event an authority of the wallet with this rank approves a successful instruction. -/
def RankActsAt (dep : Deployment) (start : Ledger) (events : List Event) (k : ℕ) (wallet : Pubkey)
    (rank : UInt8) : Prop :=
  ∃ call m key discriminator assertion, SucceedsAt dep start events k call m ∧
    Approval.authority key discriminator assertion ∈ m.approved ∧
    LiveAuthority dep (ledgerAt dep start events k) key ∧
    (AuthorityAccountHeader.read (ledgerAt dep start events k key).data).wallet = wallet ∧
    (AuthorityAccountHeader.read (ledgerAt dep start events k key).data).role = rank

private theorem mem_seniorAuthorities {ledger : Ledger} {key : Pubkey} {role kind : UInt8} {material : Bytes} :
    (key, role, kind, material) ∈ seniorAuthorities dep ledger wallet ↔
      role ≤ rankAdmin ∧ faces (registry dep ledger) key = .authority wallet role kind material := by
  constructor
  · rintro ⟨live, named, rank, senior, type, keys⟩
    exact ⟨senior, face_eq_authority.mpr ⟨_, registry_of_liveAuthority live, live.2, named, rank, type, keys⟩⟩
  · rintro ⟨senior, held⟩
    obtain ⟨bytes, recorded, checked, named, rank, type, keys⟩ := face_eq_authority.mp held
    obtain ⟨owned, rfl, _⟩ := registry_eq_some.mp recorded
    exact ⟨⟨owned, checked⟩, named, rank, senior, type, keys⟩

private theorem names_face {bytes : Bytes} : (face (some bytes)).names = some wallet ↔
    (AuthorityAccountHeader.check bytes = .ok () ∧ (AuthorityAccountHeader.read bytes).wallet = wallet) ∨
      (SessionAccount.check bytes = .ok () ∧ (SessionAccount.read bytes).wallet = wallet) ∨
      (DeferredExecAccount.check bytes = .ok () ∧ (DeferredExecAccount.read bytes).wallet = wallet) := by
  constructor
  · intro named
    simp only [face] at named
    split at named
    · simp [Face.names] at named
    · split at named
      · next checked => exact .inl ⟨succeeded_eq_true.mp checked, by simpa [Face.names] using named⟩
      · split at named
        · next checked => exact .inr (.inl ⟨succeeded_eq_true.mp checked, by simpa [Face.names] using named⟩)
        · split at named
          · next checked => exact .inr (.inr ⟨succeeded_eq_true.mp checked, by simpa [Face.names] using named⟩)
          · simp [Face.names] at named
  · rintro (⟨checked, named⟩ | ⟨checked, named⟩ | ⟨checked, named⟩)
    · rw [face_authority checked, Face.names, named]
    · rw [face_session checked, Face.names, named]
    · rw [face_deferred checked, Face.names, named]

private theorem mem_dependents {ledger : Ledger} {key : Pubkey} :
    key ∈ dependents dep ledger wallet ↔ (faces (registry dep ledger) key).names = some wallet := by
  constructor
  · rintro ⟨owned, named⟩
    have tag : isRecordTag ((ledger key).data.byte 0) = true := by
      rcases named with ⟨checked, _⟩ | ⟨checked, _⟩ | ⟨checked, _⟩
      · exact isRecordTag_authority checked
      · exact isRecordTag_session (SessionAccount.check_eq_ok.mp checked).2.1
      · exact isRecordTag_deferred checked
    rw [faces, registry_eq_some.mpr ⟨owned, rfl, tag⟩, names_face]
    exact named
  · intro named
    cases recorded : registry dep ledger key with
    | none =>
      rw [faces, recorded] at named
      simp [face, Face.names] at named
    | some bytes =>
      rw [faces, recorded, names_face] at named
      obtain ⟨owned, rfl, _⟩ := registry_eq_some.mp recorded
      exact ⟨owned, named⟩

/-- Whatever a successful call does to custody, the rank it needed acted in it. -/
theorem SucceedsAt.custody {k : ℕ} {call : Call} {m : Machine Approval}
    (success : SucceedsAt dep start events k call m) :
    ∃ approver, CustodyStep (faces (registryAt dep start events k)) call.discriminator approver
        (faces (registryAt dep start events (k + 1))) ∧
      ∀ wallet rank, approver = some (wallet, rank) → RankActsAt dep start events k wallet rank := by
  obtain ⟨approver, step, approved⟩ := success.transition.custody
  refine ⟨approver, step, fun wallet rank same => ?_⟩
  obtain ⟨key, discriminator, assertion, kind, material, member, held⟩ := approved wallet rank same
  obtain ⟨bytes, recorded, checked, named, role, _⟩ := face_eq_authority.mp held
  obtain ⟨owned, rfl, _⟩ := registry_eq_some.mp recorded
  exact ⟨call, m, key, discriminator, assertion, success, member, ⟨owned, checked⟩, named, role⟩

/-- A live wallet stays live. -/
theorem wallet_kept_between {i k : ℕ} (genesis : Genesis dep start) (le : i ≤ k)
    (live : ∃ count, faces (registryAt dep start events i) wallet = .wallet count) :
    ∃ count, faces (registryAt dep start events k) wallet = .wallet count := by
  refine registry_invariant_between (P := fun reg => ∃ count, faces reg wallet = .wallet count)
    genesis.funded le live ?_
  intro k call m _ _ success here
  obtain ⟨_, step, _⟩ := success.custody
  exact step.wallet_kept here

/-- While no Owner of a wallet approves anything, its Owners and Admins stay exactly who they are.
While no Admin does either, nothing that names the wallet comes into existence, and what disappears
was executed, reclaimed or closed after its expiry. -/
theorem custody_without_owner {i j : ℕ} (genesis : Genesis dep start) (le : i ≤ j)
    (live : LiveWallet dep (ledgerAt dep start events i) wallet)
    (noOwner : ∀ k, i ≤ k → k < j → ¬RankActsAt dep start events k wallet rankOwner) :
    seniorAuthorities dep (ledgerAt dep start events j) wallet =
        seniorAuthorities dep (ledgerAt dep start events i) wallet ∧
      ((∀ k, i ≤ k → k < j → ¬RankActsAt dep start events k wallet rankAdmin) →
        ∀ k, i ≤ k → k < j →
          dependents dep (ledgerAt dep start events (k + 1)) wallet ⊆
              dependents dep (ledgerAt dep start events k) wallet ∧
            ∀ key ∈ dependents dep (ledgerAt dep start events k) wallet,
              key ∉ dependents dep (ledgerAt dep start events (k + 1)) wallet →
              ∃ call m, SucceedsAt dep start events k call m ∧
                (call.discriminator = 7 ∨ call.discriminator = 8 ∨ call.discriminator = 18)) := by
  have liveFace : ∃ count, faces (registryAt dep start events i) wallet = .wallet count :=
    ⟨_, by rw [faces, registryAt, registry_of_liveWallet live, face_wallet live.2]⟩
  constructor
  · ext ⟨key, role, kind, material⟩
    rw [mem_seniorAuthorities, mem_seniorAuthorities]
    apply and_congr_right
    intro senior
    refine registry_invariant_between (P := fun reg => faces reg key = .authority wallet role kind material ↔
      faces (registryAt dep start events i) key = .authority wallet role kind material)
      genesis.funded le Iff.rfl ?_
    intro k call m low high success here
    obtain ⟨approver, step, approved⟩ := success.custody
    refine (step.senior_iff (wallet_kept_between genesis low liveFace) ?_ senior).trans here
    exact fun owner => noOwner k low high (approved wallet rankOwner owner)
  · intro noAdmin k low high
    rcases registryAt_succ events genesis.funded k with ⟨same, _⟩ | ⟨call, m, success⟩
    · have kept (key : Pubkey) : key ∈ dependents dep (ledgerAt dep start events (k + 1)) wallet ↔
          key ∈ dependents dep (ledgerAt dep start events k) wallet := by
        rw [mem_dependents, mem_dependents, ← registryAt, ← registryAt, same]
      exact ⟨fun key => (kept key).mp, fun key now gone => absurd ((kept key).mpr now) gone⟩
    · obtain ⟨approver, step, approved⟩ := success.custody
      have names := step.names_of_names (wallet_kept_between genesis low liveFace)
        (fun owner => noOwner k low high (approved wallet rankOwner owner))
        (fun admin => noAdmin k low high (approved wallet rankAdmin admin))
      refine ⟨fun key now => mem_dependents.mpr ((names key).1 (mem_dependents.mp now)), fun key now gone => ?_⟩
      exact ⟨call, m, success, (names key).2 (mem_dependents.mp now) fun still => gone (mem_dependents.mpr still)⟩

end Runs

/-- The wallet and rank of every authority that approves an event, by evaluation. -/
def actingRanks (dep : Deployment) (ledger : Ledger) : Event → List (Pubkey × UInt8)
  | .call call =>
    match call.execute dep ledger with
    | .ok m => m.approved.filterMap fun
      | .authority key _ _ =>
        some ((AuthorityAccountHeader.read (ledger key).data).wallet,
          (AuthorityAccountHeader.read (ledger key).data).role)
      | _ => none
    | .error _ => []
  | _ => []

private theorem RankActsAt.mem_actingRanks {k : ℕ} {event : Event} {rank : UInt8}
    (acts : RankActsAt dep start events k wallet rank)
    (at_ : events[k]? = some event) : (wallet, rank) ∈ actingRanks dep (ledgerAt dep start events k) event := by
  obtain ⟨call, m, key, discriminator, assertion, success, member, _, named, role⟩ := acts
  have isCall : event = .call call := Option.some.inj (at_.symm.trans success.1)
  rw [isCall, actingRanks, success.2]
  exact List.mem_filterMap.mpr ⟨_, member, by dsimp only; rw [named, role]⟩

/-- An Admin executes and authorizes, and nobody's rank changes; then anyone executes what was authorized, and the
authorization alone is gone. -/
theorem custody_without_owner_sample :
    seniorAuthorities Sample.deployment (ledgerAt Sample.deployment Ledger.empty Sample.events 9) Sample.wallet =
        seniorAuthorities Sample.deployment (ledgerAt Sample.deployment Ledger.empty Sample.events 6) Sample.wallet ∧
      dependents Sample.deployment (ledgerAt Sample.deployment Ledger.empty Sample.events 9) Sample.wallet ⊆
        dependents Sample.deployment (ledgerAt Sample.deployment Ledger.empty Sample.events 8) Sample.wallet ∧
      Sample.deferred ∈
        dependents Sample.deployment (ledgerAt Sample.deployment Ledger.empty Sample.events 8) Sample.wallet ∧
      ∃ call m, SucceedsAt Sample.deployment Ledger.empty Sample.events 8 call m ∧
        (call.discriminator = 7 ∨ call.discriminator = 8 ∨ call.discriminator = 18) := by
  -- everything that is found by running the events, at once
  have facts : (LiveWallet Sample.deployment (ledgerAt Sample.deployment Ledger.empty Sample.events 6) Sample.wallet ∧
        LiveWallet Sample.deployment (ledgerAt Sample.deployment Ledger.empty Sample.events 8) Sample.wallet) ∧
      (Sample.deferred ∈
          dependents Sample.deployment (ledgerAt Sample.deployment Ledger.empty Sample.events 8) Sample.wallet ∧
        Sample.deferred ∉
          dependents Sample.deployment (ledgerAt Sample.deployment Ledger.empty Sample.events 9) Sample.wallet) ∧
      ((Sample.wallet, rankOwner) ∉ actingRanks Sample.deployment
          (ledgerAt Sample.deployment Ledger.empty Sample.events 6) (.call Sample.executeB) ∧
        (Sample.wallet, rankOwner) ∉ actingRanks Sample.deployment
          (ledgerAt Sample.deployment Ledger.empty Sample.events 7) (.call Sample.authorize) ∧
        actingRanks Sample.deployment (ledgerAt Sample.deployment Ledger.empty Sample.events 8)
          (.call Sample.executeDeferred) = []) := by
    simp only [LiveWallet, dependents, Set.mem_ofPred_eq]
    decide +kernel
  obtain ⟨⟨liveAt6, liveAt8⟩, ⟨authorized, executed⟩, noOwnerAt6, noOwnerAt7, nobodyAt8⟩ := facts
  have nobody (rank : UInt8) :
      ¬RankActsAt Sample.deployment Ledger.empty Sample.events 8 Sample.wallet rank := by
    intro acts
    have acting := acts.mem_actingRanks rfl
    rw [nobodyAt8] at acting
    cases acting
  have noOwner (k : ℕ) (low : 6 ≤ k) (high : k < 9) :
      ¬RankActsAt Sample.deployment Ledger.empty Sample.events k Sample.wallet rankOwner := by
    have which : k = 6 ∨ k = 7 ∨ k = 8 := by omega
    rcases which with rfl | rfl | rfl
    · exact fun acts => noOwnerAt6 (acts.mem_actingRanks rfl)
    · exact fun acts => noOwnerAt7 (acts.mem_actingRanks rfl)
    · exact nobody rankOwner
  have kept := (custody_without_owner (genesis_empty _) (by decide) liveAt6 noOwner).1
  have shrinks := (custody_without_owner (i := 8) (j := 9) (genesis_empty _) (by decide) liveAt8
    fun k low high => noOwner k (by omega) high).2
  have noAdmin (k : ℕ) (low : 8 ≤ k) (high : k < 9) :
      ¬RankActsAt Sample.deployment Ledger.empty Sample.events k Sample.wallet rankAdmin := by
    have last : k = 8 := by omega
    subst last
    exact nobody rankAdmin
  obtain ⟨fewer, gone⟩ := shrinks noAdmin 8 (by decide) (by decide)
  exact ⟨kept, fewer, authorized, gone Sample.deferred authorized executed⟩

end LazorKit
