import LazorKit.Proofs.PolicyRun
import LazorKit.Proofs.TokenFrame
import LazorKit.Soundness.Counter
import LazorKit.Soundness.PolicyVerdict
import LazorKit.Soundness.Sessions
import LazorKit.Soundness.VaultSigner

/-! # What an Execute charges to the policy it runs under

The balances a limit is held against are the vault's in the ledger: nothing in front of the inner instructions
lowers it, and nothing behind them changes it. And the policy is written by an Execute under it and by nothing
else, least of all by the approval, which may advance a counter in front of it.
-/

namespace LazorKit

open Solana

variable {dep : Deployment} {fr : Frame} {accounts : List AccountInfo} {data : Bytes} {reg reg' : Registry}
  {discriminator : UInt8} {approvals : List Approval} {m m' : Machine Approval} {key : Pubkey} {old new : Bytes}
  {loc : PolicyLocation}

private theorem initializePdaAccount_more {payer target system : AccountInfo} {space rent : ℕ}
    (success : initializePdaAccount dep m payer target system space rent = .ok m') (other : key ≠ payer.key) :
    m.lamports key ≤ m'.lamports key := by
  simp only [initializePdaAccount, Except.bind_eq_ok, Except.ensure_eq_ok, exists_const] at success
  obtain ⟨_, paid, payment, allocated, allocation, assignment⟩ := success
  obtain ⟨_, _, rfl⟩ := Machine.systemAllocate_eq_ok allocation
  have kept : m'.lamports key = paid.lamports key := by
    rw [Machine.systemAssign_eq_ok assignment, Machine.lamports_setAccount, Machine.lamports_setAccount]
    split
    · next same =>
      rw [same]
      simp [Machine.ledger_setAccount, Machine.lamports]
    · rfl
  rw [kept]
  split at payment
  · exact (Machine.systemTransfer_eq_ok payment).2.2.2.1 key other
  · cases payment
    exact le_refl _

/-- Collecting a fee takes from the payer alone. -/
theorem tryCollectFee_more {rest : List AccountInfo} {payer : AccountInfo} (payerAt : accounts[0]? = some payer)
    (other : key ≠ payer.key) (success : tryCollectFee dep fr discriminator accounts m = .ok (m', rest)) :
    m.lamports key ≤ m'.lamports key := by
  simp only [tryCollectFee, Except.bind_eq_ok, Except.ensure_eq_ok, exists_const, accountAt_eq_ok] at success
  obtain ⟨_, config, _, record, _, shard, _, system, _, _, _, success⟩ := success
  split at success
  · cases success
    exact le_refl _
  · simp only [Except.bind_eq_ok, Except.ensure_eq_ok, exists_const, accountAt_eq_ok] at success
    obtain ⟨_, _, _, payer', payerAt', _, _, recorded, ensured, paid, transfer, _, charged, store, result⟩ := success
    cases Except.ok.inj result
    cases Option.some.inj (payerAt.symm.trans payerAt')
    have first : m.lamports key ≤ recorded.lamports key := by
      unfold ensureFeeRecord at ensured
      split at ensured
      · simp only [Except.bind_eq_ok] at ensured
        obtain ⟨made, creation, store⟩ := ensured
        rw [(writeData_eq_ok store).1.lamports]
        exact initializePdaAccount_more creation other
      · split at ensured
        · cases ensured
        · simp only [Except.bind_eq_ok, Except.mapError_eq_ok] at ensured
          obtain ⟨_, _, same⟩ := ensured
          cases Except.ok.inj same
          exact le_refl _
    rw [(writeData_eq_ok store).1.lamports]
    exact first.trans ((Machine.systemTransfer_eq_ok transfer).2.2.2.1 key other)

/-- A wallet carries no policy. -/
theorem PolicyLocation.of_wallet (checked : WalletAccount.check old = .ok ()) : PolicyLocation.of old = none := by
  obtain ⟨fits, tag, _⟩ := WalletAccount.check_eq_ok.mp checked
  match old, fits with
  | disc :: rest, _ =>
    have disc_eq : disc = AccountDiscriminator.wallet.toByte := tag
    rw [disc_eq]
    rfl

/-- An approval does not reach the policy. -/
theorem AuthStep.policy_kept {authPayload signedPayload : Bytes} {approval : Approval}
    (step : AuthStep dep fr accounts key authPayload signedPayload discriminator old new approval)
    (found : PolicyLocation.of old = some loc) :
    PolicyLocation.of new = some loc ∧ loc.slice new = loc.slice old := by
  refine ⟨?_, ?_⟩
  · rw [PolicyLocation.of_congr step.length_eq (step.byte_eq (.inl (by decide))) (step.byte_eq (.inl (by decide))),
      found]
  · have behind := AuthorityAccountHeader.size_le_policyOffset found
    apply List.ext_getElem?
    intro i
    rw [PolicyLocation.slice, PolicyLocation.slice, List.getElem?_drop, List.getElem?_drop]
    exact step.getElem?_eq (.inr (le_trans (by decide) (Nat.le_add_right_of_le behind)))

/-- An Execute under a policy holds it against what left the vault, in the ledgers before and after, and stores what it
says. It touches no other record. -/
theorem processExecute_charges (success : processExecute dep fr accounts data m = .ok m') :
    ∃ payer wallet authority middle, accounts[0]? = some payer ∧ payer.isSigner = true ∧ KeyAt accounts 1 wallet ∧
      KeyAt accounts 2 authority ∧
      (∀ other ≠ authority, registry dep m'.ledger other = registry dep m.ledger other) ∧
      (∀ loc, PolicyLocation.of (m.data authority) = some loc → PolicyLocation.of middle = some loc ∧
        loc.slice middle = loc.slice (m.data authority) ∧
        (loc.isPresent (m.data authority) = true → ∃ gross flows,
          (¬ isTokenProgram dep.programId → ∀ mint, mintOutflow flows mint =
            tokensTaken m.ledger m'.ledger accounts (vaultOf dep wallet) mint) ∧
          evaluatePostActions middle loc (m.lamports (vaultOf dep wallet)) (m'.lamports (vaultOf dep wallet)) gross
            flows fr.slot.toNat = (.ok (), m'.data authority))) := by
  simp only [processExecute, Except.bind_eq_ok, Except.ensure_eq_ok, exists_const, accountAt_eq_ok] at success
  obtain ⟨_, payer, payerAt, payerSigns, walletPda, walletAt, authorityPda, authorityAt, vaultPda, _,
    ⟨_, authorityOwned⟩, _, _, _, _, parsed, _, ⟨authenticated, session⟩, authentication, _, _, vault, progress, loop,
    tail⟩ := success
  have approved : (∀ key, authenticated.lamports key = m.lamports key) ∧
      authenticated.owner authorityPda.key = dep.programId ∧
      (∀ other ≠ authorityPda.key, registry dep authenticated.ledger other = registry dep m.ledger other) ∧
      (¬ isTokenProgram dep.programId → TokensStay m.ledger authenticated.ledger) ∧
      ∀ loc, PolicyLocation.of (m.data authorityPda.key) = some loc →
        PolicyLocation.of (authenticated.data authorityPda.key) = some loc ∧
        loc.slice (authenticated.data authorityPda.key) = loc.slice (m.data authorityPda.key) := by
    simp only [authenticateExecute] at authentication
    split at authentication
    · simp only [Except.bind_eq_ok] at authentication
      obtain ⟨_, authentication, same⟩ := authentication
      cases Except.ok.inj same
      obtain ⟨_, _, new, approval, auth, _⟩ :=
        authenticateExecuteAuthority_eq_ok walletAt authorityAt authorityOwned authentication
      refine ⟨auth.stored.lamports, (auth.stored.owner _).trans authorityOwned, fun other apart => ?_,
        fun program => .of_stored program authorityOwned auth.stored, fun loc found => ?_⟩
      · rw [auth.registry, Function.update_of_ne apart]
      · rw [auth.stored.data_self]
        exact auth.acting.step.policy_kept found
    · split at authentication
      · simp only [Except.bind_eq_ok] at authentication
        obtain ⟨_, _, same⟩ := authentication
        cases Except.ok.inj same
        exact ⟨fun _ => rfl, authorityOwned, fun _ _ => rfl, fun _ => .refl _, fun loc found => ⟨found, rfl⟩⟩
      · cases authentication
  obtain ⟨balances, owned, others, stays, kept⟩ := approved
  have foreign := executeTracked_foldlM_foreign loop
  have untouched := (foreign.owned owned).2.1
  refine ⟨payer, walletPda.key, authorityPda.key, authenticated.data authorityPda.key, payerAt, payerSigns,
    ⟨_, walletAt, rfl⟩, ⟨_, authorityAt, rfl⟩, fun other apart => ?_,
    fun loc found => ⟨(kept loc found).1, (kept loc found).2, fun present => ?_⟩⟩
  · rw [← others other apart, ← foreign.registry]
    split at tail
    · simp only [Except.bind_eq_ok] at tail
      obtain ⟨_, _, store⟩ := tail
      rw [(writeData_eq_ok store).1.registry ((foreign.owned owned).1), Function.update_of_ne apart]
    · cases tail
      rfl
  · have policy : executePolicy (m.data authorityPda.key) = some loc := Option.filter_eq_some_iff.mpr ⟨found, present⟩
    rw [policy] at tail
    simp only [Except.bind_eq_ok] at tail
    obtain ⟨bytes, phase, store⟩ := tail
    obtain ⟨stored, _, _⟩ := writeData_eq_ok store
    obtain ⟨_, _, _, verdict, written⟩ := postCpiPhase_eq_ok.mp phase
    rw [vault, untouched] at verdict written
    refine ⟨progress.grossOut, mintFlows progress.machine.ledger
      (takeBeforeCpis authenticated.ledger accounts (vaultOf dep walletPda.key)).tokenAccounts,
      fun program mint => ?_, Prod.ext ?_ ?_⟩
    · refine (mintOutflow_eq_tokensTaken _ _ _ _ mint).trans
        ((stays program).tokensTaken_eq (fun key token => ?_) _ _ _)
      apply stored.data_of_ne
      rintro rfl
      exact program (owned ▸ token)
    · rw [stored.lamports, ← balances]
      exact verdict
    · rw [stored.lamports, ← balances, stored.data_self]
      exact written

/-- The policies of the records in both registries are the same. -/
def PoliciesKept (reg reg' : Registry) : Prop :=
  ∀ ⦃key old new loc⦄, reg key = some old → reg' key = some new → PolicyLocation.of old = some loc →
    PolicyLocation.of new = some loc ∧ loc.slice new = loc.slice old

namespace PoliciesKept

variable {entry : Option Bytes}

theorem refl (reg : Registry) : PoliciesKept reg reg := by
  intro key old new loc here there found
  cases Option.some.inj (here.symm.trans there)
  exact ⟨found, rfl⟩

theorem update (kept : PoliciesKept reg reg')
    (fits : ∀ old new loc, reg key = some old → entry = some new → PolicyLocation.of old = some loc →
      PolicyLocation.of new = some loc ∧ loc.slice new = loc.slice old) :
    PoliciesKept reg (Function.update reg' key entry) := by
  intro other old new loc here there found
  by_cases same : other = key
  · subst same
    rw [Function.update_self] at there
    exact fits old new loc here there found
  · rw [Function.update_of_ne same] at there
    exact kept here there found

theorem made (kept : PoliciesKept reg reg') (fresh : reg key = none) :
    PoliciesKept reg (Function.update reg' key entry) := by
  apply kept.update
  intro old _ _ here
  rw [fresh] at here
  cases here

theorem closed (kept : PoliciesKept reg reg') : PoliciesKept reg (Function.update reg' key none) := by
  apply kept.update
  intro _ _ _ _ absurd
  cases absurd

theorem recounted {wallet : Pubkey} (kept : PoliciesKept reg reg') (live : WalletRecord reg wallet old) :
    PoliciesKept reg (Function.update reg' wallet entry) := by
  apply kept.update
  intro bytes _ loc here _ found
  cases Option.some.inj (live.recorded.symm.trans here)
  rw [PolicyLocation.of_wallet live.checked] at found
  cases found

theorem approved {wallet authority : Pubkey} {authPayload signedPayload : Bytes} {approval : Approval}
    (kept : PoliciesKept reg reg')
    (acting : Acting dep fr accounts reg wallet authority authPayload signedPayload discriminator old new approval) :
    PoliciesKept reg (Function.update reg' authority (some new)) := by
  apply kept.update
  intro bytes written loc here there found
  cases Option.some.inj (acting.recorded.symm.trans here)
  cases Option.some.inj there
  exact acting.step.policy_kept found

end PoliciesKept

/-- Instructions other than Execute leave every policy alone, as long as its account lives. -/
theorem Transition.policiesKept (transition : Transition dep fr accounts data reg discriminator approvals reg')
    (which : discriminator ≠ 4) : PoliciesKept reg reg' := by
  have same := PoliciesKept.refl reg
  cases transition with
  | protocol | migrate | reclaimLegacy | closeLegacy => exact same
  | createWallet _ walletFresh authorityFresh => exact (same.made walletFresh).made authorityFresh
  | addAuthority _ live acting _ _ _ _ fresh => exact ((same.approved acting).recounted live).made fresh
  | removeAuthority live acting => exact ((same.approved acting).recounted live).closed
  | transferOwnership _ _ _ _ _ _ fresh => exact (same.made fresh).closed
  | execute | executeSession => exact absurd rfl which
  | createSession _ _ acting _ _ _ _ _ fresh => exact (same.approved acting).made fresh
  | authorize _ _ acting _ _ _ _ _ _ _ fresh => exact (same.approved acting).made fresh
  | executeDeferred | reclaimDeferred | closeExpiredSession => exact same.closed
  | revokeSession _ acting => exact (same.approved acting).closed

end LazorKit
