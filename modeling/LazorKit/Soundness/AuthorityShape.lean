import LazorKit.Proofs.ConcreteRun
import LazorKit.Proofs.Fate
import LazorKit.Soundness.OwnerCount

/-! # Bounded means bounded

Execute takes an authority to be bounded by a policy when its account is longer than its fixed part;
the other processors look at the length stored in the header. For every live authority the two agree
with each other and with the rank, and the policy parses into actions of the right sizes, through
every creator and every rewrite of the running totals.
-/

namespace LazorKit

open Solana

/-- A well-formed authority account. -/
structure AuthorityShape (bytes : Bytes) : Prop where
  role : (AuthorityAccountHeader.read bytes).role ≤ rankDelegate
  kind : (AuthorityAccountHeader.read bytes).authorityType = 0 ∨ (AuthorityAccountHeader.read bytes).authorityType = 1
  bounded : (AuthorityAccountHeader.read bytes).policyLen ≠ 0 ↔
    (AuthorityAccountHeader.read bytes).role = rankDelegate
  layout : ∃ fixed, authorityFixedLen (AuthorityAccountHeader.read bytes).authorityType = some fixed ∧
    bytes.length = fixed + (AuthorityAccountHeader.read bytes).policyLen ∧ PolicyShape (bytes.drop fixed)

theorem AuthorityShape.authStep {dep : Deployment} {fr : Frame} {accounts : List AccountInfo} {key : Pubkey}
    {authPayload signedPayload : Bytes} {discriminator : UInt8} {old new : Bytes} {approval : Approval}
    (shape : AuthorityShape old)
    (step : AuthStep dep fr accounts key authPayload signedPayload discriminator old new approval) :
    AuthorityShape new := by
  obtain ⟨role, kind, bounded, fixed, known, length, policy⟩ := shape
  have read := step.read_eq
  have tail : new.drop fixed = old.drop fixed := by
    apply List.ext_getElem?
    intro i
    have behind : 48 ≤ fixed := authorityFixedLen_pos known
    rw [List.getElem?_drop, List.getElem?_drop, step.getElem?_eq (.inr (by omega))]
  refine ⟨by rwa [read], by rwa [read], by rwa [read], fixed, by rwa [read], ?_, by rwa [tail]⟩
  rw [step.length_eq, length, read]

theorem AuthorityShape.policyStep {old new : Bytes} (shape : AuthorityShape old)
    (checked : AuthorityAccountHeader.check old = .ok ()) (step : PolicyStep old new) : AuthorityShape new := by
  rcases step with rfl | ⟨loc, _, _, _, _, _, found, present, evaluated⟩
  · exact shape
  · obtain ⟨role, kind, bounded, fixed, known, length, views, parsed, sized⟩ := shape
    rw [PolicyLocation.of_authority checked, known] at found
    cases Option.some.inj found
    obtain ⟨views', parsed', same⟩ := evaluatePostActions_eq_ok present evaluated
    cases Except.ok.inj (parsed.symm.trans parsed')
    have read := AuthorityAccountHeader.read_congr fun i early =>
      same.getElem?_of_lt (early.trans_le (authorityFixedLen_pos known))
    refine ⟨by rwa [read], by rwa [read], by rwa [read], fixed, by rwa [read], ?_, views, ?_, sized⟩
    · rw [same.length, length, read]
    · exact parseActions_sameButTotals parsed sized same.drop

private theorem kind_of_authorityFixedLen {kind : UInt8} {fixed : ℕ} (known : authorityFixedLen kind = some fixed) :
    kind = 0 ∨ kind = 1 := by
  unfold authorityFixedLen at known
  split at known
  · exact .inl rfl
  · exact .inr rfl
  · cases known

theorem AuthorityShape.fresh {kind role bump : UInt8} {wallet : Pubkey} {material policy : Bytes}
    (rank : role ≤ rankDelegate) (short : policy.length < 2 ^ 16)
    (space : authorityFixedLen kind = some (AuthorityAccountHeader.size + material.length))
    (rule : role = rankDelegate ↔ policy ≠ []) (valid : PolicyShape policy) :
    AuthorityShape (newAuthorityBytes kind role bump wallet material policy) := by
  have read : AuthorityAccountHeader.read (newAuthorityBytes kind role bump wallet material policy) =
      newAuthorityHeader kind role bump policy.length wallet := read_newAuthority short
  have tail : (newAuthorityBytes kind role bump wallet material policy).drop
      (AuthorityAccountHeader.size + material.length) = policy := by
    simp [newAuthorityBytes, List.drop_append]
  refine ⟨by rwa [read], by rw [read]; exact kind_of_authorityFixedLen space, ?_, _, by rw [read]; exact space, ?_,
    by rwa [tail]⟩
  · rw [read]
    simp only [newAuthorityHeader, rule, ne_eq, List.length_eq_zero_iff]
  · rw [read]
    simp [newAuthorityBytes, newAuthorityHeader, Nat.add_assoc]

private theorem role_le_of_canAdd {actor role : UInt8} (allowed : canAdd actor role = true) : role ≤ rankDelegate := by
  unfold canAdd at allowed
  split at allowed
  · cases allowed
  · next small => exact UInt8.not_lt.mp small

/-- The policy AddAuthority parsed passed the creation-time gate. -/
theorem policyShape_of_parse {data : Bytes} {args : AddAuthorityArgs}
    (parsed : AddAuthorityArgs.parse data = .ok args) : PolicyShape args.policy := by
  by_cases present : args.policy = []
  · rw [present]
    exact ⟨[], rfl, by simp [WellSized]⟩
  · exact policyShape_of_validate ((AddAuthorityArgs.parse_eq_ok parsed).2.1 present)

/-- Every authority of the registry is well-formed. -/
def WellShaped (reg : Registry) : Prop :=
  ∀ key bytes, reg key = some bytes → AuthorityAccountHeader.check bytes = .ok () → AuthorityShape bytes

namespace WellShaped

variable {reg : Registry} {key : Pubkey} {record : Option Bytes}

theorem update (shaped : WellShaped reg)
    (new : ∀ bytes, record = some bytes → AuthorityAccountHeader.check bytes = .ok () → AuthorityShape bytes) :
    WellShaped (Function.update reg key record) := by
  intro other bytes recorded checked
  by_cases same : other = key
  · rw [same, Function.update_self] at recorded
    exact new bytes recorded checked
  · rw [Function.update_of_ne same] at recorded
    exact shaped other bytes recorded checked

/-- Storing a record that carries another tag. -/
theorem update_other {bytes : Bytes} (shaped : WellShaped reg)
    (other : bytes.byte 0 ≠ AccountDiscriminator.authority.toByte) :
    WellShaped (Function.update reg key (some bytes)) :=
  shaped.update fun stored same checked => by
    cases Option.some.inj same
    exact absurd (AuthorityAccountHeader.check_eq_ok.mp checked).2.1 other

private theorem update_shape {bytes : Bytes} (shaped : WellShaped reg) (shape : AuthorityShape bytes) :
    WellShaped (Function.update reg key (some bytes)) :=
  shaped.update fun stored same _ => by
    cases Option.some.inj same
    exact shape

private theorem update_none (shaped : WellShaped reg) : WellShaped (Function.update reg key none) :=
  shaped.update fun stored same => by cases same

theorem acting {dep : Deployment} {fr : Frame} {accounts : List AccountInfo} {wallet : Pubkey}
    {authPayload signedPayload : Bytes} {discriminator : UInt8} {old new : Bytes} {approval : Approval}
    (shaped : WellShaped reg)
    (acting : Acting dep fr accounts reg wallet key authPayload signedPayload discriminator old new approval) :
    WellShaped (Function.update reg key (some new)) :=
  shaped.update_shape ((shaped key old acting.recorded acting.checked).authStep acting.step)

end WellShaped

/-- Every transition keeps every authority well-formed. -/
theorem Transition.wellShaped {dep : Deployment} {fr : Frame} {accounts : List AccountInfo} {data : Bytes}
    {reg reg' : Registry} {discriminator : UInt8} {approvals : List Approval}
    (transition : Transition dep fr accounts data reg discriminator approvals reg') (shaped : WellShaped reg) :
    WellShaped reg' := by
  cases transition with
  | protocol | migrate | reclaimLegacy | closeLegacy => exact shaped
  | createWallet _ _ _ _ _ space =>
    exact (shaped.update_other (by rw [byte_newWallet]; decide)).update_shape
      (.fresh (by decide) (by decide) space (by decide) ⟨[], rfl, by simp [WellSized]⟩)
  | addAuthority parsed live acting allowed rule _ _ _ _ space =>
    have short := (AddAuthorityArgs.parse_eq_ok parsed).2.2.trans_lt (show maxPolicyBufferSize < 2 ^ 16 by decide)
    exact ((shaped.acting acting).update_other (by rw [byte_recount live.checked]; decide)).update_shape
      (.fresh (role_le_of_canAdd allowed) short space rule (policyShape_of_parse parsed))
  | removeAuthority live acting =>
    exact ((shaped.acting acting).update_other (by rw [byte_recount live.checked]; decide)).update_none
  | transferOwnership _ _ _ _ _ _ _ _ space =>
    exact (shaped.update_shape
      (.fresh (by decide) (by decide) space (by decide) ⟨[], rfl, by simp [WellSized]⟩)).update_none
  | execute _ acting policy =>
    have shape := (shaped _ _ acting.recorded acting.checked).authStep acting.step
    exact shaped.update_shape (shape.policyStep (acting.step.check_eq acting.checked) policy)
  | executeSession _ _ _ tag _ _ _ _ policy =>
    exact shaped.update_other (by rw [policy.kept.2, tag]; decide)
  | createSession _ _ acting =>
    exact (shaped.acting acting).update_other (by rw [byte_newSession]; decide)
  | authorize _ _ acting =>
    exact (shaped.acting acting).update_other (by rw [byte_newDeferred]; decide)
  | revokeSession _ acting => exact (shaped.acting acting).update_none
  | executeDeferred | reclaimDeferred | closeExpiredSession => exact shaped.update_none

private theorem AuthorityShape.policy_present {bytes : Bytes} (shape : AuthorityShape bytes)
    (checked : AuthorityAccountHeader.check bytes = .ok ()) :
    (executePolicy bytes).isSome = true ↔ (AuthorityAccountHeader.read bytes).role = rankDelegate := by
  obtain ⟨_, _, bounded, fixed, known, length, _⟩ := shape
  have located : PolicyLocation.of bytes = some ⟨fixed⟩ := by
    rw [PolicyLocation.of_authority checked, known, Option.map_some]
  rw [← bounded, executePolicy, located, Option.filter_some, PolicyLocation.isPresent]
  by_cases positive : fixed < bytes.length
  · simp only [positive, decide_true, if_true, Option.isSome_some, true_iff]
    omega
  · simp only [positive, decide_false, Bool.false_eq_true, if_false, Option.isSome_none, false_iff, not_not]
    omega

/-- In every state a run can reach, every live authority has a known rank and key type, a policy
exactly when it is a Delegate, exactly the length its header promises, and a policy that parses into
actions of their types' sizes; Execute finds a policy exactly in a Delegate. -/
theorem authority_shape {dep : Deployment} {start : Ledger} (genesis : Genesis dep start) (events : List Event)
    {key : Pubkey} {bytes : Bytes} (live : LiveAuthority dep (run dep start events) key)
    (data : bytes = ((run dep start events) key).data) :
    (AuthorityAccountHeader.read bytes).role ≤ rankDelegate ∧
      ((AuthorityAccountHeader.read bytes).authorityType = 0 ∨
        (AuthorityAccountHeader.read bytes).authorityType = 1) ∧
      ((AuthorityAccountHeader.read bytes).policyLen ≠ 0 ↔
        (AuthorityAccountHeader.read bytes).role = rankDelegate) ∧
      (∃ fixed, authorityFixedLen (AuthorityAccountHeader.read bytes).authorityType = some fixed ∧
        bytes.length = fixed + (AuthorityAccountHeader.read bytes).policyLen ∧
        ∃ actions, parseActions (bytes.drop fixed) = .ok actions ∧
          ∀ action ∈ actions, action.dataLen = action.actionType.expectedDataSize) ∧
      ((executePolicy bytes).isSome = true ↔ (AuthorityAccountHeader.read bytes).role = rankDelegate) := by
  subst data
  have shaped : WellShaped (registryAt dep start events events.length) :=
    registry_invariant genesis.funded (fun key bytes recorded => by rw [genesis key] at recorded; cases recorded)
      Transition.wellShaped events.length
  rw [registryAt, ← run_eq_ledgerAt] at shaped
  have shape := shaped key _ (registry_of_liveAuthority live) live.2
  exact ⟨shape.role, shape.kind, shape.bounded, shape.layout, shape.policy_present live.2⟩

theorem authority_shape_sample :
    LiveAuthority Sample.deployment (run Sample.deployment Ledger.empty Sample.events) Sample.delegate ∧
      (executePolicy (run Sample.deployment Ledger.empty Sample.events Sample.delegate).data).isSome = true := by
  have live : LiveAuthority Sample.deployment (run Sample.deployment Ledger.empty Sample.events) Sample.delegate := by
    unfold LiveAuthority
    decide +kernel
  obtain ⟨_, _, _, _, policy⟩ := authority_shape (genesis_empty _) Sample.events live rfl
  exact ⟨live, policy.mpr (by decide +kernel)⟩

end LazorKit
