import LazorKit.Proofs.PolicyLedger

/-! # Where a policy comes from

Every account with a policy was created with one that passed the gate for new policies, in the place where it still
is, and has lived ever since.
-/

namespace LazorKit

open Solana

variable {dep : Deployment} {fr : Frame} {accounts : List AccountInfo} {data : Bytes} {reg reg' : Registry}
  {discriminator : UInt8} {approvals : List Approval} {key : Pubkey} {old new bytes : Bytes} {loc : PolicyLocation}

private theorem PolicyLocation.tag_eq (found : PolicyLocation.of bytes = some loc) :
    bytes.byte 0 = AccountDiscriminator.session.toByte ∨ bytes.byte 0 = AccountDiscriminator.authority.toByte := by
  unfold PolicyLocation.of at found
  split at found
  · cases found
  · split at found
    · next tag => exact .inl tag
    · split at found
      · next tag => exact .inr tag
      · cases found

theorem PolicyStep.located (step : PolicyStep old new) : PolicyLocation.of new = PolicyLocation.of old := by
  rcases step with rfl | ⟨loc, _, _, _, _, _, found, present, evaluated⟩
  · rfl
  · obtain ⟨_, _, same⟩ := evaluatePostActions_eq_ok present evaluated
    have behind := PolicyLocation.two_le found
    exact PolicyLocation.of_congr same.length (same.byte_of_lt (by omega)) (same.byte_of_lt (by omega))

/-- A record never moves its policy, nor changes its size. -/
theorem Fate.located (fate : Fate dep fr accounts discriminator approvals key old (some new)) :
    PolicyLocation.of new = PolicyLocation.of old ∧ new.length = old.length := by
  cases fate with
  | kept => exact ⟨rfl, rfl⟩
  | recounted checked role count =>
    refine ⟨?_, ?_⟩
    · rw [PolicyLocation.of_wallet checked, PolicyLocation.of_wallet (check_recount checked role count)]
    · unfold recount
      split
      · exact WalletAccount.length_setOwnerCount (WalletAccount.check_eq_ok.mp checked).1
      · rfl
  | acted _ _ step policy =>
    refine ⟨?_, policy.kept.1.trans step.length_eq⟩
    rw [policy.located, PolicyLocation.of_congr step.length_eq (step.byte_eq (.inl (by decide)))
      (step.byte_eq (.inl (by decide)))]
  | sessionUsed _ policy => exact ⟨policy.located, policy.kept.1⟩

private theorem ParsedCreateSessionArgs.policyValid {args : ParsedCreateSessionArgs}
    (parsed : ParsedCreateSessionArgs.fromBytes data = .ok args) :
      validateActionsBuffer args.actionsBytes = .ok () := by
  simp only [ParsedCreateSessionArgs.fromBytes, Except.bind_eq_ok, Except.ensure_eq_ok, exists_const] at parsed
  obtain ⟨_, parsed⟩ := parsed
  split at parsed
  · simp only [Except.bind_eq_ok, Except.ensure_eq_ok, exists_const] at parsed
    obtain ⟨_, parsed⟩ := parsed
    split at parsed
    · simp only [Except.bind_eq_ok, Except.ensure_eq_ok, exists_const] at parsed
      obtain ⟨_, _, valid, result⟩ := parsed
      cases Except.ok.inj result
      exact valid
    · cases parsed
      rfl
  · cases parsed
    rfl

private theorem AddAuthorityArgs.policyValid {args : AddAuthorityArgs}
    (parsed : AddAuthorityArgs.parse data = .ok args) :
    validateActionsBuffer args.policy = .ok () := by
  by_cases present : args.policy = []
  · rw [present]
    rfl
  · exact (AddAuthorityArgs.parse_eq_ok parsed).2.1 present

/-- A new authority's policy stands behind its key material. -/
theorem slice_newAuthority {kind role bump : UInt8} {wallet : Pubkey} {material policy : Bytes}
    (space : authorityFixedLen kind = some (AuthorityAccountHeader.size + material.length))
    (short : policy.length < 2 ^ 16)
    (located : PolicyLocation.of (newAuthorityBytes kind role bump wallet material policy) = some loc) :
    loc.slice (newAuthorityBytes kind role bump wallet material policy) = policy := by
  rw [PolicyLocation.of_authority (check_newAuthority ..), read_newAuthority short, newAuthorityHeader,
    space] at located
  cases located
  simp [PolicyLocation.slice, newAuthorityBytes, List.drop_append]

/-- Of the records there were none of before, the policies passed the gate. -/
def BornValid (reg reg' : Registry) : Prop :=
  ∀ ⦃key bytes loc⦄, reg key = none → reg' key = some bytes → PolicyLocation.of bytes = some loc →
    validateActionsBuffer (loc.slice bytes) = .ok ()

namespace BornValid

variable {entry : Option Bytes}

theorem refl (reg : Registry) : BornValid reg reg := by
  intro key bytes loc fresh born
  rw [fresh] at born
  cases born

theorem update (valid : BornValid reg reg')
    (fits : reg key = none → ∀ bytes loc, entry = some bytes → PolicyLocation.of bytes = some loc →
      validateActionsBuffer (loc.slice bytes) = .ok ()) : BornValid reg (Function.update reg' key entry) := by
  intro other bytes loc fresh born located
  by_cases same : other = key
  · subst same
    rw [Function.update_self] at born
    exact fits fresh bytes loc born located
  · rw [Function.update_of_ne same] at born
    exact valid fresh born located

/-- A record that was there before is none of them. -/
theorem rewritten (valid : BornValid reg reg') (recorded : reg key = some old) :
    BornValid reg (Function.update reg' key entry) := by
  apply valid.update
  intro fresh
  rw [recorded] at fresh
  cases fresh

theorem made (valid : BornValid reg reg') (bytes : Bytes)
    (fits : ∀ loc, PolicyLocation.of bytes = some loc → validateActionsBuffer (loc.slice bytes) = .ok ()) :
    BornValid reg (Function.update reg' key (some bytes)) := by
  apply valid.update
  intro _ other loc same
  cases Option.some.inj same
  exact fits loc

private theorem madeAuthority {kind role bump : UInt8} {wallet : Pubkey} {material policy : Bytes}
    (valid : BornValid reg reg') (space : authorityFixedLen kind = some (AuthorityAccountHeader.size + material.length))
    (short : policy.length < 2 ^ 16) (gate : validateActionsBuffer policy = .ok ()) :
    BornValid reg (Function.update reg' key (some (newAuthorityBytes kind role bump wallet material policy))) := by
  apply valid.made
  intro loc located
  rw [slice_newAuthority space short located]
  exact gate

end BornValid

/-- Whoever creates an account with a policy, the policy passes the gate. -/
theorem Transition.bornValid (transition : Transition dep fr accounts data reg discriminator approvals reg') :
    BornValid reg reg' := by
  have same := BornValid.refl reg
  cases transition with
  | protocol | migrate | reclaimLegacy | closeLegacy => exact same
  | createWallet _ _ _ _ _ space =>
    refine (same.made _ fun loc located => ?_).madeAuthority space (by decide) rfl
    have tag := PolicyLocation.tag_eq located
    rw [byte_newWallet] at tag
    exact absurd tag (by decide)
  | addAuthority parsed live acting _ _ _ _ _ _ space =>
    have short := (AddAuthorityArgs.parse_eq_ok parsed).2.2.trans_lt (show maxPolicyBufferSize < 2 ^ 16 by decide)
    exact ((same.rewritten acting.recorded).rewritten live.recorded).madeAuthority space short
      (AddAuthorityArgs.policyValid parsed)
  | removeAuthority live acting recorded =>
    exact ((same.rewritten acting.recorded).rewritten live.recorded).rewritten recorded
  | transferOwnership _ _ acting _ _ _ _ _ space =>
    exact (same.madeAuthority space (by decide) rfl).rewritten acting.recorded
  | execute _ acting => exact same.rewritten acting.recorded
  | executeSession _ _ recorded => exact same.rewritten recorded
  | createSession parsed _ acting =>
    apply (same.rewritten acting.recorded).made _
    intro loc located
    rw [PolicyLocation.slice, PolicyLocation.of_session (byte_newSession ..) located, drop_newSessionBytes]
    exact ParsedCreateSessionArgs.policyValid parsed
  | authorize _ _ acting =>
    apply (same.rewritten acting.recorded).made _
    intro loc located
    have tag := PolicyLocation.tag_eq located
    rw [byte_newDeferred] at tag
    exact absurd tag (by decide)
  | executeDeferred _ _ _ recorded | reclaimDeferred _ recorded | closeExpiredSession _ recorded =>
    exact same.rewritten recorded
  | revokeSession _ acting _ recorded => exact (same.rewritten acting.recorded).rewritten recorded

variable {start : Ledger} {events : List Event} {actions : List ActionView} {action : ActionView} {i j : ℕ}

private theorem located_between (genesis : Genesis dep start) (le : i ≤ j)
    (lives : ∀ l, i ≤ l → l ≤ j → registryAt dep start events l key ≠ none)
    (here : registryAt dep start events i key = some old) (there : registryAt dep start events j key = some new) :
    PolicyLocation.of new = PolicyLocation.of old ∧ new.length = old.length := by
  induction j, le using Nat.le_induction generalizing new with
  | base =>
    cases Option.some.inj (here.symm.trans there)
    exact ⟨rfl, rfl⟩
  | succ j le ih =>
    obtain ⟨now, before⟩ := Option.ne_none_iff_exists'.mp (lives j le (Nat.le_succ j))
    obtain ⟨place, size⟩ := ih (fun l low high => lives l low (by omega)) before
    rcases registryAt_succ events genesis.funded j with ⟨same, _⟩ | ⟨call, m, success⟩
    · rw [same, before] at there
      cases there
      exact ⟨place, size⟩
    · have fate := success.transition.fate before
      rw [there] at fate
      exact ⟨fate.located.1.trans place, fate.located.2.trans size⟩

/-- A record with a policy was created with the actions it has, which passed the gate, and has lived ever since. -/
theorem policy_born (genesis : Genesis dep start) (unsigned : DerivedNeverSign dep events)
    (here : registryAt dep start events j key = some bytes) (bears : Bears loc actions bytes)
    (present : loc.isPresent bytes = true) :
    ∃ k born, k < j ∧ registryAt dep start events (k + 1) key = some born ∧
      (∀ l, k < l → l ≤ j → registryAt dep start events l key ≠ none) ∧ Bears loc actions born ∧
      loc.isPresent born = true ∧ WellSized actions ∧ validateActionsBuffer (loc.slice born) = .ok () := by
  have initially : ¬registryAt dep start events 0 key ≠ none := by
    rw [registryAt, ledgerAt_eq, Run.stateAt_zero, genesis key]
    exact fun appears => appears rfl
  obtain ⟨k, call, m, _, early, success, vacant, since⟩ := exists_establishing_call (P := fun reg => reg key ≠ none)
    genesis.funded (Nat.zero_le j) initially (by rw [here]; exact Option.some_ne_none bytes)
  obtain ⟨born, created⟩ := Option.ne_none_iff_exists'.mp (since (k + 1) (by omega) (by omega))
  obtain ⟨place, size⟩ := located_between genesis (by omega) (fun l low high => since l (by omega) high) created here
  have located : PolicyLocation.of born = some loc := place.symm.trans bears.located
  have valid := success.transition.bornValid (not_not.mp vacant) created located
  have there : loc.isPresent born = true := by
    rw [PolicyLocation.isPresent, ← size]
    exact present
  obtain ⟨views, parsed, sized⟩ := policyShape_of_validate valid
  obtain ⟨now, again, still⟩ := bears_between genesis unsigned (fun l low high => since l (by omega) high) created
    ⟨located, parsed⟩ sized there (by omega : k + 1 ≤ j) le_rfl
  cases Option.some.inj (here.symm.trans again)
  cases Except.ok.inj (bears.parsed.symm.trans still.bears.parsed)
  exact ⟨k, born, early, created, since, ⟨located, parsed⟩, there, sized, valid⟩

end LazorKit
