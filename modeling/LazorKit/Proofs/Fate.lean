import LazorKit.Proofs.RunRefine

/-! # What a transition does to one record

A transition seen from a single address. `Fate` is everything that can become of a live record, and
`Birth` is every way a record comes into existence; invariants about one account over a run are proved
by cases on these two and not on the instructions.
-/

namespace LazorKit

open Solana

theorem byte_newWallet (bump : UInt8) :
    (newWalletBytes bump).byte 0 = AccountDiscriminator.wallet.toByte := rfl

theorem byte_newAuthority (kind role bump : UInt8) (wallet : Pubkey) (material policy : Bytes) :
    (newAuthorityBytes kind role bump wallet material policy).byte 0 = AccountDiscriminator.authority.toByte := rfl

theorem byte_newSession (bump : UInt8) (wallet : Pubkey) (args : ParsedCreateSessionArgs) :
    (newSessionBytes bump wallet args).byte 0 = AccountDiscriminator.session.toByte := rfl

theorem byte_newDeferred (bump : UInt8) (data : Bytes) (wallet authority payer : Pubkey) (expiresAt : ℕ) :
    (newDeferred bump data wallet authority payer expiresAt).toBytes.byte 0 =
      AccountDiscriminator.deferredExec.toByte := rfl

section Fate

variable (dep : Deployment) (fr : Frame) (accounts : List AccountInfo) (discriminator : UInt8)
  (approvals : List Approval) (key : Pubkey) (old : Bytes)

/-- What becomes of the record at `key`. -/
inductive Fate : Option Bytes → Prop
  | kept (silent : ∀ used assertion, Approval.authority key used assertion ∉ approvals) : Fate (some old)
  | recounted (checked : WalletAccount.check old = .ok ()) (role : UInt8) (count : ℕ) :
      Fate (some (recount old role count))
  /-- An authority approved the instruction; Execute may have rewritten its totals as well. -/
  | acted {authPayload signedPayload middle new : Bytes} {approval : Approval}
      (checked : AuthorityAccountHeader.check old = .ok ()) (only : approvals = [approval])
      (step : AuthStep dep fr accounts key authPayload signedPayload discriminator old middle approval)
      (policy : PolicyStep middle new) : Fate (some new)
  | sessionUsed {new : Bytes} (tag : old.byte 0 = AccountDiscriminator.session.toByte)
      (policy : PolicyStep old new) : Fate (some new)
  | authorityClosed (checked : AuthorityAccountHeader.check old = .ok ()) : Fate none
  | sessionRevoked (checked : SessionAccount.check old = .ok ()) (which : discriminator = 9) : Fate none
  | sessionExpired (tag : old.byte 0 = AccountDiscriminator.session.toByte) (which : discriminator = 18)
      (expired : (SessionAccount.read old).expiresAt < fr.slot.toNat) : Fate none
  | deferredExecuted (checked : DeferredExecAccount.check old = .ok ()) (which : discriminator = 7)
      (deferredAt : KeyAt accounts 3 key) (refundAt : KeyAt accounts 4 (DeferredExecAccount.read old).payer)
      (unexpired : fr.slot.toNat ≤ (DeferredExecAccount.read old).expiresAt) : Fate none
  | deferredReclaimed (checked : DeferredExecAccount.check old = .ok ()) (which : discriminator = 8)
      (deferredAt : KeyAt accounts 1 key) (refundAt : KeyAt accounts 2 (DeferredExecAccount.read old).payer)
      (expired : (DeferredExecAccount.read old).expiresAt < fr.slot.toNat) : Fate none

end Fate

section Birth

variable (dep : Deployment) (fr : Frame) (accounts : List AccountInfo) (data : Bytes) (reg : Registry)
  (discriminator : UInt8) (approvals : List Approval) (key : Pubkey)

/-- How a record comes into existence. -/
inductive Birth : Bytes → Prop
  | wallet (bump : UInt8) : Birth (newWalletBytes bump)
  | authority {kind role bump : UInt8} {wallet : Pubkey} {material policy : Bytes}
      (which : discriminator = 0 ∨ discriminator = 1 ∨ discriminator = 3) (short : policy.length < 2 ^ 16) :
      Birth (newAuthorityBytes kind role bump wallet material policy)
  | session {wallet authorizer payer : Pubkey} {walletBytes old new : Bytes} {approval : Approval}
      {args : ParsedCreateSessionArgs} {bump : UInt8} (which : discriminator = 5)
      (parsed : ParsedCreateSessionArgs.fromBytes data = .ok args)
      (live : WalletRecord reg wallet walletBytes)
      (acting : Acting dep fr accounts reg wallet authorizer (data.drop args.argsEndOffset)
        (data.take args.argsEndOffset ++ payer.bytes) discriminator old new approval)
      (only : approvals = [approval])
      (rank : (AuthorityAccountHeader.read old).role = 0 ∨ (AuthorityAccountHeader.read old).role = 1)
      (unbounded : (AuthorityAccountHeader.read old).policyLen = 0)
      (future : fr.slot.toNat < args.expiresAt)
      (duration : args.expiresAt ≤ saturatingAdd fr.slot.toNat maxSessionSlots) :
      Birth (newSessionBytes bump wallet args)
  | deferred {wallet authority payer : Pubkey} {walletBytes old new authPayload signedPayload : Bytes}
      {approval : Approval} {bump : UInt8} (which : discriminator = 6)
      (live : WalletRecord reg wallet walletBytes)
      (acting : Acting dep fr accounts reg wallet authority authPayload signedPayload discriminator old new approval)
      (only : approvals = [approval])
      (kind : (AuthorityAccountHeader.read old).authorityType = 1)
      (rank : (AuthorityAccountHeader.read old).role ≤ 1)
      (unbounded : (AuthorityAccountHeader.read old).policyLen = 0)
      (window : minExpirySlots ≤ (data.slice 64 2).toNatLE ∧ (data.slice 64 2).toNatLE ≤ maxExpirySlots)
      (bound : fr.slot.toNat + (data.slice 64 2).toNatLE < 2 ^ 64)
      (payerAt : KeyAt accounts 0 payer) :
      Birth (newDeferred bump data wallet authority payer (fr.slot.toNat + (data.slice 64 2).toNatLE)).toBytes

end Birth

section Transitions

variable {dep : Deployment} {fr : Frame} {accounts : List AccountInfo} {data : Bytes} {reg reg' : Registry}
  {discriminator : UInt8} {approvals : List Approval} {key : Pubkey} {old : Bytes}

theorem PolicyStep.refl (bytes : Bytes) : PolicyStep bytes bytes := .inl rfl

private theorem ne_of_fresh {other : Pubkey} (here : reg key = some old) (fresh : reg other = none) : key ≠ other := by
  rintro rfl
  rw [here] at fresh
  cases fresh

private theorem old_eq {other : Pubkey} {bytes : Bytes} (here : reg key = some old) (recorded : reg other = some bytes)
    (same : key = other) : old = bytes := by
  subst same
  exact Option.some.inj (here.symm.trans recorded)

/-- Only the acting authority approves. -/
theorem Acting.silent {wallet authority : Pubkey} {authPayload signedPayload before after : Bytes}
    {approval : Approval}
    (acting : Acting dep fr accounts reg wallet authority authPayload signedPayload discriminator before after
      approval) (other : key ≠ authority) :
    ∀ used assertion, Approval.authority key used assertion ∉ [approval] := by
  obtain ⟨assertion, rfl⟩ := acting.step.approval_eq
  simp [other]

/-- The record of the acting authority, or of a bystander, after the authentication. -/
theorem Acting.fate {wallet authority : Pubkey} {authPayload signedPayload before after : Bytes}
    {approval : Approval}
    (acting : Acting dep fr accounts reg wallet authority authPayload signedPayload discriminator before after
      approval) (here : reg key = some old) :
    Fate dep fr accounts discriminator [approval] key old (Function.update reg authority (some after) key) := by
  by_cases same : key = authority
  · cases old_eq here acting.recorded same
    subst same
    rw [Function.update_self]
    exact .acted acting.checked rfl acting.step (PolicyStep.refl _)
  · rw [Function.update_of_ne same, here]
    exact .kept (acting.silent same)

/-- The fate of every live record. -/
theorem Transition.fate (transition : Transition dep fr accounts data reg discriminator approvals reg')
    (here : reg key = some old) : Fate dep fr accounts discriminator approvals key old (reg' key) := by
  cases transition with
  | protocol | reclaimLegacy | closeLegacy =>
    rw [here]
    exact .kept (by simp)
  | migrate unrecorded step =>
    rw [here]
    have other := ne_of_fresh here unrecorded
    refine .kept ?_
    cases step <;> simp [other]
  | createWallet _ walletFresh authorityFresh =>
    rw [Function.update_of_ne (ne_of_fresh here authorityFresh), Function.update_of_ne (ne_of_fresh here walletFresh),
      here]
    exact .kept (by simp)
  | @addAuthority wallet _ _ _ _ _ _ _ _ _ _ _ live acting _ _ _ _ fresh =>
    rw [Function.update_of_ne (ne_of_fresh here fresh)]
    by_cases atWallet : key = wallet
    · cases old_eq here live.recorded atWallet
      rw [atWallet, Function.update_self]
      exact .recounted live.checked _ _
    · rw [Function.update_of_ne atWallet]
      exact acting.fate here
  | @removeAuthority wallet _ target _ _ _ _ _ _ live acting recorded checked =>
    by_cases atTarget : key = target
    · cases old_eq here recorded atTarget
      rw [atTarget, Function.update_self]
      exact .authorityClosed checked
    · rw [Function.update_of_ne atTarget]
      by_cases atWallet : key = wallet
      · cases old_eq here live.recorded atWallet
        rw [atWallet, Function.update_self]
        exact .recounted live.checked _ _
      · rw [Function.update_of_ne atWallet]
        exact acting.fate here
  | @transferOwnership _ current _ _ _ _ _ _ _ _ _ _ _ _ acting _ _ _ fresh =>
    by_cases atCurrent : key = current
    · cases old_eq here acting.recorded atCurrent
      rw [atCurrent, Function.update_self]
      exact .authorityClosed acting.checked
    · rw [Function.update_of_ne atCurrent, Function.update_of_ne (ne_of_fresh here fresh), here]
      exact .kept (acting.silent atCurrent)
  | @execute _ authority _ _ _ _ _ _ _ _ acting policy =>
    by_cases same : key = authority
    · cases old_eq here acting.recorded same
      rw [same, Function.update_self]
      exact .acted acting.checked rfl acting.step policy
    · rw [Function.update_of_ne same, here]
      exact .kept (acting.silent same)
  | @executeSession _ session _ _ _ _ _ recorded tag _ _ _ _ policy =>
    by_cases same : key = session
    · cases old_eq here recorded same
      rw [same, Function.update_self]
      exact .sessionUsed tag policy
    · rw [Function.update_of_ne same, here]
      exact .kept (by simp)
  | createSession _ _ acting _ _ _ _ _ fresh =>
    rw [Function.update_of_ne (ne_of_fresh here fresh)]
    exact acting.fate here
  | authorize _ _ acting _ _ _ _ _ _ _ fresh =>
    rw [Function.update_of_ne (ne_of_fresh here fresh)]
    exact acting.fate here
  | @executeDeferred _ deferred _ _ _ _ _ _ deferredAt recorded checked _ refundAt unexpired =>
    by_cases same : key = deferred
    · cases old_eq here recorded same
      subst same
      rw [Function.update_self]
      exact .deferredExecuted checked rfl deferredAt refundAt unexpired
    · rw [Function.update_of_ne same, here]
      exact .kept (by simp)
  | @reclaimDeferred deferred _ deferredAt recorded checked refundAt expired =>
    by_cases same : key = deferred
    · cases old_eq here recorded same
      subst same
      rw [Function.update_self]
      exact .deferredReclaimed checked rfl deferredAt refundAt expired
    · rw [Function.update_of_ne same, here]
      exact .kept (by simp)
  | @revokeSession _ _ session _ _ _ _ _ _ _ acting _ recorded checked =>
    by_cases same : key = session
    · cases old_eq here recorded same
      rw [same, Function.update_self]
      exact .sessionRevoked checked rfl
    · rw [Function.update_of_ne same]
      exact acting.fate here
  | @closeExpiredSession session _ _ recorded tag expired =>
    by_cases same : key = session
    · cases old_eq here recorded same
      rw [same, Function.update_self]
      exact .sessionExpired tag rfl expired
    · rw [Function.update_of_ne same, here]
      exact .kept (by simp)

/-- A record never changes its type. -/
theorem Fate.tag {new : Bytes} (fate : Fate dep fr accounts discriminator approvals key old (some new)) :
    new.byte 0 = old.byte 0 := by
  cases fate with
  | kept => rfl
  | recounted checked => rw [byte_recount checked, (WalletAccount.check_eq_ok.mp checked).2.1]
  | acted _ _ step policy => rw [policy.kept.2, step.byte_eq (.inl (by decide))]
  | sessionUsed _ policy => exact policy.kept.2

theorem ne_of_recorded {other : Pubkey} {bytes : Bytes} (fresh : reg key = none)
    (recorded : reg other = some bytes) : key ≠ other := by
  rintro rfl
  rw [fresh] at recorded
  cases recorded

/-- Where there was no record, rewriting another one creates none. -/
theorem none_of_update {other : Pubkey} {bytes : Bytes} {record : Option Bytes} (fresh : reg key = none)
    (recorded : reg other = some bytes) : Function.update reg other record key = none := by
  rw [Function.update_of_ne (ne_of_recorded fresh recorded), fresh]

/-- Every record that appears was created by the instruction its type belongs to. -/
theorem Transition.birth {bytes : Bytes}
    (transition : Transition dep fr accounts data reg discriminator approvals reg')
    (fresh : reg key = none) (born : reg' key = some bytes) :
    Birth dep fr accounts data reg discriminator approvals bytes := by
  cases transition with
  | protocol | migrate | reclaimLegacy | closeLegacy =>
    rw [fresh] at born
    cases born
  | @createWallet wallet authority _ _ _ _ _ _ _ _ _ distinct _ space =>
    by_cases atAuthority : key = authority
    · rw [atAuthority, Function.update_self] at born
      cases Option.some.inj born
      exact .authority (.inl rfl) (by decide)
    · rw [Function.update_of_ne atAuthority] at born
      by_cases atWallet : key = wallet
      · rw [atWallet, Function.update_self] at born
        cases Option.some.inj born
        exact .wallet _
      · rw [Function.update_of_ne atWallet, fresh] at born
        cases born
  | @addAuthority _ _ _ created _ _ _ _ _ _ _ parsed live acting _ _ _ _ _ _ _ =>
    by_cases here : key = created
    · rw [here, Function.update_self] at born
      cases Option.some.inj born
      exact .authority (.inr (.inl rfl)) ((AddAuthorityArgs.parse_eq_ok parsed).2.2.trans_lt (by decide))
    · rw [Function.update_of_ne here, Function.update_of_ne (ne_of_recorded fresh live.recorded),
        none_of_update fresh acting.recorded] at born
      cases born
  | removeAuthority live acting recorded =>
    rw [Function.update_of_ne (ne_of_recorded fresh recorded),
      Function.update_of_ne (ne_of_recorded fresh live.recorded), none_of_update fresh acting.recorded] at born
    cases born
  | @transferOwnership _ _ created _ _ _ _ _ _ _ _ _ _ _ acting =>
    rw [Function.update_of_ne (ne_of_recorded fresh acting.recorded)] at born
    by_cases here : key = created
    · rw [here, Function.update_self] at born
      cases Option.some.inj born
      exact .authority (.inr (.inr rfl)) (by decide)
    · rw [Function.update_of_ne here, fresh] at born
      cases born
  | execute _ acting =>
    rw [none_of_update fresh acting.recorded] at born
    cases born
  | executeSession _ _ recorded =>
    rw [none_of_update fresh recorded] at born
    cases born
  | @createSession _ _ created _ _ _ _ _ _ _ parsed live acting rank unbounded future duration _ _ =>
    by_cases here : key = created
    · rw [here, Function.update_self] at born
      cases Option.some.inj born
      exact .session rfl parsed live acting rfl rank unbounded future duration
    · rw [Function.update_of_ne here, none_of_update fresh acting.recorded] at born
      cases born
  | @authorize _ _ created _ _ _ _ _ _ _ live acting kind rank unbounded window bound _ payerAt _ =>
    by_cases here : key = created
    · rw [here, Function.update_self] at born
      cases Option.some.inj born
      exact .deferred rfl live acting rfl kind rank unbounded window bound payerAt
    · rw [Function.update_of_ne here, none_of_update fresh acting.recorded] at born
      cases born
  | executeDeferred _ _ _ recorded | reclaimDeferred _ recorded | closeExpiredSession _ recorded =>
    rw [none_of_update fresh recorded] at born
    cases born
  | revokeSession _ acting _ recorded =>
    rw [Function.update_of_ne (ne_of_recorded fresh recorded), none_of_update fresh acting.recorded] at born
    cases born

end Transitions

end LazorKit
