import LazorKit.Soundness.Isolation
import LazorKit.Soundness.Ranks
import LazorKit.Soundness.VaultSigner
import LazorKit.ToMathlib.Lineage

/-! # Who is in control of a wallet

Whatever comes to name a wallet was made by an authority of it, so control of the wallet goes back, from authority to
authority, to those there were at some earlier time. A listing of the authorities, and later ones of the sessions and
the deferred authorizations, therefore say who can make the vault sign from then on. The listings are taken at
different times, and transactions of any kind happen in between.
-/

namespace LazorKit

open Solana

variable {dep : Deployment} {fr : Frame} {accounts : List AccountInfo} {data : Bytes} {reg reg' : Registry}
  {discriminator : UInt8} {approvals : List Approval} {key one : Pubkey} {bytes old new : Bytes}

theorem Fate.face_eq (fate : Fate dep fr accounts discriminator approvals key old (some new))
    (checked : AuthorityAccountHeader.check old = .ok ()) : face (some new) = face (some old) := by
  have tag := (AuthorityAccountHeader.check_eq_ok.mp checked).2.1
  cases fate with
  | kept => rfl
  | recounted wallet => exact absurd ((WalletAccount.check_eq_ok.mp wallet).2.1.symm.trans tag) (by decide)
  | acted _ _ step policy =>
    exact (face_policyStep policy (step.check_eq checked)).trans (face_authStep step checked)
  | sessionUsed session => exact absurd (session.symm.trans tag) (by decide)

/-- A record that appears for a wallet comes with the wallet itself, or from one of its authorities. -/
theorem Transition.maker (transition : Transition dep fr accounts data reg discriminator approvals reg')
    (fresh : reg key = none) (born : reg' key = some bytes) (ofWallet : recordWallet key bytes = one) :
    reg one = none ∨ ∃ creator old assertion, reg creator = some old ∧ AuthorityAccountHeader.check old = .ok () ∧
      (AuthorityAccountHeader.read old).wallet = one ∧
      Approval.authority creator discriminator assertion ∈ approvals := by
  have acting {wallet authority : Pubkey} {authPayload signedPayload before after : Bytes} {approval : Approval}
      (acts : Acting dep fr accounts reg wallet authority authPayload signedPayload discriminator before after approval)
      (only : approvals = [approval]) (same : wallet = one) :
      ∃ creator old assertion, reg creator = some old ∧ AuthorityAccountHeader.check old = .ok () ∧
        (AuthorityAccountHeader.read old).wallet = one ∧
        Approval.authority creator discriminator assertion ∈ approvals := by
    obtain ⟨assertion, approved⟩ := acts.step.approval_eq
    refine ⟨authority, before, assertion, acts.recorded, acts.checked, acts.ofWallet.trans same, ?_⟩
    rw [only, approved]
    exact List.mem_singleton_self _
  cases transition with
  | protocol | migrate | reclaimLegacy | closeLegacy =>
    rw [fresh] at born
    cases born
  | @createWallet wallet authority _ _ _ _ _ _ _ walletFresh =>
    left
    by_cases atAuthority : key = authority
    · subst atAuthority
      rw [Function.update_self] at born
      cases Option.some.inj born
      rwa [← ofWallet, recordWallet_newAuthority (by simp)]
    · rw [Function.update_of_ne atAuthority] at born
      by_cases atWallet : key = wallet
      · subst atWallet
        rw [Function.update_self] at born
        cases Option.some.inj born
        rwa [← ofWallet, recordWallet_newWallet]
      · rw [Function.update_of_ne atWallet, fresh] at born
        cases born
  | @addAuthority _ _ _ created _ _ _ _ _ _ _ parsed live acts =>
    by_cases at_ : key = created
    · subst at_
      rw [Function.update_self] at born
      cases Option.some.inj born
      rw [recordWallet_newAuthority ((AddAuthorityArgs.parse_eq_ok parsed).2.2.trans_lt (by decide))] at ofWallet
      exact .inr (acting acts rfl ofWallet)
    · rw [Function.update_of_ne at_, Function.update_of_ne (ne_of_recorded fresh live.recorded),
        none_of_update fresh acts.recorded] at born
      cases born
  | removeAuthority live acts recorded =>
    rw [Function.update_of_ne (ne_of_recorded fresh recorded),
      Function.update_of_ne (ne_of_recorded fresh live.recorded),
      none_of_update fresh acts.recorded] at born
    cases born
  | @transferOwnership _ _ created _ _ _ _ _ _ _ _ _ _ _ acts =>
    rw [Function.update_of_ne (ne_of_recorded fresh acts.recorded)] at born
    by_cases at_ : key = created
    · subst at_
      rw [Function.update_self] at born
      cases Option.some.inj born
      rw [recordWallet_newAuthority (by simp)] at ofWallet
      exact .inr (acting acts rfl ofWallet)
    · rw [Function.update_of_ne at_, fresh] at born
      cases born
  | execute live acts =>
    rw [none_of_update fresh acts.recorded] at born
    cases born
  | executeSession _ _ recorded =>
    rw [none_of_update fresh recorded] at born
    cases born
  | @createSession _ _ created _ _ _ _ _ _ _ parsed _ acts =>
    by_cases at_ : key = created
    · subst at_
      rw [Function.update_self] at born
      cases Option.some.inj born
      rw [recordWallet_newSession (ParsedCreateSessionArgs.expiresAt_lt parsed)] at ofWallet
      exact .inr (acting acts rfl ofWallet)
    · rw [Function.update_of_ne at_, none_of_update fresh acts.recorded] at born
      cases born
  | @authorize _ _ created _ _ _ _ _ _ _ _ acts _ _ _ _ bound =>
    by_cases at_ : key = created
    · subst at_
      rw [Function.update_self] at born
      cases Option.some.inj born
      rw [recordWallet_newDeferred bound] at ofWallet
      exact .inr (acting acts rfl ofWallet)
    · rw [Function.update_of_ne at_, none_of_update fresh acts.recorded] at born
      cases born
  | executeDeferred _ _ _ recorded | reclaimDeferred _ recorded | closeExpiredSession _ recorded =>
    rw [none_of_update fresh recorded] at born
    cases born
  | revokeSession _ acts _ recorded =>
    rw [Function.update_of_ne (ne_of_recorded fresh recorded), none_of_update fresh acts.recorded] at born
    cases born

section Runs

variable {start : Ledger} {events : List Event} {i j k first second : ℕ} {wallet : Pubkey}

/-- A live authority of the wallet in front of an event. -/
def AuthorityOf (dep : Deployment) (start : Ledger) (events : List Event) (wallet : Pubkey) (k : ℕ) (key : Pubkey) :
    Prop :=
  ∃ role kind material, faces (registryAt dep start events k) key = .authority wallet role kind material

/-- The record comes into existence in an event that the authority approved. -/
def Makes (dep : Deployment) (start : Ledger) (events : List Event) (k : ℕ) (creator key : Pubkey) : Prop :=
  registryAt dep start events k key = none ∧ ∃ call m assertion, SucceedsAt dep start events k call m ∧
    Approval.authority creator call.discriminator assertion ∈ m.approved

/-- A live authority of the wallet whose address, rank, type and key somebody vouches for. -/
def Vouched (dep : Deployment) (start : Ledger) (events : List Event) (vouched : Pubkey → UInt8 → UInt8 → Bytes → Prop)
    (wallet : Pubkey) (k : ℕ) (key : Pubkey) : Prop :=
  ∃ role kind material, faces (registryAt dep start events k) key = .authority wallet role kind material ∧
    vouched key role kind material

/-- Vouched for, or made after a position, through any number of authorities, by one that was vouched for. -/
abbrev InControl (dep : Deployment) (start : Ledger) (events : List Event)
    (vouched : Pubkey → UInt8 → UInt8 → Bytes → Prop) (wallet : Pubkey) (first : ℕ) : ℕ → Pubkey → Prop :=
  Lineage.Traces (AuthorityOf dep start events wallet) (Makes dep start events)
    (Vouched dep start events vouched wallet) first

variable {vouched : Pubkey → UInt8 → UInt8 → Bytes → Prop}

theorem authorityOf_iff : AuthorityOf dep start events wallet k key ↔ ∃ bytes,
    registryAt dep start events k key = some bytes ∧ AuthorityAccountHeader.check bytes = .ok () ∧
      (AuthorityAccountHeader.read bytes).wallet = wallet := by
  constructor
  · rintro ⟨role, kind, material, shows⟩
    obtain ⟨bytes, recorded, checked, ofWallet, _⟩ := face_eq_authority.mp shows
    exact ⟨bytes, recorded, checked, ofWallet⟩
  · rintro ⟨bytes, recorded, checked, rfl⟩
    refine ⟨(AuthorityAccountHeader.read bytes).role, (AuthorityAccountHeader.read bytes).authorityType,
      keyMaterial bytes, ?_⟩
    rw [faces, recorded, face_authority checked]

/-- An authority keeps its wallet, its rank and its key as long as its account lives. -/
theorem face_kept (genesis : Genesis dep start)
    (still : AuthorityOf dep start events wallet (k + 1) key) (lives : registryAt dep start events k key ≠ none) :
    faces (registryAt dep start events (k + 1)) key = faces (registryAt dep start events k) key := by
  rcases registryAt_succ events genesis.funded k with ⟨same, _⟩ | ⟨call, m, success⟩
  · rw [same]
  · obtain ⟨new, recorded, checked, _⟩ := authorityOf_iff.mp still
    obtain ⟨old, before⟩ := Option.ne_none_iff_exists'.mp lives
    have fate := success.transition.fate before
    rw [recorded] at fate
    rw [faces, faces, recorded, before, fate.face_eq (fate.check_authority checked)]

/-- If somebody vouches for every authority there is at a position, every later one is in control. -/
theorem authority_inControl (genesis : Genesis dep start)
    (live : ∃ count, faces (registryAt dep start events first) wallet = .wallet count)
    (listed : ∀ key, AuthorityOf dep start events wallet first key →
      Vouched dep start events vouched wallet first key)
    (le : first ≤ j) (here : AuthorityOf dep start events wallet j key) :
    InControl dep start events vouched wallet first j key := by
  apply Lineage.traces_of_live _ _ le here
  · intro k key low before after
    obtain ⟨bytes, recorded, checked, ofWallet⟩ := authorityOf_iff.mp after
    have fresh : registryAt dep start events k key = none := by
      by_contra lives
      obtain ⟨role, kind, material, shows⟩ := after
      exact before ⟨role, kind, material, (face_kept genesis ⟨role, kind, material, shows⟩ lives).symm.trans shows⟩
    rcases registryAt_succ events genesis.funded k with ⟨same, _⟩ | ⟨call, m, success⟩
    · rw [same, fresh] at recorded
      cases recorded
    · rcases success.transition.maker fresh recorded ((recordWallet_of_authority checked).trans ofWallet) with
        gone | ⟨creator, old, assertion, there, held, named, approved⟩
      · obtain ⟨count, shows⟩ := wallet_kept_between genesis low live
        rw [faces, gone] at shows
        cases shows
      · exact ⟨creator, authorityOf_iff.mpr ⟨old, there, held, named⟩, fresh, call, m, assertion, success, approved⟩
  · intro j key low lives
    have same : faces (registryAt dep start events j) key = faces (registryAt dep start events first) key := by
      induction j, low using Nat.le_induction with
      | base => rfl
      | succ j low ih =>
        have earlier := ih fun l low high => lives l low (by omega)
        obtain ⟨bytes, recorded, _⟩ := authorityOf_iff.mp (lives j low (by omega))
        rw [face_kept genesis (lives (j + 1) (by omega) le_rfl) (by rw [recorded]; exact Option.some_ne_none _),
          earlier]
    obtain ⟨role, kind, material, shows, vouch⟩ := listed key (lives first le_rfl low)
    exact ⟨role, kind, material, same.trans shows, vouch⟩

/-- A session that lives on keeps what its header says. -/
theorem session_read_kept (genesis : Genesis dep start) (le : i ≤ j)
    (lives : ∀ l, i ≤ l → l ≤ j → registryAt dep start events l key ≠ none)
    (here : registryAt dep start events i key = some old) (tag : old.byte 0 = AccountDiscriminator.session.toByte) :
    ∃ now, registryAt dep start events j key = some now ∧ now.byte 0 = AccountDiscriminator.session.toByte ∧
      SessionAccount.read now = SessionAccount.read old := by
  induction j, le using Nat.le_induction with
  | base => exact ⟨old, here, tag, rfl⟩
  | succ j low ih =>
    obtain ⟨now, there, tag, same⟩ := ih fun l low high => lives l low (by omega)
    obtain ⟨next, still⟩ := Option.ne_none_iff_exists'.mp (lives (j + 1) (by omega) le_rfl)
    refine ⟨next, still, ?_⟩
    rcases registryAt_succ events genesis.funded j with ⟨equal, _⟩ | ⟨call, m, success⟩
    · rw [equal, there] at still
      cases still
      exact ⟨tag, same⟩
    · have fate := success.transition.fate there
      rw [still] at fate
      exact ⟨fate.tag.trans tag, ((fate.session tag).session_eq tag).trans same⟩

/-- Why the vault of a wallet signs in the `j`th event, when it is known who is in control. -/
inductive UnderControl (dep : Deployment) (start : Ledger) (events : List Event)
    (vouched : Pubkey → UInt8 → UInt8 → Bytes → Prop) (trusted : Pubkey → Prop) (wallet : Pubkey) (first j : ℕ)
    (call : Call) : Prop
  /-- An authority in control approved this Execute. -/
  | authority {authority : Pubkey} {authPayload signedPayload old new : Bytes} {approval : Approval}
      (acting : Acting dep call.frame call.processorAccounts (registryAt dep start events j) wallet authority
        authPayload signedPayload 4 old new approval)
      (control : InControl dep start events vouched wallet first j authority) :
      UnderControl dep start events vouched trusted wallet first j call
  /-- A trusted key signed, as the key of a session. -/
  | trusted {acc : AccountInfo} (listed : acc ∈ call.processorAccounts) (signs : acc.isSigner = true)
      (trust : trusted acc.key) : UnderControl dep start events vouched trusted wallet first j call
  /-- An authority in control created the session. -/
  | session {k : ℕ} {creation : Call} {creator session : Pubkey} {args : ParsedCreateSessionArgs} (before : k < j)
      (created : SessionCreated dep start events k creation creator session wallet args)
      (signed : ∃ acc ∈ call.processorAccounts, acc.isSigner = true ∧ acc.key = args.sessionKey)
      (control : InControl dep start events vouched wallet first k creator) :
      UnderControl dep start events vouched trusted wallet first j call
  /-- An authority in control signed for these instructions on these accounts. -/
  | deferred {k : ℕ} {creation : Call} {creator deferred : Pubkey} {bytes : Bytes} {ixs : List CompactInstruction}
      {len : ℕ} (before : k < j) (authorized : Authorized dep start events k creation creator deferred bytes)
      (parsed : parseCompactInstructionsRefWithLen call.arguments = .ok (ixs, len))
      (instructions : dep.sha256 (call.arguments.take len) = readKey creation.arguments 0)
      (hashed : computeAccountsHash dep.toRuntime call.processorAccounts ixs = .ok (readKey creation.arguments 32))
      (control : InControl dep start events vouched wallet first k creator) :
      UnderControl dep start events vouched trusted wallet first j call

variable {trusted : Pubkey → Prop} {call : Call} {slot : ℕ}

/-- Three listings at three times: somebody vouches for each authority; later, every session has expired by a certain
slot or has a trusted key; and every deferred authorization has expired. Then from that slot on, whenever the vault
signs, it does so under control of those vouched for. -/
theorem Mandate.underControl (genesis : Genesis dep start) (mandate : Mandate dep start events j call wallet)
    (live : ∃ count, faces (registryAt dep start events first) wallet = .wallet count)
    (authorities : ∀ key, AuthorityOf dep start events wallet first key →
      Vouched dep start events vouched wallet first key)
    (sessions : ∀ key bytes, registryAt dep start events i key = some bytes →
      bytes.byte 0 = AccountDiscriminator.session.toByte → (SessionAccount.read bytes).wallet = wallet →
      (SessionAccount.read bytes).expiresAt < slot ∨ trusted (SessionAccount.read bytes).sessionKey)
    (deferred : ∀ key bytes, registryAt dep start events second key = some bytes →
      DeferredExecAccount.check bytes = .ok () → (DeferredExecAccount.read bytes).wallet = wallet →
      (DeferredExecAccount.read bytes).expiresAt < slot)
    (low : first ≤ i) (low' : first ≤ second) (high : i ≤ j) (high' : second ≤ j) (since : slot ≤ call.slot) :
    UnderControl dep start events vouched trusted wallet first j call := by
  have control (k : ℕ) (le : first ≤ k) (creator : Pubkey) (bytes : Bytes)
      (here : registryAt dep start events k creator = some bytes)
      (checked : AuthorityAccountHeader.check bytes = .ok ())
      (ofWallet : (AuthorityAccountHeader.read bytes).wallet = wallet) :
      InControl dep start events vouched wallet first k creator :=
    authority_inControl genesis live authorities le (authorityOf_iff.mpr ⟨bytes, here, checked, ofWallet⟩)
  cases mandate with
  | authority _ acting =>
    exact .authority acting (control j (low.trans high) _ _ acting.recorded acting.checked acting.ofWallet)
  | @session k _ creator session args _ before created lives signed unexpired =>
    rcases Nat.lt_or_ge k i with early | late
    · obtain ⟨bump, born⟩ := created.created
      obtain ⟨now, there, tag, same⟩ := session_read_kept genesis early
        (fun l after high' => lives l (by omega) (by omega)) born (byte_newSession ..)
      rw [newSessionBytes, SessionAccount.read_toBytes_append
        (ParsedCreateSessionArgs.expiresAt_lt created.parsed)] at same
      rcases sessions session now there tag (by rw [same]) with expired | trust
      · rw [same] at expired
        exact absurd (since.trans unexpired) (Nat.not_le_of_lt expired)
      · obtain ⟨acc, listed, signs, is⟩ := signed
        rw [same] at trust
        exact .trusted listed signs (is ▸ trust)
    · exact .session before created signed
        (control k (low.trans late) _ _ (registry_of_liveAuthority created.live) created.live.2 created.ofWallet)
  | @deferred k _ creator key bytes _ _ _ before authorized lives checked ofWallet parsed instructions
    hashed unexpired =>
    rcases Nat.lt_or_ge k second with early | late
    · have expired := deferred key bytes (lives second early high') checked ofWallet
      omega
    · exact .deferred before authorized parsed instructions hashed
        (control k (low'.trans late) _ _ (registry_of_liveAuthority authorized.live) authorized.live.2
          (authorized.ofWallet.trans ofWallet))

end Runs

end LazorKit
