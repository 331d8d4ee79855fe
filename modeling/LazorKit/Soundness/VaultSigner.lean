import LazorKit.Soundness.InnerSigners
import LazorKit.Soundness.Rent
import LazorKit.Soundness.Sessions

/-! # What a vault signs for

A derived address signs nothing by itself, so every signature of one is the program's doing. Along any run the
program signs for no address but a vault, and for a vault only under a mandate: an authority of its wallet
approves the instruction, or a session does that an Owner or Admin created, or a deferred authorization is
consumed that an Owner or Admin passkey signed. Migration signs for the vault of the previous version.
-/

namespace LazorKit

open Solana

variable {dep : Deployment} {fr : Frame} {accounts : List AccountInfo} {data : Bytes} {reg reg' : Registry}
  {approvals : List Approval} {m m' m'' : Machine Approval} {start : Ledger} {events : List Event}

/-- All that was issued names only one signer. -/
def IssuesFor (key : Pubkey) (m m' : Machine Approval) : Prop :=
  ∃ issued, m'.invoked = m.invoked ++ issued ∧
    ∀ inner ∈ issued, ∀ ref ∈ inner.accounts, ref.isSigner = true → ref.pubkey = key

theorem IssuesFor.silent {key : Pubkey} (same : m'.invoked = m.invoked) : IssuesFor key m m' :=
  ⟨[], by rw [same, List.append_nil], fun _ none => by cases none⟩

theorem IssuesFor.trans {key : Pubkey} (first : IssuesFor key m m') (second : IssuesFor key m' m'') :
    IssuesFor key m m'' := by
  obtain ⟨early, invoked, own⟩ := first
  obtain ⟨late, invoked', own'⟩ := second
  refine ⟨early ++ late, by rw [invoked', invoked, List.append_assoc], fun inner listed => ?_⟩
  rcases List.mem_append.mp listed with before | after
  · exact own inner before
  · exact own' inner after

theorem IssuesFor.invoke {key : Pubkey} {inner : Instruction}
    (own : ∀ ref ∈ inner.accounts, ref.isSigner = true → ref.pubkey = key)
    (success : m.invoke dep.toRuntime fr inner = .ok m') : IssuesFor key m m' := by
  refine ⟨[inner], (Machine.invoke_eq_ok success).2.2, fun other listed => ?_⟩
  cases List.mem_singleton.mp listed
  exact own

private theorem IssuesFor.invoke_if {p : Prop} [Decidable p] {key : Pubkey} {inner : Instruction}
    (own : ∀ ref ∈ inner.accounts, ref.isSigner = true → ref.pubkey = key)
    (success : (if p then m.invoke dep.toRuntime fr inner else .ok m) = .ok m') : IssuesFor key m m' := by
  split at success
  · exact .invoke own success
  · cases success
    exact .silent rfl

private theorem migrateToken_issuesFor {v1Vault destination refundDest : AccountInfo} {i : ℕ}
    (success : migrateToken dep fr accounts v1Vault destination refundDest m i = .ok m') :
    IssuesFor v1Vault.key m m' := by
  simp only [migrateToken, Except.bind_eq_ok, Except.ensure_eq_ok, exists_const] at success
  obtain ⟨_, _, _, _, _, _, _, _, _, _, _, _, _, _, _, _, paid, transfer, close⟩ := success
  have moves : IssuesFor v1Vault.key m paid := by
    apply IssuesFor.invoke_if _ transfer
    simp [metaW, metaRo, metaSigner]
  apply moves.trans (.invoke _ close)
  simp [metaW, metaSigner]

/-- A migration is approved by an Owner of the v1 wallet and signs for that wallet's vault alone. -/
theorem processMigrateWallet_issuesFor (success : processMigrateWallet dep fr accounts data m = .ok m') :
    ∃ wallet authority, KeyAt accounts 1 wallet ∧ KeyAt accounts 2 authority ∧
      (AuthorityAccountHeader.read (m.data authority)).wallet = wallet ∧
      (AuthorityAccountHeader.read (m.data authority)).role = rankOwner ∧
      (∃ assertion, m'.approved = m.approved ++ [.authority authority 17 assertion]) ∧
      IssuesFor (dep.findProgramAddress [Seeds.legacyVault, wallet.bytes]).1 m m' := by
  obtain ⟨_, _, _, _, approval, _, authorityAt, _, step, _, quiet⟩ := processMigrateWallet_eq_ok success
  obtain ⟨assertion, rfl⟩ := step.approval_eq
  simp only [processMigrateWallet, closeProgramAccount, Except.bind_eq_ok, Except.ensure_eq_ok, exists_const,
    accountAt_eq_ok] at success
  obtain ⟨_, payer, _, v1Wallet, walletAt, v1Authority, authorityAt', v1Vault, _, destination, _, refundDest, _,
    systemProgram, _, _, _, _, _, _, _, _, _, _, _, ofWallet, owner, sources, _, approvedBy, authentication, isVault,
    moved, tokens, paid, payment, _, closedAuthority, ⟨_, drained, drain, zero⟩, _, drainedWallet, drainWallet,
    zeroWallet⟩ := success
  cases authorityAt.unique ⟨_, authorityAt', rfl⟩
  refine ⟨v1Wallet.key, v1Authority.key, ⟨_, walletAt, rfl⟩, ⟨_, authorityAt', rfl⟩, ofWallet, owner,
    ⟨assertion, quiet.approved⟩, ?_⟩
  rw [← isVault]
  have tokensMoved : IssuesFor v1Vault.key approvedBy moved :=
    Except.foldlM_preserves (R := IssuesFor v1Vault.key) (fun _ => .silent rfl) (fun _ _ _ => IssuesFor.trans)
      (fun _ _ _ _ => migrateToken_issuesFor) tokens
  have solMoved : IssuesFor v1Vault.key moved paid := by
    apply IssuesFor.invoke_if _ payment
    simp [metaW, metaSignerW]
  have closes := (Settles.of_drain_zero drain zero).trans (.of_drain_zero drainWallet zeroWallet)
  exact (IssuesFor.silent (Settles.of_authenticate authentication rfl).invoked).trans
    (tokensMoved.trans (solMoved.trans (.silent closes.invoked)))

private theorem Transition.execute_inv (transition : Transition dep fr accounts data reg 4 approvals reg') :
    (∃ wallet authority authPayload signedPayload old new approval,
        Acting dep fr accounts reg wallet authority authPayload signedPayload 4 old new approval ∧
        approvals = [approval]) ∨
      ∃ wallet session sessionKey bytes, SessionUse fr accounts reg wallet session sessionKey bytes ∧
        approvals = [.session session sessionKey] := by
  generalize which : (4 : UInt8) = discriminator at transition
  cases transition with
  | execute _ acting => exact .inl ⟨_, _, _, _, _, _, _, acting, rfl⟩
  | executeSession walletAt _ recorded tag _ ofWallet unexpired signed =>
    exact .inr ⟨_, _, _, _, ⟨walletAt, recorded, tag, ofWallet, rfl, unexpired, signed⟩, rfl⟩
  | protocol layer =>
    subst which
    exact absurd layer.1 (by decide)
  | _ => exact absurd which (by decide)

/-- Whoever signs an inner instruction of an expanded batch is the vault or signed outside. -/
theorem signs_of_expands {payer vault : Pubkey} {sessionKey : Option Pubkey} {ixs : List CompactInstruction}
    {issued : List Instruction} (each : List.Forall₂ (Expands accounts payer vault sessionKey) ixs issued)
    {inner : Instruction} {ref : AccountMeta} (listed : inner ∈ issued) (named : ref ∈ inner.accounts)
    (signs : ref.isSigner = true) :
    ref.pubkey = vault ∨ ∃ acc ∈ accounts, acc.key = ref.pubkey ∧ acc.isSigner = true := by
  obtain ⟨ix, _, expands⟩ := each.exists_left listed
  obtain ⟨byte, _, acc, at_, same, _, signing⟩ := expands.refs.exists_left named
  rcases signing.mp signs with isVault | ⟨_, outside, _⟩
  · exact .inl (same.trans isVault)
  · exact .inr ⟨acc, List.mem_of_getElem? at_, same.symm, outside⟩

/-- Why the vault of a wallet signs in the `j`th event. -/
inductive Mandate (dep : Deployment) (start : Ledger) (events : List Event) (j : ℕ) (call : Call) (wallet : Pubkey) :
    Prop
  /-- A live authority of the wallet approved this Execute. -/
  | authority {key : Pubkey} {authPayload signedPayload old new : Bytes} {approval : Approval}
      (which : call.discriminator = 4)
      (acting : Acting dep call.frame call.processorAccounts (registryAt dep start events j) wallet key authPayload
        signedPayload 4 old new approval) :
      Mandate dep start events j call wallet
  /-- A session of the wallet did, which an Owner or Admin created; its key signed, and it has not expired. -/
  | session {k : ℕ} {creation : Call} {creator session : Pubkey} {args : ParsedCreateSessionArgs}
      (which : call.discriminator = 4) (before : k < j)
      (created : SessionCreated dep start events k creation creator session wallet args)
      (lives : ∀ l, k < l → l ≤ j → registryAt dep start events l session ≠ none)
      (signed : ∃ acc ∈ call.processorAccounts, acc.isSigner = true ∧ acc.key = args.sessionKey)
      (unexpired : call.slot ≤ args.expiresAt) :
      Mandate dep start events j call wallet
  /-- An Owner or Admin passkey signed for these instructions on these accounts, and it is used up. -/
  | deferred {k : ℕ} {creation : Call} {creator deferred : Pubkey} {bytes : Bytes} {ixs : List CompactInstruction}
      {len : ℕ} (which : call.discriminator = 7) (before : k < j)
      (authorized : Authorized dep start events k creation creator deferred bytes)
      (lives : ∀ l, k < l → l ≤ j → registryAt dep start events l deferred = some bytes)
      (checked : DeferredExecAccount.check bytes = .ok ())
      (ofWallet : (DeferredExecAccount.read bytes).wallet = wallet)
      (parsed : parseCompactInstructionsRefWithLen call.arguments = .ok (ixs, len))
      (instructions : dep.sha256 (call.arguments.take len) = readKey creation.arguments 0)
      (hashed : computeAccountsHash dep.toRuntime call.processorAccounts ixs = .ok (readKey creation.arguments 32))
      (unexpired : call.slot ≤ (DeferredExecAccount.read bytes).expiresAt)
      (consumed : registryAt dep start events (j + 1) deferred = none) :
      Mandate dep start events j call wallet

/-- An approval of the v1 Owner of a wallet, under which the wallet's v1 vault signs. -/
structure LegacyMandate (dep : Deployment) (ledger : Ledger) (call : Call) (m : Machine Approval) (wallet : Pubkey) :
    Prop where
  which : call.discriminator = 17
  walletAt : KeyAt call.processorAccounts 1 wallet
  owner : ∃ authority assertion, KeyAt call.processorAccounts 2 authority ∧
    (AuthorityAccountHeader.read (ledger authority).data).wallet = wallet ∧
    (AuthorityAccountHeader.read (ledger authority).data).role = rankOwner ∧
    m.approved = [.authority authority 17 assertion]

variable {j : ℕ} {call : Call}

theorem SucceedsAt.mandate_execute (genesis : Genesis dep start) (success : SucceedsAt dep start events j call m)
    (which : call.discriminator = 4) {wallet : Pubkey} (walletAt : KeyAt call.processorAccounts 1 wallet) :
    Mandate dep start events j call wallet := by
  have transition := success.transition
  rw [which] at transition
  rcases transition.execute_inv with ⟨_, _, _, _, _, _, _, acting, _⟩ | ⟨_, session, sessionKey, bytes, use, _⟩
  · cases walletAt.unique acting.walletAt
    exact .authority which acting
  · cases walletAt.unique use.walletAt
    obtain ⟨k, creation, creator, owner, args, bump, views, before, created, lives, _, same⟩ :=
      session_provenance genesis use.recorded use.tag
    obtain ⟨_, ofWallet, key, expiry⟩ := same.session (ParsedCreateSessionArgs.expiresAt_lt created.parsed)
    have signed := use.signed
    have unexpired := use.unexpired
    rw [use.ofWallet] at ofWallet
    rw [← use.key, key] at signed
    rw [expiry] at unexpired
    cases ofWallet
    exact .session which before created lives signed unexpired

theorem SucceedsAt.mandate_deferred (genesis : Genesis dep start) (success : SucceedsAt dep start events j call m)
    (which : call.discriminator = 7) {wallet : Pubkey} (walletAt : KeyAt call.processorAccounts 1 wallet) :
    Mandate dep start events j call wallet := by
  have transition := success.transition
  rw [which] at transition
  obtain ⟨owner, deferred, bytes, ixs, len, ownerAt, recorded, checked, gone, consumes, ofWallet, parsed, instructions,
    hashed⟩ := transition.executeDeferred_inv
  cases walletAt.unique ownerAt
  obtain ⟨k, creation, creator, before, authorized, lives⟩ := deferred_provenance genesis recorded checked
  refine .deferred which before authorized lives checked ofWallet parsed ?_ ?_ consumes.unexpired gone
  · rw [instructions, authorized.instructions]
  · rw [hashed, authorized.accountsHash]

/-- In any run, what signs an inner instruction of the program signed the transaction; or it is the vault of the
wallet the instruction is for, under a mandate; or the v1 vault of a wallet its Owner migrates. -/
theorem SucceedsAt.signers (genesis : Genesis dep start) (unsigned : DerivedNeverSign dep events)
    (success : SucceedsAt dep start events j call m) {inner : Instruction} {ref : AccountMeta}
    (issued : inner ∈ m.invoked) (named : ref ∈ inner.accounts) (signs : ref.isSigner = true) :
    (∃ acc ∈ call.processorAccounts, acc.key = ref.pubkey ∧ acc.isSigner = true) ∨
      (∃ wallet, ref.pubkey = vaultOf dep wallet ∧ Mandate dep start events j call wallet) ∨
      ∃ wallet, ref.pubkey = (dep.findProgramAddress [Seeds.legacyVault, wallet.bytes]).1 ∧
        LegacyMandate dep (ledgerAt dep start events j) call m wallet := by
  obtain ⟨collected, collects, dispatched⟩ := Call.execute_eq_ok success.2
  have few := unsigned call (List.mem_of_getElem? success.1)
  have nothing := collects.invoked
  cases silent : issuesInner call.discriminator with
  | false =>
    have settles := dispatch_settles few call.processorAccounts_subset silent dispatched
    rw [settles.invoked, nothing] at issued
    cases issued
  | true =>
    rcases of_decide_eq_true silent with which | which | which
    · rw [which] at dispatched
      obtain ⟨_, wallet, _, _, _, _, _, walletAt, _, _, invoked, each, _⟩ := processExecute_expands dispatched
      rw [invoked, nothing, List.nil_append] at issued
      rcases signs_of_expands each issued named signs with isVault | outside
      · exact .inr (.inl ⟨wallet, isVault, success.mandate_execute genesis which walletAt⟩)
      · exact .inl outside
    · rw [which] at dispatched
      obtain ⟨_, wallet, _, _, _, _, walletAt, _, expanded, invoked⟩ := processExecuteDeferred_invoked dispatched
      rw [invoked, nothing, List.nil_append] at issued
      rcases signs_of_expands (expands_of_innerInstructions expanded) issued named signs with isVault | outside
      · exact .inr (.inl ⟨wallet, isVault, success.mandate_deferred genesis which walletAt⟩)
      · exact .inl outside
    · have whole : call.accounts.infos = call.processorAccounts := by
        rw [Call.processorAccounts, which]
        rfl
      have untouched : collected = Machine.start (ledgerAt dep start events j) := by
        rw [Collected, which] at collects
        exact collects
      rw [which, whole, untouched] at dispatched
      obtain ⟨wallet, authority, walletAt, authorityAt, ofWallet, owner, ⟨assertion, approved⟩, also, invoked, own⟩ :=
        processMigrateWallet_issuesFor dispatched
      rw [invoked] at issued
      exact .inr (.inr ⟨wallet, own inner issued ref named signs, which, walletAt, authority, assertion, authorityAt,
        ofWallet, owner, approved⟩)

/-- The vault signs the transfer that the session of the sample makes. It did not sign the call, so it signs under
a mandate of its wallet. -/
theorem SucceedsAt.signers_session :
    ∃ inner ∈ (resultAt Sample.deployment Ledger.empty Sample.events 10 Sample.executeSession).invoked,
      ∃ ref ∈ inner.accounts, ref.pubkey = Sample.vault ∧ ref.isSigner = true ∧
        ∃ wallet, Sample.vault = vaultOf Sample.deployment wallet ∧
          Mandate Sample.deployment Ledger.empty Sample.events 10 Sample.executeSession wallet := by
  have success : SucceedsAt Sample.deployment Ledger.empty Sample.events 10 Sample.executeSession _ :=
    succeedsAt_resultAt rfl (by decide +kernel)
  have issued : ∃ inner ∈ (resultAt Sample.deployment Ledger.empty Sample.events 10 Sample.executeSession).invoked,
      ∃ ref ∈ inner.accounts, ref.pubkey = Sample.vault ∧ ref.isSigner = true := by decide +kernel
  obtain ⟨inner, listed, ref, named, isVault, signs⟩ := issued
  refine ⟨inner, listed, ref, named, isVault, signs, ?_⟩
  rcases SucceedsAt.signers (genesis_empty Sample.deployment) Sample.derivedNeverSign success listed named signs with
    ⟨acc, handed, same, signed⟩ | ⟨wallet, is, mandate⟩ | ⟨_, _, legacy⟩
  · have outside : ∀ acc ∈ Sample.executeSession.processorAccounts, acc.key = Sample.vault → acc.isSigner = false := by
      decide +kernel
    rw [outside acc handed (same.trans isVault)] at signed
    cases signed
  · exact ⟨wallet, isVault.symm.trans is, mandate⟩
  · exact absurd legacy.which (by decide)

end LazorKit
