import LazorKit.Proofs.ConcreteRun
import LazorKit.Proofs.MigratedTokens
import LazorKit.Proofs.Outcome

/-! # What MigrateWallet leaves

The instruction ends every way to sign for the v1 vault, so nothing may stay there. It moves each listed token,
sweeps the SOL, checks that the vault is empty and only then closes the wallet and the authority into the refund
destination. Nothing keeps that destination from being the vault itself, which then ends with their rent.
-/

namespace LazorKit

open Solana Balances

/-- The accounts of a migration. -/
structure MigrationAccounts where
  wallet : Pubkey
  authority : Pubkey
  vault : Pubkey
  destination : Pubkey
  refund : Pubkey
  tokens : List MigratedToken

/-- The token whose accounts stand at a position of the list. -/
structure NamesToken (accounts : List AccountInfo) (i : ℕ) (token : MigratedToken) : Prop where
  source : KeyAt accounts (9 + i * tokenAccountsPerMigration) token.source
  dest : KeyAt accounts (9 + i * tokenAccountsPerMigration + 1) token.dest
  mint : KeyAt accounts (9 + i * tokenAccountsPerMigration + 2) token.mint

/-- The mints an instruction lists are among these. -/
def ListsMints (accounts : List AccountInfo) (numTokens : ℕ) (mints : Set Pubkey) : Prop :=
  ∀ i < numTokens, ∀ mint, KeyAt accounts (9 + i * tokenAccountsPerMigration + 2) mint → mint ∈ mints

/-- The accounts as an instruction lists them. -/
structure MigrationAccounts.Named (migration : MigrationAccounts) (accounts : List AccountInfo) (numTokens : ℕ) :
    Prop where
  wallet : KeyAt accounts 1 migration.wallet
  authority : KeyAt accounts 2 migration.authority
  vault : KeyAt accounts 3 migration.vault
  destination : KeyAt accounts 4 migration.destination
  refund : KeyAt accounts 5 migration.refund
  tokens : List.Forall₂ (NamesToken accounts) (List.range numTokens) migration.tokens

theorem MigrationAccounts.Named.listed {migration : MigrationAccounts} {accounts : List AccountInfo} {numTokens : ℕ}
    (named : migration.Named accounts numTokens) {keys : Finset Pubkey} (within : keysOf accounts ⊆ keys) :
    ∀ token ∈ migration.tokens, token.source ∈ keys ∧ token.dest ∈ keys := by
  intro token listed
  obtain ⟨i, _, names⟩ := named.tokens.exists_left listed
  exact ⟨within names.source.mem_keysOf, within names.dest.mem_keysOf⟩

/-- Nothing is left behind: the vault holds no lamports; of each mint the destination owns what it owned before and
everything the sources held; the sources are closed; the v1 wallet and authority are zeroed and hold nothing; and
the lamports are all still there. -/
structure Swept (migration : MigrationAccounts) (accounts : List AccountInfo) (before after : Ledger) : Prop where
  vault : (after migration.vault).lamports = 0
  tokens : ∀ mint keys, keysOf accounts ⊆ keys →
    ∑ key ∈ keys, tokensHeld mint migration.destination (after key) =
      ∑ key ∈ keys, stake mint migration.destination (sourcesOf migration.tokens) before key
  closed : ∀ token ∈ migration.tokens, (after token.source).data = [] ∧ (after token.source).owner = systemProgram ∧
    (token.source ≠ migration.destination → (after token.source).lamports = 0)
  wallet : (after migration.wallet).data.isZero = true ∧ (after migration.wallet).lamports = 0
  authority : (after migration.authority).data.isZero = true ∧ (after migration.authority).lamports = 0
  lamports : Conserves (keysOf accounts) before.balances after.balances

/-- The runtime keeps no data in an account without lamports. -/
def Backed (ledger : Ledger) : Prop := ∀ key, (ledger key).data.isZero = false → 0 < (ledger key).lamports

section Tokens

variable {dep : Deployment} {fr : Frame} {accounts : List AccountInfo} {m m' : Machine Approval}
  {v1Vault destination refundDest : AccountInfo} {feeless : Set Pubkey}

private theorem tokenMoved_zero (ledger : Ledger) (source dest : Pubkey) : TokenMoved ledger ledger source dest 0 where
  owner _ := rfl
  length _ := rfl
  identity _ := rfl
  others _ _ _ := rfl
  amounts key := by simp only [ite_self]
  lamports key := by simp only [nativePart, ite_self]

private theorem migrateToken_step (moves : MovesTokens dep.toRuntime fr feeless) {i : ℕ}
    (exempt : ∀ mint, KeyAt accounts (9 + i * tokenAccountsPerMigration + 2) mint → mint ∈ feeless)
    (success : migrateToken dep fr accounts v1Vault destination refundDest m i = .ok m') :
    ∃ token, NamesToken accounts i token ∧
      TokenStep v1Vault.key destination.key refundDest.key token m.ledger m'.ledger := by
  simp only [migrateToken, Except.bind_eq_ok, Except.ensure_eq_ok, exists_const] at success
  obtain ⟨source, sourceAt, dest, destAt, mint, mintAt, program, _, token, ⟨ownsSource, ownsDest, _⟩,
    ⟨longSource, longDest⟩, sourceOwner, destOwner, sameMint, mintKey, _, paid, transfer, close⟩ := success
  have sourceHeld : IsHeldBy mint.key v1Vault.key (m.ledger source.key) :=
    ⟨⟨by rw [show (m.ledger source.key).owner = _ from ownsSource]; exact token, longSource, mintKey⟩, sourceOwner⟩
  have destHeld : IsHeldBy mint.key destination.key (m.ledger dest.key) :=
    ⟨⟨by rw [show (m.ledger dest.key).owner = _ from ownsDest]; exact token, longDest, sameMint.symm.trans mintKey⟩,
      destOwner⟩
  have moved : TokenMoved m.ledger paid.ledger source.key dest.key (tokenAmount (m.ledger source.key)) := by
    split at transfer
    · exact moves.transferChecked token (tokenAmount_lt _) (exempt _ (keyAt_of_accountAt mintAt))
        (Machine.invoke_performs transfer)
    · next empty =>
      cases transfer
      rw [show tokenAmount (m.ledger source.key) = 0 from Nat.eq_zero_of_not_pos empty]
      exact tokenMoved_zero ..
  exact ⟨⟨source.key, dest.key, mint.key⟩,
    ⟨keyAt_of_accountAt sourceAt, keyAt_of_accountAt destAt, keyAt_of_accountAt mintAt⟩, sourceHeld, destHeld,
    paid.ledger, moved, moves.closeAccount token (Machine.invoke_performs close)⟩

private theorem migrateTokens_run (moves : MovesTokens dep.toRuntime fr feeless) {positions : List ℕ}
    (exempt : ∀ i ∈ positions, ∀ mint, KeyAt accounts (9 + i * tokenAccountsPerMigration + 2) mint → mint ∈ feeless)
    (success : positions.foldlM (migrateToken dep fr accounts v1Vault destination refundDest) m = .ok m') :
    ∃ tokens, List.Forall₂ (NamesToken accounts) positions tokens ∧
      Migrates v1Vault.key destination.key refundDest.key tokens m.ledger m'.ledger := by
  induction positions generalizing m with
  | nil =>
    cases success
    exact ⟨[], .nil, .nil⟩
  | cons i rest ih =>
    rw [List.foldlM_cons, Except.bind_eq_ok] at success
    obtain ⟨middle, first, later⟩ := success
    rw [List.forall_mem_cons] at exempt
    obtain ⟨token, named, step⟩ := migrateToken_step moves exempt.1 first
    obtain ⟨tokens, others, run⟩ := ih exempt.2 later
    exact ⟨token :: tokens, .cons named others, .cons step run⟩

end Tokens

/-- Owners are the same, and so is the data of every account a token program owns. -/
def SameTokens (before after : Ledger) : Prop :=
  ∀ key, (after key).owner = (before key).owner ∧
    ((after key).data = (before key).data ∨ ¬ isTokenProgram (before key).owner)

namespace SameTokens

variable {before middle after : Ledger}

theorem trans (first : SameTokens before middle) (second : SameTokens middle after) : SameTokens before after := by
  intro key
  obtain ⟨owner, data⟩ := first key
  obtain ⟨owner', data'⟩ := second key
  refine ⟨owner'.trans owner, ?_⟩
  rcases data with same | foreign
  · rcases data' with same' | foreign'
    · exact .inl (same'.trans same)
    · exact .inr (owner ▸ foreign')
  · exact .inr foreign

/-- Rewriting one account's data does not matter unless it is a token account. -/
theorem of_rewritten {closed : Pubkey} (owner : ∀ key, (after key).owner = (before key).owner)
    (data : ∀ key, key ≠ closed → (after key).data = (before key).data)
    (foreign : ¬ isTokenProgram (before closed).owner) : SameTokens before after := by
  intro key
  refine ⟨owner key, ?_⟩
  by_cases same : key = closed
  · exact .inr (same ▸ foreign)
  · exact .inl (data key same)

theorem tokensOf (same : SameTokens before after) (mint key : Pubkey) :
    tokensOf mint (after key) = LazorKit.tokensOf mint (before key) := by
  obtain ⟨owner, data | foreign⟩ := same key
  · have alike : IsTokenOf mint (after key) ↔ IsTokenOf mint (before key) :=
      isTokenOf_congr owner (by rw [data]) (by rw [tokenIdentity, tokenIdentity, data])
    simp only [LazorKit.tokensOf, alike, tokenAmount, data]
  · rw [tokensOf_of_not foreign, tokensOf_of_not (owner ▸ foreign)]

theorem tokensHeld (same : SameTokens before after) (mint owner key : Pubkey) :
    tokensHeld mint owner (after key) = LazorKit.tokensHeld mint owner (before key) := by
  obtain ⟨sameOwner, data | foreign⟩ := same key
  · have alike : IsHeldBy mint owner (after key) ↔ IsHeldBy mint owner (before key) :=
      isHeldBy_congr sameOwner (by rw [data]) (by rw [tokenIdentity, tokenIdentity, data])
    simp only [LazorKit.tokensHeld, alike, tokenAmount, data]
  · rw [tokensHeld_of_not foreign, tokensHeld_of_not (sameOwner ▸ foreign)]

theorem stake (same : SameTokens before after) (mint destination : Pubkey) (pending : List Pubkey) :
    stake mint destination pending after = LazorKit.stake mint destination pending before := by
  funext key
  simp only [LazorKit.stake, same.tokensOf, same.tokensHeld]

end SameTokens

/-- One of the two accounts closed at the end. -/
structure ProgramClosed (before after : Ledger) (closed refund : Pubkey) : Prop where
  distinct : refund ≠ closed
  emptied : EmptiedInto before after closed refund
  owner : ∀ key, (after key).owner = (before key).owner
  data : ∀ key, key ≠ closed → (after key).data = (before key).data

/-- The ledgers a migration goes through: the authority approves, the tokens move, the vault is swept, and the
authority and the wallet are closed. -/
structure Phases (dep : Deployment) (migration : MigrationAccounts) (start approved moved swept half final : Ledger) :
    Prop where
  walletOwned : (start migration.wallet).owner = dep.programId
  authorityOwned : (start migration.authority).owner = dep.programId
  walletTag : (start migration.wallet).data.head? = some legacyDiscriminatorWallet
  authorityTag : (start migration.authority).data.byte 0 = legacyDiscriminatorAuthority
  approval : ∃ bytes, approved = storeAt start migration.authority bytes
  run : Migrates migration.vault migration.destination migration.refund migration.tokens approved moved
  sweep : moved = swept ∨ ∃ amount, SystemMoved moved swept migration.vault migration.destination amount
  respects : Machine.Respects dep.toRuntime approved swept
  empty : (swept migration.vault).lamports = 0
  authorityClosed : ProgramClosed swept half migration.authority migration.refund
  walletClosed : ProgramClosed half final migration.wallet migration.refund

private theorem closeProgramAccount_closed {dep : Deployment} {m m' : Machine Approval}
    {account refundDest : AccountInfo} (success : closeProgramAccount dep m account refundDest = .ok m') :
    ProgramClosed m.ledger m'.ledger account.key refundDest.key := by
  simp only [closeProgramAccount, Except.bind_eq_ok, Except.ensure_eq_ok, exists_const] at success
  obtain ⟨distinct, drained, drain, zero⟩ := success
  have unmoved := (drainInto_eq_ok drain).1
  have stored := (zeroData_eq_ok zero).1
  exact ⟨distinct.symm, emptiedInto_of_drain_zero drain zero,
    fun key => (stored.owner key).trans (unmoved.owner key),
    fun key other => (stored.data_of_ne other).trans (unmoved.data key)⟩

private theorem processMigrateWallet_phases {dep : Deployment} {fr : Frame} {accounts : List AccountInfo} {data : Bytes}
    {m m' : Machine Approval} {feeless : Set Pubkey} (moves : MovesTokens dep.toRuntime fr feeless)
    (exempt : ListsMints accounts (data.byte 0).toNat feeless)
    (success : processMigrateWallet dep fr accounts data m = .ok m') :
    ∃ migration approved moved swept half, MigrationAccounts.Named migration accounts (data.byte 0).toNat ∧
      Phases dep migration m.ledger approved moved swept half m'.ledger := by
  simp only [processMigrateWallet, Except.bind_eq_ok, Except.ensure_eq_ok, exists_const] at success
  obtain ⟨_, payer, _, v1Wallet, walletAt, v1Authority, authorityAt, v1Vault, vaultAt, destination, destinationAt,
    refundDest, refundAt, system, _, _, _, _, _, _, _, ⟨walletOwned, authorityOwned⟩, walletTag, _, authorityTag, _, _,
    sources, _, approved, authentication, _, moved, loop, swept, sweep, empty, half, closeAuthority,
    closeWallet⟩ := success
  obtain ⟨tokens, named, run⟩ := migrateTokens_run moves (fun i listed => exempt i (List.mem_range.mp listed)) loop
  obtain ⟨bytes, _, _, stored, _⟩ := authenticate_eq_ok authentication rfl
  have tokensForeign : Foreign dep approved moved :=
    Except.foldlM_preserves (Foreign.refl dep) (fun _ _ _ => Foreign.trans)
      (fun _ _ _ _ => migrateToken_foreign) loop
  refine ⟨⟨v1Wallet.key, v1Authority.key, v1Vault.key, destination.key, refundDest.key, tokens⟩, approved.ledger,
    moved.ledger, swept.ledger, half.ledger, ⟨keyAt_of_accountAt walletAt, keyAt_of_accountAt authorityAt,
      keyAt_of_accountAt vaultAt, keyAt_of_accountAt destinationAt, keyAt_of_accountAt refundAt, named⟩,
    { walletOwned := walletOwned
      authorityOwned := authorityOwned
      walletTag := walletTag
      authorityTag := authorityTag
      approval := ⟨bytes, stored.ledger⟩
      run := run
      sweep := ?_
      respects := (tokensForeign.trans (invoke_if_foreign sweep)).respects
      empty := empty
      authorityClosed := closeProgramAccount_closed closeAuthority
      walletClosed := closeProgramAccount_closed closeWallet }⟩
  split at sweep
  · exact .inr ⟨_, moves.systemTransfer (Machine.invoke_performs sweep)⟩
  · cases sweep
    exact .inl rfl

namespace Phases

variable {dep : Deployment} {migration : MigrationAccounts} {start approved moved swept half final : Ledger}

theorem distinct (phases : Phases dep migration start approved moved swept half final) :
    migration.authority ≠ migration.wallet := by
  intro same
  have tag := phases.authorityTag
  rw [same, Bytes.byte, List.getD_eq_getElem?_getD, ← List.head?_eq_getElem?, phases.walletTag] at tag
  exact absurd tag (by decide)

private theorem approved_owner (phases : Phases dep migration start approved moved swept half final) (key : Pubkey) :
    (approved key).owner = (start key).owner := by
  obtain ⟨bytes, rfl⟩ := phases.approval
  rw [storeAt, Ledger.set_apply]
  split
  · next same => rw [same]
  · rfl

private theorem approved_of_ne (phases : Phases dep migration start approved moved swept half final) {key : Pubkey}
    (other : key ≠ migration.authority) : approved key = start key := by
  obtain ⟨bytes, rfl⟩ := phases.approval
  exact Ledger.set_of_ne other

private theorem approved_balances (phases : Phases dep migration start approved moved swept half final) :
    approved.balances = start.balances := by
  obtain ⟨bytes, rfl⟩ := phases.approval
  funext key
  rw [Ledger.balances, storeAt, Ledger.set_apply]
  split
  · next same => rw [same]; rfl
  · rfl

/-- The program's own accounts are the program's until the end and lose no lamports before they are closed. -/
theorem swept_owned (phases : Phases dep migration start approved moved swept half final) {key : Pubkey}
    (owned : (start key).owner = dep.programId) :
    (swept key).owner = dep.programId ∧ (start key).lamports ≤ (swept key).lamports := by
  obtain ⟨owner, _, more⟩ := Machine.foreignChange_of_owned (phases.respects key)
    ((phases.approved_owner key).trans owned)
  exact ⟨owner, (congrFun phases.approved_balances key).symm.trans_le more⟩

private theorem sweep_same (phases : Phases dep migration start approved moved swept half final) (key : Pubkey) :
    (swept key).owner = (moved key).owner ∧ (swept key).data = (moved key).data := by
  rcases phases.sweep with rfl | ⟨_, sweep⟩
  · exact ⟨rfl, rfl⟩
  · exact ⟨sweep.owner key, sweep.data key⟩

/-- Nothing after the tokens have moved touches a token account. -/
theorem tokens_final (phases : Phases dep migration start approved moved swept half final)
    (program : ¬ isTokenProgram dep.programId) : SameTokens moved final := by
  have sweep : SameTokens moved swept := fun key => ⟨(phases.sweep_same key).1, .inl (phases.sweep_same key).2⟩
  have authorityOwner := (phases.swept_owned phases.authorityOwned).1
  have walletOwner := (phases.swept_owned phases.walletOwned).1
  have authority : SameTokens swept half := SameTokens.of_rewritten phases.authorityClosed.owner
    phases.authorityClosed.data (by rwa [authorityOwner])
  have wallet : SameTokens half final := SameTokens.of_rewritten phases.walletClosed.owner
    phases.walletClosed.data (by rwa [phases.authorityClosed.owner, walletOwner])
  exact (sweep.trans authority).trans wallet

private theorem tokens_approved (phases : Phases dep migration start approved moved swept half final)
    (program : ¬ isTokenProgram dep.programId) : SameTokens start approved :=
  SameTokens.of_rewritten phases.approved_owner
    (fun _ other => congrArg Account.data (phases.approved_of_ne other)) (by rwa [phases.authorityOwned])

/-- A source is not the program's, so it is as it was when the tokens start to move. -/
theorem source_approved (phases : Phases dep migration start approved moved swept half final)
    (program : ¬ isTokenProgram dep.programId) {token : MigratedToken} (listed : token ∈ migration.tokens) :
    approved token.source = start token.source := by
  apply phases.approved_of_ne
  intro same
  have held := (phases.run.source listed).1.1
  rw [same, phases.approved_owner, phases.authorityOwned] at held
  exact program held

theorem closed (phases : Phases dep migration start approved moved swept half final) {token : MigratedToken}
    (listed : token ∈ migration.tokens) : (final token.source).data = [] ∧
      (final token.source).owner = systemProgram ∧
        (token.source ≠ migration.destination → (final token.source).lamports = 0) := by
  obtain ⟨gone, notRefund⟩ := phases.run.closed listed
  obtain ⟨sweptOwner, sweptData⟩ := phases.sweep_same token.source
  rw [gone] at sweptOwner sweptData
  have notAuthority : token.source ≠ migration.authority := by
    intro same
    rw [same, (phases.swept_owned phases.authorityOwned).1] at sweptOwner
    exact dep.programId_ne_system sweptOwner
  have notWallet : token.source ≠ migration.wallet := by
    intro same
    rw [same, (phases.swept_owned phases.walletOwned).1] at sweptOwner
    exact dep.programId_ne_system sweptOwner
  refine ⟨?_, ?_, fun notDestination => ?_⟩
  · rw [phases.walletClosed.data _ notWallet, phases.authorityClosed.data _ notAuthority, sweptData]
  · rw [phases.walletClosed.owner, phases.authorityClosed.owner, sweptOwner]
  · rw [phases.walletClosed.emptied.others _ notWallet notRefund,
      phases.authorityClosed.emptied.others _ notAuthority notRefund]
    by_cases isVault : token.source = migration.vault
    · rw [isVault, phases.empty]
    · rcases phases.sweep with same | ⟨_, sweep⟩
      · rw [← same, gone]
      · have kept : (swept token.source).lamports = (moved token.source).lamports :=
          sweep.lamports.of_ne isVault notDestination
        rw [kept, gone]

private theorem authority_zeroed (phases : Phases dep migration start approved moved swept half final) :
    (final migration.authority).data.isZero = true ∧ (final migration.authority).lamports = 0 := by
  have emptied := phases.authorityClosed.emptied
  constructor
  · rw [phases.walletClosed.data _ phases.distinct]
    exact emptied.zeroed
  · rw [phases.walletClosed.emptied.others _ phases.distinct phases.authorityClosed.distinct.symm]
    exact emptied.drained

/-- The vault is empty at the end exactly when the closed accounts went somewhere else. -/
theorem vault_empty_iff (phases : Phases dep migration start approved moved swept half final) (backed : Backed start) :
    (final migration.vault).lamports = 0 ↔ migration.refund ≠ migration.vault := by
  have held : 0 < (start migration.authority).lamports := by
    apply backed
    have tag := phases.authorityTag
    rw [← Bool.not_eq_true]
    intro zero
    rw [Bytes.byte_zero_of_isZero zero] at tag
    exact absurd tag (by decide)
  have kept := (phases.swept_owned phases.authorityOwned).2
  have credited := phases.authorityClosed.emptied.credited phases.authorityClosed.distinct
  constructor
  · intro empty same
    have more := phases.walletClosed.emptied.credited phases.walletClosed.distinct
    rw [same] at more credited
    omega
  · intro other
    have stays {before after : Ledger} {closed : Pubkey} (step : ProgramClosed before after closed migration.refund)
        (empty : (before migration.vault).lamports = 0) : (after migration.vault).lamports = 0 := by
      by_cases isClosed : migration.vault = closed
      · rw [isClosed]
        exact step.emptied.drained
      · rw [step.emptied.others _ isClosed other.symm, empty]
    exact stays phases.walletClosed (stays phases.authorityClosed phases.empty)

variable {accounts : List AccountInfo} {numTokens : ℕ}

theorem conserves (phases : Phases dep migration start approved moved swept half final)
    (named : migration.Named accounts numTokens) : Conserves (keysOf accounts) start.balances final.balances := by
  have pair {first second : Pubkey} (one : first ∈ keysOf accounts) (two : second ∈ keysOf accounts) :
      {first, second} ⊆ keysOf accounts := by
    intro key member
    rcases Finset.mem_insert.mp member with rfl | member
    · exact one
    · cases Finset.mem_singleton.mp member
      exact two
  have tokens := phases.run.conserves named.refund.mem_keysOf (named.listed (Finset.Subset.refl _))
  rw [phases.approved_balances] at tokens
  have sweep : Conserves (keysOf accounts) moved.balances swept.balances := by
    rcases phases.sweep with rfl | ⟨_, sweep⟩
    · exact .refl _ _
    · exact sweep.lamports.conserves.mono (pair named.vault.mem_keysOf named.destination.mem_keysOf)
  have authority := (phases.authorityClosed.emptied.transfers phases.authorityClosed.distinct).conserves.mono
    (pair named.authority.mem_keysOf named.refund.mem_keysOf)
  have wallet := (phases.walletClosed.emptied.transfers phases.walletClosed.distinct).conserves.mono
    (pair named.wallet.mem_keysOf named.refund.mem_keysOf)
  exact ((tokens.trans sweep).trans authority).trans wallet

/-- The tokens are all with the destination exactly when none were closed over. -/
theorem tokens_iff (phases : Phases dep migration start approved moved swept half final)
    (program : ¬ isTokenProgram dep.programId) {keys : Finset Pubkey}
    (within : ∀ token ∈ migration.tokens, token.source ∈ keys ∧ token.dest ∈ keys) :
    (∀ mint, ∑ key ∈ keys, tokensHeld mint migration.destination (final key) =
      ∑ key ∈ keys, stake mint migration.destination (sourcesOf migration.tokens) start key) ↔
      ¬ Leaks migration.tokens fun key => 0 < tokenAmount (start key) := by
  have known : ∀ token ∈ migration.tokens,
      (0 < tokenAmount (start token.source) ↔ 0 < tokenAmount (approved token.source)) := by
    intro token listed
    rw [phases.source_approved program listed]
  rw [← phases.run.sum_stake_eq_iff known within]
  simp only [(phases.tokens_final program).tokensHeld, (phases.tokens_approved program).stake]

end Phases

/-- Over mints without a transfer fee, MigrateWallet leaves nothing behind exactly when the refund destination is not
the vault and no listed token account with tokens is its own destination. -/
theorem migrateWallet_sweeps_iff {dep : Deployment} {ledger : Ledger} {call : Call} {m : Machine Approval}
    {feeless : Set Pubkey} (program : ¬ isTokenProgram dep.programId)
    (moves : MovesTokens dep.toRuntime call.frame feeless)
    (exempt : ListsMints call.accounts.infos (call.arguments.byte 0).toNat feeless) (backed : Backed ledger)
    (which : call.discriminator = 17) (success : call.execute dep ledger = .ok m) :
    ∃ migration : MigrationAccounts, migration.Named call.accounts.infos (call.arguments.byte 0).toNat ∧
      (∀ token ∈ migration.tokens, IsHeldBy token.mint migration.vault (ledger token.source)) ∧
      (Swept migration call.accounts.infos ledger m.ledger ↔
        migration.refund ≠ migration.vault ∧
          ¬ Leaks migration.tokens fun key => 0 < tokenAmount (ledger key)) := by
  obtain ⟨collected, start, dispatched⟩ := Call.execute_eq_ok success
  rw [Collected, which, if_neg (by decide)] at start
  subst start
  rw [which] at dispatched
  obtain ⟨migration, approved, moved, swept, half, named, phases⟩ := processMigrateWallet_phases moves exempt dispatched
  have sources : ∀ token ∈ migration.tokens, IsHeldBy token.mint migration.vault (ledger token.source) := by
    intro token listed
    have held := phases.run.source listed
    rwa [phases.source_approved program listed] at held
  refine ⟨migration, named, sources, ?_⟩
  constructor
  · intro result
    refine ⟨(phases.vault_empty_iff backed).mp result.vault, ?_⟩
    apply (phases.tokens_iff program (named.listed (Finset.Subset.refl _))).mp
    exact fun mint => result.tokens mint _ (Finset.Subset.refl _)
  · rintro ⟨other, kept⟩
    exact {
      vault := (phases.vault_empty_iff backed).mpr other
      tokens := fun mint keys within => (phases.tokens_iff program (named.listed within)).mpr kept mint
      closed := fun token listed => phases.closed listed
      wallet := ⟨phases.walletClosed.emptied.zeroed, phases.walletClosed.emptied.drained⟩
      authority := phases.authority_zeroed
      lamports := phases.conserves named }

private theorem backed_empty : Backed Ledger.empty := by
  intro key some
  cases some

theorem Backed.set {ledger : Ledger} (backed : Backed ledger) {key : Pubkey} {account : Account}
    (positive : 0 < account.lamports) : Backed (ledger.set key account) := by
  intro other some
  rw [Ledger.set_apply] at some ⊢
  split
  · exact positive
  · next different =>
    rw [if_neg different] at some
    exact backed other some

namespace Sample

def v1Wallet : Pubkey := bytes32 0x10b724f2d14603b5e2d7edd8f57c2ccd963613ebcb7fea5c6f621b4cafad3efa
def v1Vault : Pubkey := bytes32 0xad819dfd5d3adde2c112ce2ade034dba3aa0af4b5e0be603c5a4ef345434cbba
def v1Authority : Pubkey := bytes32 0x5d4ea285fbcaefb076d339b267db14bd82cb7ebce78e47aab2eeb6dc2f65cf8d
def tokenMint : Pubkey := .fill 20
def sourceAta : Pubkey := .fill 21
def destAta : Pubkey := .fill 22

theorem programId_ne_system : configured.programId ≠ systemProgram := configured.programId_ne_system

/-- The deployment with the address of a v1 vault. -/
def legacy : Deployment :=
  { configured with
    programId_ne_system := programId_ne_system
    findProgramAddress := lookup [([Seeds.legacyVault, v1Wallet.bytes], v1Vault, 251)] }

/-- A token account of the mint. -/
def tokenAccount (holder : Pubkey) (amount : ℕ) : Account :=
  ⟨2039280, splTokenProgram, tokenMint.bytes ++ holder.bytes ++ Bytes.ofNatLE 8 amount ++ List.replicate 36 0 ++ [1] ++
    List.replicate 56 0⟩

/-- A v1 wallet of one Ed25519 Owner whose vault holds SOL and 700 tokens. -/
def v1Ledger : Ledger :=
  ((((((Ledger.empty.set payer ⟨10000000000, systemProgram, []⟩).set v1Wallet
    ⟨946560, programId, [1, 255, 1, 0, 0, 0, 0, 0]⟩).set v1Authority
    ⟨1447680, programId, [2, 0, 0, 255, 1] ++ List.replicate 11 0 ++ v1Wallet.bytes ++ ownerKey.bytes⟩).set v1Vault
    ⟨2000000, systemProgram, []⟩).set tokenMint
    ⟨1461600, splTokenProgram, List.replicate 44 0 ++ [6, 1] ++ List.replicate 36 0⟩).set sourceAta
    (tokenAccount v1Vault 700)).set destAta (tokenAccount vault 5)

def migrateFrame : Frame where
  slot := 1000
  stackHeight := 1
  instructions := [(programId, [17, 1])]
  currentIndex := 0
  invoke := splPrograms

/-- Move everything to the v2 vault; the rent goes to the given account. -/
def migrateAccounts (refund : AccountInfo) : List AccountInfo :=
  [payerInfo, writable v1Wallet, writable v1Authority, writable v1Vault, writable vault, refund, readonly systemProgram,
    readonly instructionsSysvar, signer ownerKey, writable sourceAta, writable destAta, readonly tokenMint,
    readonly splTokenProgram]

def migrate : Call := ⟨migrateFrame, ⟨migrateAccounts payerInfo, by decide, by decide +kernel⟩, [17, 1]⟩

/-- The same with the rent sent to the vault that is being emptied. -/
def migrateIntoVault : Call :=
  ⟨migrateFrame, ⟨migrateAccounts (writable v1Vault), by decide, by decide +kernel⟩, [17, 1]⟩

end Sample

private theorem Sample.backed_v1Ledger : Backed Sample.v1Ledger := by
  unfold Sample.v1Ledger
  repeat' apply Backed.set
  · exact backed_empty
  all_goals decide

theorem migrateWallet_sweeps_iff_migrate : ∃ migration : MigrationAccounts,
    migration.Named Sample.migrate.accounts.infos (Sample.migrate.arguments.byte 0).toNat ∧
      (∀ token ∈ migration.tokens, IsHeldBy token.mint migration.vault (Sample.v1Ledger token.source)) ∧
      (Swept migration Sample.migrate.accounts.infos Sample.v1Ledger
          ((Sample.migrate.execute Sample.legacy Sample.v1Ledger).getD (Machine.start Sample.v1Ledger)).ledger ↔
        migration.refund ≠ migration.vault ∧
          ¬ Leaks migration.tokens fun key => 0 < tokenAmount (Sample.v1Ledger key)) :=
  migrateWallet_sweeps_iff (by decide) (movesTokens_splPrograms rfl) (fun _ _ _ _ => trivial) Sample.backed_v1Ledger
    (by decide)
    (Except.eq_ok_getD (by decide +kernel))

/-- The accounts of the migration into the vault. -/
def Sample.intoVault : MigrationAccounts where
  wallet := v1Wallet
  authority := v1Authority
  vault := v1Vault
  destination := vault
  refund := v1Vault
  tokens := [⟨sourceAta, destAta, tokenMint⟩]

/-- With the vault as its own refund destination a migration succeeds and leaves the rent where nothing can ever
sign for it. -/
theorem migrateWallet_strands_rent :
    ¬ ∀ (dep : Deployment) (ledger : Ledger) (call : Call) (m : Machine Approval) (migration : MigrationAccounts),
      ¬ isTokenProgram dep.programId → MovesTokens dep.toRuntime call.frame Set.univ → Backed ledger →
        call.discriminator = 17 → call.execute dep ledger = .ok m →
          migration.Named call.accounts.infos (call.arguments.byte 0).toNat →
            Swept migration call.accounts.infos ledger m.ledger := by
  intro always
  have success : Sample.migrateIntoVault.execute Sample.legacy Sample.v1Ledger =
      .ok ((Sample.migrateIntoVault.execute Sample.legacy Sample.v1Ledger).getD (Machine.start Sample.v1Ledger)) :=
    Except.eq_ok_getD (by decide +kernel)
  have named : Sample.intoVault.Named Sample.migrateIntoVault.accounts.infos
      (Sample.migrateIntoVault.arguments.byte 0).toNat :=
    ⟨⟨_, rfl, rfl⟩, ⟨_, rfl, rfl⟩, ⟨_, rfl, rfl⟩, ⟨_, rfl, rfl⟩, ⟨_, rfl, rfl⟩,
      .cons ⟨⟨_, rfl, rfl⟩, ⟨_, rfl, rfl⟩, ⟨_, rfl, rfl⟩⟩ .nil⟩
  have swept := always Sample.legacy Sample.v1Ledger Sample.migrateIntoVault _ Sample.intoVault (by decide)
    (movesTokens_splPrograms rfl) Sample.backed_v1Ledger (by decide) success named
  have left : ((((Sample.migrateIntoVault.execute Sample.legacy Sample.v1Ledger).getD
      (Machine.start Sample.v1Ledger)).ledger Sample.v1Vault).lamports = 946560 + 1447680) := by decide +kernel
  rw [show Sample.v1Vault = Sample.intoVault.vault from rfl, swept.vault] at left
  exact absurd left (by decide)

end LazorKit
