import LazorKit.Proofs.ConcreteRun
import LazorKit.Soundness.Counter
import LazorKit.Soundness.Sessions
import LazorKit.ToMathlib.OwnedMap

/-! # Wallets do not interfere

Every record belongs to one wallet, and every instruction names at position 1 the wallet it is for, or the record
it closes. Whatever is done meanwhile for other wallets, the records of a wallet stay as they are, none is added to
them and none of them approves anything.
-/

namespace LazorKit

open Solana OwnedMap

/-- The wallet a record belongs to, by its type. -/
def recordWallet (key : Pubkey) (bytes : Bytes) : Pubkey :=
  if bytes.byte 0 = AccountDiscriminator.authority.toByte then (AuthorityAccountHeader.read bytes).wallet
  else if bytes.byte 0 = AccountDiscriminator.session.toByte then (SessionAccount.read bytes).wallet
  else if bytes.byte 0 = AccountDiscriminator.deferredExec.toByte then (DeferredExecAccount.read bytes).wallet
  else key

variable {dep : Deployment} {fr : Frame} {accounts : List AccountInfo} {data : Bytes} {reg reg' : Registry}
  {discriminator : UInt8} {approvals : List Approval} {key wallet one : Pubkey} {bytes old new : Bytes}

private theorem recordWallet_of_wallet (checked : WalletAccount.check bytes = .ok ()) :
    recordWallet key bytes = key := by
  rw [recordWallet, (WalletAccount.check_eq_ok.mp checked).2.1]
  rfl

theorem recordWallet_of_authority (checked : AuthorityAccountHeader.check bytes = .ok ()) :
    recordWallet key bytes = (AuthorityAccountHeader.read bytes).wallet := by
  rw [recordWallet, if_pos (AuthorityAccountHeader.check_eq_ok.mp checked).2.1]

private theorem recordWallet_of_session (tag : bytes.byte 0 = AccountDiscriminator.session.toByte) :
    recordWallet key bytes = (SessionAccount.read bytes).wallet := by
  rw [recordWallet, tag]
  rfl

private theorem recordWallet_of_deferred (tag : bytes.byte 0 = AccountDiscriminator.deferredExec.toByte) :
    recordWallet key bytes = (DeferredExecAccount.read bytes).wallet := by
  rw [recordWallet, tag]
  rfl

theorem recordWallet_newWallet (bump : UInt8) : recordWallet key (newWalletBytes bump) = key := rfl

theorem recordWallet_newAuthority {kind role bump : UInt8} {material policy : Bytes} (short : policy.length < 2 ^ 16) :
    recordWallet key (newAuthorityBytes kind role bump wallet material policy) = wallet := by
  rw [recordWallet, if_pos (byte_newAuthority ..), newAuthorityBytes,
    AuthorityAccountHeader.read_toBytes_append (by simp [newAuthorityHeader])
      (by simpa [newAuthorityHeader] using short)]
  rfl

theorem recordWallet_newSession {bump : UInt8} {args : ParsedCreateSessionArgs} (bound : args.expiresAt < 2 ^ 64) :
    recordWallet key (newSessionBytes bump wallet args) = wallet := by
  rw [recordWallet_of_session (byte_newSession ..), newSessionBytes, SessionAccount.read_toBytes_append bound]

theorem recordWallet_newDeferred {bump : UInt8} {authority payer : Pubkey} {expiresAt : ℕ}
    (bound : expiresAt < 2 ^ 64) :
    recordWallet key (newDeferred bump data wallet authority payer expiresAt).toBytes = wallet := by
  rw [recordWallet_of_deferred (byte_newDeferred ..), DeferredExecAccount.read_toBytes _ bound]
  rfl

private theorem recordWallet_recount (checked : WalletAccount.check bytes = .ok ()) (role : UInt8) (count : ℕ) :
    recordWallet key (recount bytes role count) = key := recordWallet_of_wallet (check_recount checked role count)

/-- Using a session leaves its header alone. -/
theorem PolicyStep.session_eq (step : PolicyStep old new) (tag : old.byte 0 = AccountDiscriminator.session.toByte) :
    SessionAccount.read new = SessionAccount.read old := by
  rcases step with rfl | ⟨loc, _, _, _, _, _, found, present, evaluated⟩
  · rfl
  · obtain ⟨_, _, same⟩ := evaluatePostActions_eq_ok present evaluated
    rw [PolicyLocation.of_session tag found] at same
    exact SessionAccount.read_congr fun i early => same.getElem?_of_lt early

private theorem not_belongs_of_eq (recorded : reg key = some bytes) (other : recordWallet key bytes ≠ one) :
    ¬Belongs recordWallet one reg key := by
  rintro ⟨_, there, theirs⟩
  cases Option.some.inj (recorded.symm.trans there)
  exact other theirs

private theorem ne_of_some {entry : Bytes} (other : recordWallet key entry ≠ one) :
    ∀ value, some entry = some value → recordWallet key value ≠ one := by
  intro value same
  cases Option.some.inj same
  exact other

private theorem ne_of_none : ∀ value, none = some value → recordWallet key value ≠ one := by
  intro value absurd
  cases absurd

section Acting

variable {authority : Pubkey} {authPayload signedPayload middle : Bytes} {approval : Approval}
  (acting : Acting dep fr accounts reg wallet authority authPayload signedPayload discriminator old middle approval)

include acting

theorem Acting.outside (other : wallet ≠ one) : ¬Belongs recordWallet one reg authority := by
  apply not_belongs_of_eq acting.recorded
  rw [recordWallet_of_authority acting.checked, acting.ofWallet]
  exact other

/-- An authority still belongs to its wallet after it approved and its totals were rewritten. -/
theorem Acting.recordWallet_after (policy : PolicyStep middle new) : recordWallet authority new = wallet := by
  have checked := acting.step.check_eq acting.checked
  have tag : new.byte 0 = AccountDiscriminator.authority.toByte := by
    rw [policy.kept.2]
    exact (AuthorityAccountHeader.check_eq_ok.mp checked).2.1
  rw [recordWallet, if_pos tag, policy.read_eq checked, acting.step.read_eq]
  exact acting.ofWallet

/-- Its bytes and a new owner count are written for another wallet. -/
theorem Acting.avoids_recount {walletBytes : Bytes} (live : WalletRecord reg wallet walletBytes) (other : wallet ≠ one)
    (role : UInt8) (count : ℕ) :
    Avoids recordWallet one reg (Function.update (Function.update reg authority (some middle)) wallet
        (some (recount walletBytes role count))) ∧
      ∀ {key}, ¬Belongs recordWallet one reg key →
        ¬Belongs recordWallet one (Function.update (Function.update reg authority (some middle)) wallet
          (some (recount walletBytes role count))) key := by
  have acted := ne_of_some ((acting.recordWallet_after (PolicyStep.refl _)).trans_ne other)
  have counted := ne_of_some ((recordWallet_recount live.checked role count).trans_ne other)
  have outside := not_belongs_of_eq live.recorded ((recordWallet_of_wallet live.checked).trans_ne other)
  exact ⟨(Avoids.update (acting.outside other) acted).trans (.update (not_belongs_update outside acted) counted),
    fun before => not_belongs_update (not_belongs_update before acted) counted⟩

end Acting

/-- The account at position 1, where it is a record, is someone else's: the instruction is for another wallet, or
closes a record of another wallet. -/
def Elsewhere (one : Pubkey) (accounts : List AccountInfo) (reg : Registry) : Prop :=
  ∀ key, KeyAt accounts 1 key → ¬Belongs recordWallet one reg key

private theorem Elsewhere.wallet_ne (elsewhere : Elsewhere one accounts reg) (walletAt : KeyAt accounts 1 wallet)
    (live : WalletRecord reg wallet bytes) : wallet ≠ one := by
  rintro rfl
  exact elsewhere wallet walletAt ⟨bytes, live.recorded, recordWallet_of_wallet live.checked⟩

/-- An instruction for another wallet, or closing another wallet's record, avoids the records of a live wallet. -/
theorem Transition.avoids (transition : Transition dep fr accounts data reg discriminator approvals reg')
    (present : reg one ≠ none) (elsewhere : Elsewhere one accounts reg) :
    Avoids recordWallet one reg reg' := by
  cases transition with
  | protocol | migrate | reclaimLegacy | closeLegacy => exact .refl _ _ _
  | @createWallet wallet _ walletBump _ _ _ _ _ _ walletFresh authorityFresh =>
    have other : wallet ≠ one := by
      rintro rfl
      exact present walletFresh
    have made := ne_of_some ((recordWallet_newWallet walletBump).trans_ne other)
    apply (Avoids.update (not_belongs_of_none walletFresh) made).trans
    apply Avoids.update (not_belongs_update (not_belongs_of_none authorityFresh) made)
    apply ne_of_some
    rw [recordWallet_newAuthority (by simp)]
    exact other
  | addAuthority parsed live acting _ _ _ _ fresh =>
    have other := elsewhere.wallet_ne acting.walletAt live
    obtain ⟨others, still⟩ := acting.avoids_recount live other _ _
    apply others.trans (.update (still (not_belongs_of_none fresh)) _)
    apply ne_of_some
    rw [recordWallet_newAuthority ((AddAuthorityArgs.parse_eq_ok parsed).2.2.trans_lt (by decide))]
    exact other
  | removeAuthority live acting recorded checked ofWallet =>
    have other := elsewhere.wallet_ne acting.walletAt live
    obtain ⟨others, still⟩ := acting.avoids_recount live other _ _
    apply others.trans (.update (still _) ne_of_none)
    exact not_belongs_of_eq recorded ((recordWallet_of_authority checked).trans ofWallet |>.trans_ne other)
  | transferOwnership _ live acting _ _ _ fresh =>
    have other := elsewhere.wallet_ne acting.walletAt live
    apply (Avoids.update (not_belongs_of_none fresh) _).trans
      (.update (not_belongs_update (acting.outside other) _) ne_of_none)
    all_goals exact ne_of_some ((recordWallet_newAuthority (by simp)).trans_ne other)
  | execute live acting policy =>
    have other := elsewhere.wallet_ne acting.walletAt live
    exact .update (acting.outside other) (ne_of_some ((acting.recordWallet_after policy).trans_ne other))
  | executeSession walletAt live recorded tag _ ofWallet _ _ policy =>
    have other := elsewhere.wallet_ne walletAt live
    apply Avoids.update
    · exact not_belongs_of_eq recorded ((recordWallet_of_session tag).trans ofWallet |>.trans_ne other)
    · apply ne_of_some
      rw [recordWallet_of_session (policy.kept.2.trans tag), policy.session_eq tag, ofWallet]
      exact other
  | createSession parsed live acting _ _ _ _ _ fresh =>
    have other := elsewhere.wallet_ne acting.walletAt live
    have acted := ne_of_some ((acting.recordWallet_after (PolicyStep.refl _)).trans_ne other)
    apply (Avoids.update (acting.outside other) acted).trans
    apply Avoids.update (not_belongs_update (not_belongs_of_none fresh) acted)
    exact ne_of_some ((recordWallet_newSession (ParsedCreateSessionArgs.expiresAt_lt parsed)).trans_ne other)
  | authorize _ live acting _ _ _ _ bound _ _ fresh =>
    have other := elsewhere.wallet_ne acting.walletAt live
    have acted := ne_of_some ((acting.recordWallet_after (PolicyStep.refl _)).trans_ne other)
    apply (Avoids.update (acting.outside other) acted).trans
    apply Avoids.update (not_belongs_update (not_belongs_of_none fresh) acted)
    exact ne_of_some ((recordWallet_newDeferred bound).trans_ne other)
  | executeDeferred walletAt live _ recorded checked ofWallet =>
    have other := elsewhere.wallet_ne walletAt live
    have tag := (DeferredExecAccount.check_eq_ok.mp checked).2.1
    exact .update (not_belongs_of_eq recorded ((recordWallet_of_deferred tag).trans ofWallet |>.trans_ne other))
      ne_of_none
  | reclaimDeferred deferredAt => exact .update (elsewhere _ deferredAt) ne_of_none
  | revokeSession live acting _ recorded checked ofWallet =>
    have other := elsewhere.wallet_ne acting.walletAt live
    have acted := ne_of_some ((acting.recordWallet_after (PolicyStep.refl _)).trans_ne other)
    have tag := (SessionAccount.check_eq_ok.mp checked).2.1
    apply (Avoids.update (acting.outside other) acted).trans (.update (not_belongs_update _ acted) ne_of_none)
    exact not_belongs_of_eq recorded ((recordWallet_of_session tag).trans ofWallet |>.trans_ne other)
  | closeExpiredSession sessionAt => exact .update (elsewhere _ sessionAt) ne_of_none

/-- The authority or the session that approved. -/
def Approval.account : Approval → Pubkey
  | .authority account _ _ => account
  | .session account _ => account

/-- Nor does it have an approval of a record of that wallet. -/
theorem Transition.approved_elsewhere (transition : Transition dep fr accounts data reg discriminator approvals reg')
    (live : reg one = some bytes) (checked : WalletAccount.check bytes = .ok ())
    (elsewhere : Elsewhere one accounts reg) :
    ∀ approval ∈ approvals, ¬Belongs recordWallet one reg approval.account := by
  have other {wallet : Pubkey} (walletAt : KeyAt accounts 1 wallet) : wallet ≠ one := by
    rintro rfl
    exact elsewhere wallet walletAt ⟨bytes, live, recordWallet_of_wallet checked⟩
  intro approval member
  cases transition with
  | protocol | reclaimLegacy | closeLegacy | createWallet | executeDeferred | reclaimDeferred
  | closeExpiredSession => cases member
  | migrate unrecorded step =>
    obtain ⟨_, rfl⟩ := step.approval_eq
    cases List.mem_singleton.mp member
    exact not_belongs_of_none unrecorded
  | addAuthority _ _ acting | removeAuthority _ acting | transferOwnership _ _ acting | execute _ acting
  | createSession _ _ acting | authorize _ _ acting | revokeSession _ acting =>
    obtain ⟨_, same⟩ := acting.step.approval_eq
    cases List.mem_singleton.mp member
    rw [same]
    exact acting.outside (other acting.walletAt)
  | executeSession walletAt _ recorded tag _ ofWallet =>
    cases List.mem_singleton.mp member
    exact not_belongs_of_eq recorded ((recordWallet_of_session tag).trans ofWallet |>.trans_ne (other walletAt))

section Runs

variable {start : Ledger} {events : List Event} {i j : ℕ}

/-- From `i` to `j`, every successful call is for another wallet, or closes another wallet's record. -/
def ElsewhereBetween (dep : Deployment) (start : Ledger) (events : List Event) (one : Pubkey) (i j : ℕ) : Prop :=
  ∀ k call m, i ≤ k → k < j → SucceedsAt dep start events k call m →
    Elsewhere one call.processorAccounts (registryAt dep start events k)

private theorem avoids_between (genesis : Genesis dep start) (le : i ≤ j)
    (live : registryAt dep start events i one = some bytes) (checked : WalletAccount.check bytes = .ok ())
    (elsewhere : ElsewhereBetween dep start events one i j) :
    Avoids recordWallet one (registryAt dep start events i) (registryAt dep start events j) := by
  refine registry_invariant_between genesis.funded le (.refl _ _ _) fun k call m low high success avoids => ?_
  apply avoids.trans (success.transition.avoids _ (elsewhere k call m low high success))
  rw [avoids.eq (.inl ⟨bytes, live, recordWallet_of_wallet checked⟩), live]
  exact Option.some_ne_none bytes

/-- As long as everyone is busy elsewhere, a live wallet keeps exactly the records it has, byte for byte, and none
of them approves anything. -/
theorem wallet_isolation (genesis : Genesis dep start) (le : i ≤ j)
    (live : registryAt dep start events i one = some bytes) (checked : WalletAccount.check bytes = .ok ())
    (elsewhere : ElsewhereBetween dep start events one i j) :
    (∀ key, Belongs recordWallet one (registryAt dep start events i) key ∨
        Belongs recordWallet one (registryAt dep start events j) key →
      registryAt dep start events j key = registryAt dep start events i key) ∧
    ∀ k call m, i ≤ k → k < j → SucceedsAt dep start events k call m → ∀ approval ∈ m.approved,
      ¬Belongs recordWallet one (registryAt dep start events k) approval.account := by
  refine ⟨fun key theirs => (avoids_between genesis le live checked elsewhere).eq theirs,
    fun k call m low high success => ?_⟩
  have here := avoids_between genesis low live checked fun l call m early late =>
    elsewhere l call m early (late.trans high)
  apply success.transition.approved_elsewhere _ checked (elsewhere k call m low high success)
  rw [here.eq (.inl ⟨bytes, live, recordWallet_of_wallet checked⟩), live]

end Runs

namespace Sample

def neighbourKey : Pubkey := .fill 31
def neighbourSessionKey : Pubkey := .fill 32
def neighbour : Pubkey := bytes32 0x9ead79849bfa7892a5f61d70e4113611002a8ea6f0f94e7733c7de2cedaedcaf
def neighbourVault : Pubkey := bytes32 0x38056d7eafc4043d91a9d6b18ce6f5dd38dd6e0e803abd2a0031928a625432e5
def neighbourOwner : Pubkey := bytes32 0x9258fd4e5c7ee42ff748eebec7d05e75dae6675bc863553d448b70ae999720b3
def neighbourSession : Pubkey := bytes32 0xcd48863a94118ad5e3e91c2cc9d82aafb6a5f15f7ef695d03e4066413da15690

/-- The deployment, with the addresses of a second wallet. -/
def twoWallets : Deployment :=
  withAddresses [([Seeds.wallet, (.fill 30 : Bytes32).bytes], neighbour, 254),
    ([Seeds.vault, neighbour.bytes], neighbourVault, 254),
    ([Seeds.authority, neighbour.bytes, neighbourKey.bytes], neighbourOwner, 255),
    ([Seeds.session, neighbour.bytes, neighbourSessionKey.bytes], neighbourSession, 255)]

def createNeighbourData : Bytes :=
  [0] ++ (.fill 30 : Bytes32).bytes ++ List.replicate 8 0 ++ neighbourKey.bytes

def createNeighbour : Call where
  frame := topLevel 1001 [] 0 createNeighbourData
  accounts := ⟨[payerInfo, writable neighbour, readonly neighbourVault, writable neighbourOwner, readonly systemProgram,
    readonly rentSysvar] ++ feeAccounts, by decide, by decide +kernel⟩
  data := createNeighbourData

def neighbourSessionData : Bytes := [5] ++ neighbourSessionKey.bytes ++ Bytes.ofNatLE 8 2000 ++ [0, 0]

def createNeighbourSession : Call where
  frame := topLevel 1002 [] 0 neighbourSessionData
  accounts := ⟨[payerInfo, readonly neighbour, readonly neighbourOwner, writable neighbourSession,
    readonly systemProgram, readonly rentSysvar, signer neighbourKey], by decide, by decide +kernel⟩
  data := neighbourSessionData

/-- Two wallets are created, and the Owner of the second makes a session. -/
def neighbourEvents : List Event :=
  [.foreign payer ⟨10000000000, systemProgram, []⟩, .call createWallet, .call createNeighbour,
    .call createNeighbourSession]

end Sample

/-- While another wallet is created and its Owner makes a session, the first wallet's Owner is left alone. -/
theorem wallet_isolation_sample :
    registryAt Sample.twoWallets Ledger.empty Sample.neighbourEvents 4 Sample.owner =
        registryAt Sample.twoWallets Ledger.empty Sample.neighbourEvents 2 Sample.owner ∧
      ∃ m approval, SucceedsAt Sample.twoWallets Ledger.empty Sample.neighbourEvents 3 Sample.createNeighbourSession m ∧
        approval ∈ m.approved ∧ ¬Belongs recordWallet Sample.wallet
          (registryAt Sample.twoWallets Ledger.empty Sample.neighbourEvents 3) approval.account := by
  -- everything that is found by running the events, at once
  have facts : registryAt Sample.twoWallets Ledger.empty Sample.neighbourEvents 2 Sample.neighbour = none ∧
      registryAt Sample.twoWallets Ledger.empty Sample.neighbourEvents 3 Sample.neighbour =
        some (newWalletBytes 254 : Bytes) ∧
      registryAt Sample.twoWallets Ledger.empty Sample.neighbourEvents 2 Sample.wallet =
        some (newWalletBytes 255 : Bytes) ∧
      registryAt Sample.twoWallets Ledger.empty Sample.neighbourEvents 2 Sample.owner =
        some (newAuthorityBytes 0 rankOwner 254 Sample.wallet Sample.ownerKey.bytes [] : Bytes) ∧
      (Sample.createNeighbourSession.execute Sample.twoWallets
        (ledgerAt Sample.twoWallets Ledger.empty Sample.neighbourEvents 3)).succeeded = true ∧
      Approval.authority Sample.neighbourOwner 5 none ∈
        (resultAt Sample.twoWallets Ledger.empty Sample.neighbourEvents 3
        Sample.createNeighbourSession).approved := by
    decide +kernel
  obtain ⟨vacant, made, live, ownerRecord, succeeded, approved⟩ := facts
  have elsewhere : ElsewhereBetween Sample.twoWallets Ledger.empty Sample.neighbourEvents Sample.wallet 2 4 := by
    intro k call m low high success key named
    have which : k = 2 ∨ k = 3 := by omega
    rcases which with rfl | rfl
    · cases success.1
      cases named.unique ⟨Sample.writable Sample.neighbour, rfl, rfl⟩
      exact not_belongs_of_none vacant
    · cases success.1
      cases named.unique ⟨Sample.readonly Sample.neighbour, rfl, rfl⟩
      apply not_belongs_of_eq made
      rw [recordWallet_newWallet]
      decide +kernel
  obtain ⟨kept, idle⟩ := wallet_isolation (genesis_empty Sample.twoWallets) (by decide) live rfl elsewhere
  have owned : Belongs recordWallet Sample.wallet
      (registryAt Sample.twoWallets Ledger.empty Sample.neighbourEvents 2) Sample.owner :=
    ⟨_, ownerRecord, recordWallet_newAuthority (by decide)⟩
  have success : SucceedsAt Sample.twoWallets Ledger.empty Sample.neighbourEvents 3 Sample.createNeighbourSession _ :=
    succeedsAt_resultAt rfl succeeded
  exact ⟨kept Sample.owner (.inl owned), _, _, success, approved, idle 3 _ _ (by decide) (by decide) success _ approved⟩

end LazorKit
