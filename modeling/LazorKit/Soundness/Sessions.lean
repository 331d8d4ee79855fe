import LazorKit.Proofs.ConcreteRun
import LazorKit.Soundness.Deferred

/-! # The life of a session

Execute looks at no more of a session than a tag, a wallet, a key and an expiry. That is enough: a
live session was created by one CreateSession that an Owner or Admin approved, has been live ever
since, and is, but for its running totals, byte for byte what was approved. At every slot it can
either be used or be closed.
-/

namespace LazorKit

open Solana

section Step

variable {dep : Deployment} {fr : Frame} {accounts : List AccountInfo} {discriminator : UInt8}
  {approvals : List Approval} {key : Pubkey}

theorem PolicyLocation.of_session {bytes : Bytes} {loc : PolicyLocation}
    (tag : bytes.byte 0 = AccountDiscriminator.session.toByte) (found : PolicyLocation.of bytes = some loc) :
    loc.offset = sessionHeaderSize := by
  match bytes, found with
  | disc :: rest, found =>
    simp only [Bytes.byte, List.getD_cons_zero] at tag
    subst tag
    rw [PolicyLocation.of, if_pos rfl] at found
    cases found
    rfl

/-- Using a session rewrites running totals of the actions it was created with. -/
theorem sameButTotals_policyStep {created old new : Bytes} {views : List ActionView}
    (tag : created.byte 0 = AccountDiscriminator.session.toByte)
    (parsed : parseActions (created.drop sessionHeaderSize) = .ok views) (sized : WellSized views)
    (same : SameButTotals sessionHeaderSize views created old) (step : PolicyStep old new) :
    SameButTotals sessionHeaderSize views created new := by
  rcases step with rfl | ⟨loc, _, _, _, _, _, found, present, evaluated⟩
  · exact same
  · have offset : loc.offset = sessionHeaderSize :=
      PolicyLocation.of_session (by rw [same.byte_of_lt (by decide), tag]) found
    obtain ⟨views', parsed', rewritten⟩ := evaluatePostActions_eq_ok present evaluated
    have now := parseActions_sameButTotals parsed sized same.drop
    rw [PolicyLocation.slice, offset] at parsed'
    cases Except.ok.inj (now.symm.trans parsed')
    exact same.trans (offset ▸ rewritten)

/-- A session that is still a session afterwards was left alone or used. -/
theorem Fate.session {old new : Bytes} (fate : Fate dep fr accounts discriminator approvals key old (some new))
    (tag : old.byte 0 = AccountDiscriminator.session.toByte) : PolicyStep old new := by
  cases fate with
  | kept => exact PolicyStep.refl _
  | recounted wallet => exact absurd ((WalletAccount.check_eq_ok.mp wallet).2.1.symm.trans tag) (by decide)
  | acted authority =>
    exact absurd ((AuthorityAccountHeader.check_eq_ok.mp authority).2.1.symm.trans tag) (by decide)
  | sessionUsed _ policy => exact policy

theorem ParsedCreateSessionArgs.expiresAt_lt {data : Bytes} {args : ParsedCreateSessionArgs}
    (parsed : ParsedCreateSessionArgs.fromBytes data = .ok args) : args.expiresAt < 2 ^ 64 := by
  have stored : args.expiresAt = (data.slice 32 8).toNatLE := by
    simp only [ParsedCreateSessionArgs.fromBytes, Except.bind_eq_ok, Except.ensure_eq_ok, exists_const] at parsed
    obtain ⟨_, parsed⟩ := parsed
    split at parsed
    · simp only [Except.bind_eq_ok, Except.ensure_eq_ok, exists_const] at parsed
      obtain ⟨_, parsed⟩ := parsed
      split at parsed
      · simp only [Except.bind_eq_ok, Except.ensure_eq_ok, exists_const] at parsed
        obtain ⟨_, _, _, result⟩ := parsed
        cases Except.ok.inj result
        rfl
      · cases parsed
        rfl
    · cases parsed
      rfl
  rw [stored]
  exact Bytes.toNatLE_slice_lt

private theorem ParsedCreateSessionArgs.policyShape {data : Bytes} {args : ParsedCreateSessionArgs}
    (parsed : ParsedCreateSessionArgs.fromBytes data = .ok args) : PolicyShape args.actionsBytes := by
  have none : PolicyShape [] := ⟨[], rfl, by simp [WellSized]⟩
  simp only [ParsedCreateSessionArgs.fromBytes, Except.bind_eq_ok, Except.ensure_eq_ok, exists_const] at parsed
  obtain ⟨_, parsed⟩ := parsed
  split at parsed
  · simp only [Except.bind_eq_ok, Except.ensure_eq_ok, exists_const] at parsed
    obtain ⟨_, parsed⟩ := parsed
    split at parsed
    · simp only [Except.bind_eq_ok, Except.ensure_eq_ok, exists_const] at parsed
      obtain ⟨_, _, valid, result⟩ := parsed
      cases Except.ok.inj result
      exact policyShape_of_validate valid
    · cases parsed
      exact none
  · cases parsed
    exact none

theorem drop_newSessionBytes (bump : UInt8) (wallet : Pubkey) (args : ParsedCreateSessionArgs) :
    (newSessionBytes bump wallet args).drop sessionHeaderSize = args.actionsBytes := by
  simp [newSessionBytes]

end Step

section Runs

variable {dep : Deployment} {start : Ledger} {events : List Event}

/-- The `k`th event is a successful CreateSession that created the account for the wallet: an Owner or
Admin without a policy approved it, for at most the longest duration. -/
structure SessionCreated (dep : Deployment) (start : Ledger) (events : List Event) (k : ℕ) (call : Call)
    (authority session wallet : Pubkey) (args : ParsedCreateSessionArgs) : Prop where
  succeeds : ∃ m assertion, SucceedsAt dep start events k call m ∧
    Approval.authority authority 5 assertion ∈ m.approved
  isCreateSession : call.discriminator = 5
  live : LiveAuthority dep (ledgerAt dep start events k) authority
  ofWallet : (AuthorityAccountHeader.read (ledgerAt dep start events k authority).data).wallet = wallet
  rank : (AuthorityAccountHeader.read (ledgerAt dep start events k authority).data).role = rankOwner ∨
    (AuthorityAccountHeader.read (ledgerAt dep start events k authority).data).role = rankAdmin
  unbounded : (AuthorityAccountHeader.read (ledgerAt dep start events k authority).data).policyLen = 0
  parsed : ParsedCreateSessionArgs.fromBytes call.arguments = .ok args
  future : call.slot < args.expiresAt
  duration : args.expiresAt ≤ call.slot + maxSessionSlots
  vacant : registryAt dep start events k session = none
  created : ∃ bump, registryAt dep start events (k + 1) session = some (newSessionBytes bump wallet args)

private theorem SucceedsAt.sessionCreated {k : ℕ} {call : Call} {m : Machine Approval} {session : Pubkey}
    {bytes : Bytes}
    (success : SucceedsAt dep start events k call m) (vacant : registryAt dep start events k session = none)
    (created : registryAt dep start events (k + 1) session = some bytes)
    (tag : bytes.byte 0 = AccountDiscriminator.session.toByte) :
    ∃ authority wallet args, SessionCreated dep start events k call authority session wallet args := by
  have birth := success.transition.birth vacant created
  cases birth with
  | wallet => exact absurd tag (by rw [byte_newWallet]; decide)
  | authority => exact absurd tag (by rw [byte_newAuthority]; decide)
  | deferred => exact absurd tag (by rw [byte_newDeferred]; decide)
  | @session wallet authority _ _ _ _ _ args bump which parsed live acting only rank unbounded future duration =>
    obtain ⟨owned, same, _⟩ := registry_eq_some.mp acting.recorded
    rw [← same] at rank unbounded
    obtain ⟨assertion, approval⟩ := acting.step.approval_eq
    exact ⟨authority, wallet, args, {
      succeeds := ⟨m, assertion, success, by rw [only, approval, which]; exact List.mem_singleton.mpr rfl⟩
      isCreateSession := which
      live := ⟨owned, same ▸ acting.checked⟩
      ofWallet := by rw [same, acting.ofWallet]
      rank := rank
      unbounded := unbounded
      parsed := parsed
      future := future
      duration := duration.trans (Nat.min_le_left _ _)
      vacant := vacant
      created := ⟨bump, created⟩ }⟩

/-- A live session at some position of a run: who created it, and what it still is. -/
theorem session_provenance {j : ℕ} {session : Pubkey} {bytes : Bytes} (genesis : Genesis dep start)
    (recorded : registryAt dep start events j session = some bytes)
    (tag : bytes.byte 0 = AccountDiscriminator.session.toByte) :
    ∃ k call authority wallet args bump views, k < j ∧
      SessionCreated dep start events k call authority session wallet args ∧
      (∀ l, k < l → l ≤ j → registryAt dep start events l session ≠ none) ∧
      parseActions args.actionsBytes = .ok views ∧
      SameButTotals sessionHeaderSize views (newSessionBytes bump wallet args) bytes := by
  let IsSession (reg : Registry) : Prop :=
    ∃ bytes, reg session = some bytes ∧ bytes.byte 0 = AccountDiscriminator.session.toByte
  have initially : ¬IsSession (registryAt dep start events 0) := by
    rintro ⟨_, absurd, _⟩
    rw [registryAt, ledgerAt_eq, Run.stateAt_zero, genesis session] at absurd
    cases absurd
  obtain ⟨k, call, m, _, early, success, fails, since⟩ := exists_establishing_call (P := IsSession)
    genesis.funded (Nat.zero_le j) initially ⟨bytes, recorded, tag⟩
  obtain ⟨born, created, bornTag⟩ := since (k + 1) (by omega) (by omega)
  have vacant : registryAt dep start events k session = none := by
    cases before : registryAt dep start events k session with
    | none => rfl
    | some old =>
      have fate := success.transition.fate before
      rw [created] at fate
      exact absurd ⟨old, before, fate.tag ▸ bornTag⟩ fails
  obtain ⟨authority, wallet, args, creation⟩ := success.sessionCreated vacant created bornTag
  obtain ⟨bump, fresh⟩ := creation.created
  obtain ⟨views, parsed, sized⟩ := ParsedCreateSessionArgs.policyShape creation.parsed
  refine ⟨k, call, authority, wallet, args, bump, views, early, creation, fun l low high gone => ?_, parsed, ?_⟩
  · obtain ⟨_, there, _⟩ := since l low high
    rw [gone] at there
    cases there
  · -- carry the comparison with the created bytes from the creation to `j`
    have kept : ∃ now, registryAt dep start events j session = some now ∧
        SameButTotals sessionHeaderSize views (newSessionBytes bump wallet args) now := by
      refine registry_invariant_between (P := fun reg => ∃ now, reg session = some now ∧
        SameButTotals sessionHeaderSize views (newSessionBytes bump wallet args) now)
        genesis.funded (show k + 1 ≤ j by omega) ⟨_, fresh, .refl _ _ _⟩ ?_
      rintro l call' m' low high success' ⟨old, here, same⟩
      obtain ⟨new, next, _⟩ := since (l + 1) (by omega) (by omega)
      have fate := success'.transition.fate here
      rw [next] at fate
      have oldTag : old.byte 0 = AccountDiscriminator.session.toByte := by
        rw [same.byte_of_lt (by decide), byte_newSession]
      refine ⟨new, next, sameButTotals_policyStep (byte_newSession ..) ?_ sized same (fate.session oldTag)⟩
      rw [drop_newSessionBytes, parsed]
    obtain ⟨now, there, same⟩ := kept
    rwa [Option.some.inj (recorded.symm.trans there)]

end Runs

section Use

variable {dep : Deployment} {fr : Frame} {accounts : List AccountInfo} {data : Bytes} {reg reg' : Registry}
  {discriminator : UInt8} {approvals : List Approval}

private theorem Acting.not_session {wallet authority session sessionKey : Pubkey}
    {authPayload signedPayload old new : Bytes} {approval : Approval}
    (acting : Acting dep fr accounts reg wallet authority authPayload signedPayload discriminator old new approval) :
    Approval.session session sessionKey ∉ [approval] := by
  obtain ⟨_, rfl⟩ := acting.step.approval_eq
  simp

/-- What Execute established before it recorded a session's approval. -/
structure SessionUse (fr : Frame) (accounts : List AccountInfo) (reg : Registry) (wallet session sessionKey : Pubkey)
    (bytes : Bytes) : Prop where
  walletAt : KeyAt accounts 1 wallet
  recorded : reg session = some bytes
  tag : bytes.byte 0 = AccountDiscriminator.session.toByte
  ofWallet : (SessionAccount.read bytes).wallet = wallet
  key : (SessionAccount.read bytes).sessionKey = sessionKey
  unexpired : fr.slot.toNat ≤ (SessionAccount.read bytes).expiresAt
  signed : ∃ acc ∈ accounts, acc.isSigner = true ∧ acc.key = sessionKey

private theorem Transition.session_inv {session sessionKey : Pubkey}
    (transition : Transition dep fr accounts data reg discriminator approvals reg')
    (approved : Approval.session session sessionKey ∈ approvals) :
    discriminator = 4 ∧ ∃ wallet bytes, SessionUse fr accounts reg wallet session sessionKey bytes := by
  cases transition with
  | protocol | reclaimLegacy | closeLegacy | createWallet | executeDeferred | reclaimDeferred
  | closeExpiredSession => simp at approved
  | migrate _ step =>
    obtain ⟨_, rfl⟩ := step.approval_eq
    simp at approved
  | addAuthority _ _ acting | removeAuthority _ acting | transferOwnership _ _ acting | execute _ acting
  | createSession _ _ acting | authorize _ _ acting | revokeSession _ acting =>
    exact absurd approved acting.not_session
  | executeSession walletAt _ recorded tag _ ofWallet unexpired signed =>
    cases List.mem_singleton.mp approved
    exact ⟨rfl, _, _, walletAt, recorded, tag, ofWallet, rfl, unexpired, signed⟩

end Use

section Expiry

variable {dep : Deployment} {fr : Frame} {m : Machine Approval}

private theorem writeData_succeeds (dep : Deployment) {acc : AccountInfo} (bytes : Bytes)
    (writable : acc.isWritable = true)
    (owned : m.owner acc.key = dep.programId) : ∃ m', m.writeData dep.toRuntime acc bytes = .ok m' := by
  unfold Machine.writeData
  split
  · exact ⟨m, rfl⟩
  · exact ⟨_, Except.bind_eq_ok.mpr ⟨(), Except.ensure_of writable,
      Except.bind_eq_ok.mpr ⟨(), Except.ensure_of owned, rfl⟩⟩⟩

private theorem writeLamports_succeeds (dep : Deployment) (amount : ℕ) {acc : AccountInfo}
    (writable : acc.isWritable = true) (allowed : m.lamports acc.key ≤ amount ∨ m.owner acc.key = dep.programId) :
    ∃ m', m.writeLamports dep.toRuntime acc amount = .ok m' := by
  unfold Machine.writeLamports
  split
  · exact ⟨m, rfl⟩
  · exact ⟨_, Except.bind_eq_ok.mpr ⟨(), Except.ensure_of writable,
      Except.bind_eq_ok.mpr ⟨(), Except.ensure_of allowed, rfl⟩⟩⟩

private theorem drainInto_succeeds {closed refund : AccountInfo} (owned : m.owner closed.key = dep.programId)
    (closedWritable : closed.isWritable = true) (refundWritable : refund.isWritable = true)
    (fits : m.lamports refund.key + m.lamports closed.key < 2 ^ 64) :
    ∃ m', drainInto dep m closed refund = .ok m' := by
  obtain ⟨credited, credit⟩ := writeLamports_succeeds dep _ refundWritable
    (.inl (Nat.le_add_right (m.lamports refund.key) (m.lamports closed.key)))
  have still : credited.owner closed.key = dep.programId := by
    rw [(Machine.writeLamports_unmoved credit).owner, owned]
  obtain ⟨drained, debit⟩ := writeLamports_succeeds dep 0 closedWritable (.inr still)
  exact ⟨drained, Except.bind_eq_ok.mpr ⟨(), Except.ensure_of fits, Except.bind_eq_ok.mpr ⟨credited, credit, debit⟩⟩⟩

/-- With everything else in order, Execute accepts a session exactly up to its expiry slot. -/
theorem authenticateExecuteSession_succeeds_iff {accounts : List AccountInfo} {walletPda sessionPda : AccountInfo}
    (top : fr.stackHeight ≤ 1) (fits : sessionHeaderSize ≤ (m.data sessionPda.key).length)
    (ofWallet : (SessionAccount.read (m.data sessionPda.key)).wallet = walletPda.key)
    (signed : ∃ acc ∈ accounts, acc.isSigner = true ∧
      acc.key = (SessionAccount.read (m.data sessionPda.key)).sessionKey) :
    (∃ key, authenticateExecuteSession fr accounts m walletPda sessionPda = .ok key) ↔
      fr.slot.toNat ≤ (SessionAccount.read (m.data sessionPda.key)).expiresAt := by
  simp only [authenticateExecuteSession, Except.bind_eq_ok, Except.ensure_eq_ok, exists_const]
  constructor
  · rintro ⟨_, _, _, _, unexpired, _⟩
    exact unexpired
  · intro unexpired
    exact ⟨_, top, fits, ofWallet, unexpired, signed, rfl⟩

/-- With everything else in order, CloseExpiredSession closes a session exactly after its expiry slot. -/
theorem processCloseExpiredSession_succeeds_iff (dep : Deployment) {caller sessionPda refundDest : AccountInfo}
    (signs : caller.isSigner = true) (distinct : refundDest.key ≠ sessionPda.key)
    (owned : m.owner sessionPda.key = dep.programId)
    (long : sessionHeaderSize ≤ (m.data sessionPda.key).length)
    (tag : (m.data sessionPda.key).byte 0 = AccountDiscriminator.session.toByte)
    (sessionWritable : sessionPda.isWritable = true) (refundWritable : refundDest.isWritable = true)
    (fits : m.lamports refundDest.key + m.lamports sessionPda.key < 2 ^ 64) :
    (∃ m', processCloseExpiredSession dep fr [caller, sessionPda, refundDest] m = .ok m') ↔
      (SessionAccount.read (m.data sessionPda.key)).expiresAt < fr.slot.toNat := by
  simp only [processCloseExpiredSession, Except.bind_eq_ok, Except.ensure_eq_ok, exists_const, accountAt_eq_ok]
  constructor
  · rintro ⟨_, _, _, _, found, _, _, _, _, _, _, _, expired, _⟩
    cases found
    exact expired
  · intro expired
    obtain ⟨zeroed, zero⟩ := writeData_succeeds dep
      (List.replicate (m.data sessionPda.key).length 0) sessionWritable owned
    obtain ⟨stored, _, _⟩ := writeData_eq_ok zero
    have stillOwned : zeroed.owner sessionPda.key = dep.programId := by rw [stored.owner, owned]
    obtain ⟨drained, drain⟩ := drainInto_succeeds stillOwned sessionWritable refundWritable
      (by rwa [stored.lamports, stored.lamports])
    exact ⟨drained, caller, rfl, sessionPda, rfl, refundDest, rfl, signs, distinct, owned, long, .inr tag, expired,
      zeroed, zero, drain⟩

end Expiry

/-- What a run makes of sessions. -/
structure SessionLifecycle (dep : Deployment) (start : Ledger) (events : List Event) : Prop where
  /-- A session that authorizes an Execute was created for that wallet by an Owner or Admin without a
  policy, names the key that signed, has not expired nor been gone since, and carries the actions
  that were approved, but for their running totals. -/
  used : ∀ j call m session sessionKey, SucceedsAt dep start events j call m →
    Approval.session session sessionKey ∈ m.approved →
    ∃ wallet bytes k create authority args actions,
      call.discriminator = 4 ∧ KeyAt call.processorAccounts 1 wallet ∧
      registryAt dep start events j session = some bytes ∧ SessionAccount.check bytes = .ok () ∧
      k < j ∧ SessionCreated dep start events k create authority session wallet args ∧
      (∀ l, k < l → l ≤ j → registryAt dep start events l session ≠ none) ∧
      args.sessionKey = sessionKey ∧
      (∃ acc ∈ call.processorAccounts, acc.isSigner = true ∧ acc.key = sessionKey) ∧
      create.slot ≤ call.slot ∧ call.slot ≤ args.expiresAt ∧ args.expiresAt ≤ create.slot + maxSessionSlots ∧
      parseActions args.actionsBytes = .ok actions ∧
      SameButTotals 0 actions args.actionsBytes (bytes.drop sessionHeaderSize)
  /-- At every slot a live session passes Execute's expiry test or can be closed, and never both. -/
  partition : ∀ j session bytes, registryAt dep start events j session = some bytes →
    bytes.byte 0 = AccountDiscriminator.session.toByte →
    ∀ (fr : Frame) (accounts : List AccountInfo) (walletPda sessionPda caller refundDest : AccountInfo),
      sessionPda.key = session → sessionPda.isWritable = true → walletPda.key = (SessionAccount.read bytes).wallet →
      fr.stackHeight ≤ 1 →
      (∃ acc ∈ accounts, acc.isSigner = true ∧ acc.key = (SessionAccount.read bytes).sessionKey) →
      caller.isSigner = true → refundDest.isWritable = true → refundDest.key ≠ session →
      (ledgerAt dep start events j refundDest.key).lamports + (ledgerAt dep start events j session).lamports <
        2 ^ 64 →
      Xor (∃ key, authenticateExecuteSession fr accounts (Machine.start (ledgerAt dep start events j)) walletPda
          sessionPda = .ok key)
        (∃ m, processCloseExpiredSession dep fr [caller, sessionPda, refundDest]
          (Machine.start (ledgerAt dep start events j)) = .ok m)

/-- What a session's bytes still say, compared with its creation. -/
theorem SameButTotals.session {views : List ActionView} {bump : UInt8} {wallet : Pubkey}
    {args : ParsedCreateSessionArgs} {bytes : Bytes} (bound : args.expiresAt < 2 ^ 64)
    (same : SameButTotals sessionHeaderSize views (newSessionBytes bump wallet args) bytes) :
    SessionAccount.check bytes = .ok () ∧ (SessionAccount.read bytes).wallet = wallet ∧
      (SessionAccount.read bytes).sessionKey = args.sessionKey ∧
      (SessionAccount.read bytes).expiresAt = args.expiresAt := by
  have read : SessionAccount.read bytes = _ :=
    (SessionAccount.read_congr fun i early => same.getElem?_of_lt early).trans (read_newSession bound)
  refine ⟨SessionAccount.check_eq_ok.mpr ⟨?_, ?_, ?_⟩, by rw [read], by rw [read], by rw [read]⟩
  · rw [same.length]
    simp [newSessionBytes]
  · rw [same.byte_of_lt (by decide), byte_newSession]
  · rw [same.byte_of_lt (by decide)]
    rfl

/-- Over any run at nondecreasing slots, sessions live by these laws. -/
theorem session_lifecycle {dep : Deployment} {start : Ledger} {events : List Event} (genesis : Genesis dep start)
    (ordered : SlotsNondecreasing events) : SessionLifecycle dep start events where
  used j call m session sessionKey success approved := by
    obtain ⟨execute, wallet, bytes, use⟩ := success.transition.session_inv approved
    obtain ⟨k, create, authority, wallet', args, bump, views, early, creation, since, parsed, same⟩ :=
      session_provenance genesis use.recorded use.tag
    obtain ⟨checked, named, key, expiry⟩ := same.session (ParsedCreateSessionArgs.expiresAt_lt creation.parsed)
    have sameWallet : wallet' = wallet := named.symm.trans use.ofWallet
    subst sameWallet
    obtain ⟨_, _, createSuccess, _⟩ := creation.succeeds
    have tail := same.drop
    rw [drop_newSessionBytes] at tail
    exact ⟨wallet', bytes, k, create, authority, args, views, execute, use.walletAt, use.recorded, checked, early,
      creation, since, key.symm.trans use.key, use.signed,
      ordered k j create call early.le createSuccess.1 success.1, expiry ▸ use.unexpired, creation.duration,
      parsed, tail⟩
  partition j session bytes recorded tag fr accounts walletPda sessionPda caller refundDest isSession writable
      isWallet top signed signs refundWritable distinct fits := by
    subst isSession
    obtain ⟨owned, data, _⟩ := registry_eq_some.mp recorded
    have sameData : (Machine.start (ledgerAt dep start events j) : Machine Approval).data sessionPda.key = bytes :=
      data
    obtain ⟨_, _, _, _, _, _, _, _, _, _, _, same⟩ := session_provenance genesis recorded tag
    have long : sessionHeaderSize ≤ bytes.length := by
      rw [same.length]
      simp [newSessionBytes]
    rw [authenticateExecuteSession_succeeds_iff top (by rwa [sameData]) (by rw [sameData, isWallet])
        (by rwa [sameData]),
      processCloseExpiredSession_succeeds_iff dep (m := Machine.start (ledgerAt dep start events j)) signs
        distinct owned (by rwa [sameData]) (by rwa [sameData]) writable refundWritable fits, sameData]
    rcases Nat.lt_or_ge (SessionAccount.read bytes).expiresAt fr.slot.toNat with expired | unexpired
    · exact .inr ⟨expired, by omega⟩
    · exact .inl ⟨unexpired, by omega⟩

namespace Sample

/-- The run in front of the Execute under the session. -/
def atUse : Machine Approval := .start (ledgerAt deployment .empty events 10)

/-- That transaction at another slot. -/
def useFrame (slot : UInt64) : Frame := { executeSession.frame with slot := slot }

/-- Execute takes the session at a slot. -/
def Executes (slot : UInt64) : Prop :=
  ∃ key, authenticateExecuteSession (useFrame slot) executeSession.processorAccounts atUse (readonly wallet)
    (writable session) = .ok key

/-- The session can be closed at a slot. -/
def Closable (slot : UInt64) : Prop :=
  ∃ m, processCloseExpiredSession deployment (useFrame slot) [payerInfo, writable session, writable recipient] atUse =
    .ok m

end Sample

/-- The session that moves lamports was created in the run. Execute takes it through slot 2000, and from slot 2001 on
it can be closed. -/
theorem session_lifecycle_sample :
    (∃ k create authority args, k < 10 ∧ SessionCreated Sample.deployment Ledger.empty Sample.events k create authority
        Sample.session Sample.wallet args ∧ args.sessionKey = Sample.sessionKey) ∧
      (Sample.Executes 2000 ∧ ¬Sample.Closable 2000) ∧ Sample.Closable 2001 ∧ ¬Sample.Executes 2001 := by
  have lifecycle : SessionLifecycle Sample.deployment Ledger.empty Sample.events :=
    session_lifecycle (genesis_empty _) (slotsNondecreasing_of_pairwise (by decide +kernel))
  -- everything that is found by running the events, at once
  have facts : isRecordTag ((Sample.atUse.data Sample.session).byte 0) = true ∧
      Sample.atUse.owner Sample.session = Sample.deployment.programId ∧
      (Sample.atUse.data Sample.session).byte 0 = AccountDiscriminator.session.toByte ∧
      Sample.wallet = (SessionAccount.read (Sample.atUse.data Sample.session)).wallet ∧
      Sample.sessionKey = (SessionAccount.read (Sample.atUse.data Sample.session)).sessionKey ∧
      (ledgerAt Sample.deployment Ledger.empty Sample.events 10 (Sample.writable Sample.recipient).key).lamports +
        (ledgerAt Sample.deployment Ledger.empty Sample.events 10 Sample.session).lamports < 2 ^ 64 ∧
      (Sample.executeSession.execute Sample.deployment
        (ledgerAt Sample.deployment Ledger.empty Sample.events 10)).succeeded = true ∧
      Approval.session Sample.session Sample.sessionKey ∈
        (resultAt Sample.deployment Ledger.empty Sample.events 10 Sample.executeSession).approved ∧
      (authenticateExecuteSession (Sample.useFrame 2000) Sample.executeSession.processorAccounts Sample.atUse
        (Sample.readonly Sample.wallet) (Sample.writable Sample.session)).succeeded = true ∧
      (processCloseExpiredSession Sample.deployment (Sample.useFrame 2001) [Sample.payerInfo,
        Sample.writable Sample.session, Sample.writable Sample.recipient] Sample.atUse).succeeded = true := by
    decide +kernel
  obtain ⟨tag, owned, isSession, ofWallet, ofKey, fits, succeeded, approved, uses, closes⟩ := facts
  have recorded : registryAt Sample.deployment Ledger.empty Sample.events 10 Sample.session =
      some (Sample.atUse.data Sample.session) :=
    registry_eq_some.mpr ⟨owned, rfl, tag⟩
  have signed : ∃ acc ∈ Sample.executeSession.processorAccounts, acc.isSigner = true ∧
      acc.key = (SessionAccount.read (Sample.atUse.data Sample.session)).sessionKey :=
    ⟨Sample.signer Sample.sessionKey, by decide +kernel, rfl, ofKey⟩
  have apart (slot : UInt64) : Xor (Sample.Executes slot) (Sample.Closable slot) :=
    lifecycle.partition 10 Sample.session _ recorded isSession (Sample.useFrame slot)
      Sample.executeSession.processorAccounts (Sample.readonly Sample.wallet) (Sample.writable Sample.session)
      Sample.payerInfo (Sample.writable Sample.recipient) rfl rfl ofWallet (Nat.le_refl 1) signed rfl rfl (by decide)
      fits
  have success : SucceedsAt Sample.deployment Ledger.empty Sample.events 10 Sample.executeSession _ :=
    succeedsAt_resultAt rfl succeeded
  obtain ⟨wallet, _, k, create, authority, args, _, _, named, _, _, early, creation, _, isKey, _⟩ :=
    lifecycle.used 10 Sample.executeSession _ Sample.session Sample.sessionKey success approved
  have isWallet : Sample.wallet = wallet := KeyAt.unique ⟨_, rfl, rfl⟩ named
  subst isWallet
  have used : Sample.Executes 2000 := Except.exists_of_succeeded uses
  have closed : Sample.Closable 2001 := Except.exists_of_succeeded closes
  refine ⟨⟨k, create, authority, args, early, creation, isKey⟩, ⟨used, fun closed => ?_⟩, closed, fun used => ?_⟩
  · rcases apart 2000 with ⟨_, unclosed⟩ | ⟨_, unused⟩
    · exact unclosed closed
    · exact unused used
  · rcases apart 2001 with ⟨_, unclosed⟩ | ⟨_, unused⟩
    · exact unclosed closed
    · exact unused used

end LazorKit
