import LazorKit.Proofs.Acceptance

/-! # The inner instructions of a batch

What Execute and ExecuteDeferred issue is a function of the compact instructions, the accounts they
index and two keys, the sender's and the vault's. The accounts hash covers exactly the entries the
positions name, so two account lists with one preimage expand a batch to the same instructions.
-/

namespace LazorKit

open Solana

section Hash

variable {accounts accounts' : List AccountInfo} {ixs : List CompactInstruction}

private theorem accountFlags_injective {signer signer' writable writable' : Bool}
    (same : accountFlags signer writable = accountFlags signer' writable') :
    signer = signer' ∧ writable = writable' := by
  revert same
  cases signer <;> cases signer' <;> cases writable <;> cases writable' <;> decide

theorem accountsHashEntry_eq_ok {index : ℕ} {entry : Bytes} :
    accountsHashEntry accounts index = .ok entry ↔ ∃ acc, accounts[index]? = some acc ∧
      entry = acc.key.bytes ++ [accountFlags acc.isSigner acc.isWritable] := by
  simp only [accountsHashEntry, accountByIndex, Except.bind_eq_ok, Except.ofOption_eq_ok, Except.ok.injEq]
  exact exists_congr fun acc => and_congr_right fun _ => eq_comm

/-- An entry determines the account, its key and its privileges. -/
theorem accountsHashEntry_injective {index : ℕ} {entry : Bytes}
    (first : accountsHashEntry accounts index = .ok entry) (second : accountsHashEntry accounts' index = .ok entry) :
    accounts[index]? = accounts'[index]? := by
  obtain ⟨acc, found, rfl⟩ := accountsHashEntry_eq_ok.mp first
  obtain ⟨acc', found', same⟩ := accountsHashEntry_eq_ok.mp second
  obtain ⟨keys, flags⟩ := List.append_inj same (by rw [acc.key.length_bytes, acc'.key.length_bytes])
  obtain ⟨signers, writables⟩ := accountFlags_injective (List.head_eq_of_cons_eq flags)
  have whole : acc = acc' := by
    cases acc
    cases acc'
    simp only [AccountInfo.mk.injEq]
    exact ⟨BytesN.ext_bytes keys, signers, writables⟩
  rw [found, found', whole]

private theorem entries_width {indices : List ℕ} {entries : List Bytes}
    (each : List.Forall₂ (fun index entry => accountsHashEntry accounts index = .ok entry) indices entries) :
    ∀ entry ∈ entries, entry.length = 33 := by
  induction each with
  | nil => simp
  | cons head _ ih =>
    obtain ⟨acc, _, rfl⟩ := accountsHashEntry_eq_ok.mp head
    exact List.forall_mem_cons.mpr ⟨by simp [acc.key.length_bytes], ih⟩

private theorem entries_agree {indices : List ℕ} {entries : List Bytes}
    (first : List.Forall₂ (fun index entry => accountsHashEntry accounts index = .ok entry) indices entries)
    (second : List.Forall₂ (fun index entry => accountsHashEntry accounts' index = .ok entry) indices entries) :
    ∀ index ∈ indices, accounts[index]? = accounts'[index]? := by
  induction first with
  | nil => simp
  | cons head tail ih =>
    cases second with
    | cons head' tail' => exact List.forall_mem_cons.mpr ⟨accountsHashEntry_injective head head', ih tail'⟩

/-- Equal preimages come from lists that agree at every position the batch names. -/
theorem accountsHashPreimage_injective {preimage : Bytes}
    (first : accountsHashPreimage accounts ixs = .ok preimage)
    (second : accountsHashPreimage accounts' ixs = .ok preimage) :
    ∀ index ∈ ixs.flatMap CompactInstruction.hashedIndices, accounts[index]? = accounts'[index]? := by
  simp only [accountsHashPreimage, Except.bind_eq_ok, Except.mapM_eq_ok] at first second
  obtain ⟨entries, each, result⟩ := first
  obtain ⟨entries', each', result'⟩ := second
  have same := Bytes.flatten_injective (each.length_eq.symm.trans each'.length_eq) (entries_width each)
    (entries_width each') ((Except.ok.inj result).trans (Except.ok.inj result').symm)
  subst same
  exact entries_agree each each'

end Hash

section Expansion

variable {accounts accounts' : List AccountInfo} {ixs : List CompactInstruction}

/-- The instructions a batch expands to. -/
def innerInstructions (accounts : List AccountInfo) (payerKey vaultKey : Pubkey) (sessionKey : Option Pubkey)
    (ixs : List CompactInstruction) : Except ProgramError (List Instruction) :=
  ixs.mapM fun ix => (ix.decompress accounts).map (innerInstruction payerKey vaultKey sessionKey)

/-- A program position in range carries no flag bit, so the hash masks nothing off it. -/
theorem decodeAccountIndex_of_le {byte : UInt8} (inRange : byte ≤ maxAccountIndex) :
    (decodeAccountIndex byte).1 = byte.toNat := by
  have low : byte.toNat < 2 ^ 7 := Nat.lt_of_le_of_lt (UInt8.le_iff_toNat_le.mp inRange) (by decide)
  rw [decodeAccountIndex, UInt8.toNat_and, show (0x7f : UInt8).toNat = 2 ^ 7 - 1 from rfl,
    Nat.and_two_pow_sub_one_eq_mod, Nat.mod_eq_of_lt low]

theorem decompress_congr {ix : CompactInstruction} (inRange : ix.programIdIndex ≤ maxAccountIndex)
    (agree : ∀ index ∈ ix.hashedIndices, accounts[index]? = accounts'[index]?) :
    ix.decompress accounts = ix.decompress accounts' := by
  rw [CompactInstruction.hashedIndices, List.forall_mem_cons, decodeAccountIndex_of_le inRange] at agree
  have resolved : ix.accounts.mapM (resolveAccount accounts) = ix.accounts.mapM (resolveAccount accounts') := by
    apply Except.mapM_congr
    intro byte member
    have same := agree.2 _ (List.mem_map_of_mem member)
    rw [resolveAccount, resolveAccount, accountByIndex, accountByIndex, same]
  rw [CompactInstruction.decompress, CompactInstruction.decompress, accountByIndex, accountByIndex, agree.1, resolved]

theorem innerInstructions_congr {payerKey vaultKey : Pubkey} {sessionKey : Option Pubkey}
    (inRange : ∀ ix ∈ ixs, ix.programIdIndex ≤ maxAccountIndex)
    (agree : ∀ index ∈ ixs.flatMap CompactInstruction.hashedIndices, accounts[index]? = accounts'[index]?) :
    innerInstructions accounts payerKey vaultKey sessionKey ixs =
      innerInstructions accounts' payerKey vaultKey sessionKey ixs := by
  apply Except.mapM_congr
  intro ix member
  rw [decompress_congr (inRange ix member) fun index listed => agree index (List.mem_flatMap.mpr ⟨ix, member, listed⟩)]

/-- Every parsed instruction's program position is in range. -/
theorem parseCompactInstructions_inRange {count : ℕ} {bytes rest : Bytes}
    (parsed : parseCompactInstructions count bytes = .ok (ixs, rest)) :
    ∀ ix ∈ ixs, ix.programIdIndex ≤ maxAccountIndex := by
  induction count generalizing bytes ixs with
  | zero =>
    cases Except.ok.inj parsed
    simp
  | succ count ih =>
    simp only [parseCompactInstructions, Except.bind_eq_ok] at parsed
    obtain ⟨⟨ix, tail⟩, head, ⟨more, _⟩, others, result⟩ := parsed
    cases Except.ok.inj result
    exact List.forall_mem_cons.mpr ⟨(CompactInstruction.fromBytes_eq_ok head).2.1, ih others⟩

theorem parseCompactInstructionsRefWithLen_inRange {bytes : Bytes} {len : ℕ}
    (parsed : parseCompactInstructionsRefWithLen bytes = .ok (ixs, len)) :
    ∀ ix ∈ ixs, ix.programIdIndex ≤ maxAccountIndex := by
  unfold parseCompactInstructionsRefWithLen at parsed
  split at parsed
  · cases parsed
  · simp only [Except.bind_eq_ok, Except.ensure_eq_ok, exists_const] at parsed
    obtain ⟨_, stream, whole, result⟩ := parsed
    cases Except.ok.inj result
    exact parseCompactInstructions_inRange whole

end Expansion

section Issued

variable {dep : Deployment} {fr : Frame} {accounts : List AccountInfo} {data : Bytes} {m m' : Machine Approval}
  {payerKey vaultKey : Pubkey} {sessionKey : Option Pubkey} {ixs : List CompactInstruction}

private theorem executeInner_invoked {ix : CompactInstruction}
    (success : executeInner dep fr accounts payerKey vaultKey sessionKey m ix = .ok m') :
    ∃ inner, (ix.decompress accounts).map (innerInstruction payerKey vaultKey sessionKey) = .ok inner ∧
      m'.invoked = m.invoked ++ [inner] := by
  simp only [executeInner, Except.bind_eq_ok, Except.ensure_eq_ok, exists_const] at success
  obtain ⟨decompressed, expanded, _, issued⟩ := success
  exact ⟨_, Except.map_eq_ok.mpr ⟨_, expanded, rfl⟩, (Machine.invoke_eq_ok issued).2.2⟩

private theorem executeInner_foldlM_invoked
    (success : ixs.foldlM (executeInner dep fr accounts payerKey vaultKey sessionKey) m = .ok m') :
    ∃ issued, innerInstructions accounts payerKey vaultKey sessionKey ixs = .ok issued ∧
      m'.invoked = m.invoked ++ issued := by
  induction ixs generalizing m with
  | nil =>
    cases Except.foldlM_nil_eq_ok.mp success
    exact ⟨[], rfl, (List.append_nil _).symm⟩
  | cons ix rest ih =>
    obtain ⟨middle, head, tail⟩ := Except.foldlM_cons_eq_ok.mp success
    obtain ⟨inner, expanded, first⟩ := executeInner_invoked head
    obtain ⟨others, expandedRest, second⟩ := ih tail
    refine ⟨inner :: others, ?_, by rw [second, first, List.append_assoc, List.singleton_append]⟩
    rw [innerInstructions, Except.mapM_eq_ok] at expandedRest ⊢
    exact .cons expanded expandedRest

/-- Tracking the vault's balance issues nothing of its own. -/
theorem executeTracked_foldlM {progress progress' : CpiProgress}
    (success : ixs.foldlM (executeTracked dep fr accounts payerKey vaultKey sessionKey) progress = .ok progress') :
    ixs.foldlM (executeInner dep fr accounts payerKey vaultKey sessionKey) progress.machine =
      .ok progress'.machine := by
  induction ixs generalizing progress with
  | nil =>
    cases Except.foldlM_nil_eq_ok.mp success
    rfl
  | cons ix rest ih =>
    obtain ⟨middle, head, tail⟩ := Except.foldlM_cons_eq_ok.mp success
    simp only [executeTracked, Except.bind_eq_ok] at head
    obtain ⟨m, inner, result⟩ := head
    cases Except.ok.inj result
    exact Except.foldlM_cons_eq_ok.mpr ⟨m, inner, ih tail⟩

theorem tryCollectFee_invoked {discriminator : UInt8} {rest : List AccountInfo}
    (success : tryCollectFee dep fr discriminator accounts m = .ok (m', rest)) : m'.invoked = m.invoked := by
  simp only [tryCollectFee, Except.bind_eq_ok, Except.ensure_eq_ok, exists_const] at success
  obtain ⟨_, config, _, record, _, shard, _, system, _, _, _, success⟩ := success
  split at success
  · cases success
    rfl
  · simp only [Except.bind_eq_ok, Except.ensure_eq_ok, exists_const] at success
    obtain ⟨_, _, _, payer, _, _, _, recorded, ensured, paid, transfer, _, charged, store, result⟩ := success
    cases Except.ok.inj result
    rw [(writeData_eq_ok store).2.2, (Machine.systemTransfer_eq_ok transfer).2.2.1.invoked]
    unfold ensureFeeRecord at ensured
    split at ensured
    · simp only [Except.bind_eq_ok] at ensured
      obtain ⟨made, creation, store⟩ := ensured
      rw [(writeData_eq_ok store).2.2, (initializePdaAccount_eq_ok creation (dep.rent.minimumBalance_pos _)).invoked]
    · split at ensured
      · cases ensured
      · simp only [Except.bind_eq_ok] at ensured
        obtain ⟨_, _, result⟩ := ensured
        cases Except.ok.inj result
        rfl

/-- The session key an Execute is limited to: the one stored in the approving account, if that is a session. -/
def sessionKeyOf (bytes : Bytes) : Option Pubkey :=
  if bytes.byte 0 = AccountDiscriminator.session.toByte then some (SessionAccount.read bytes).sessionKey else none

/-- A successful Execute, step by step: `authenticated` is the machine after the approval and `progress`
what the loop over the batch left. -/
structure ExecuteRun (dep : Deployment) (fr : Frame) (accounts : List AccountInfo) (data : Bytes)
    (m m' : Machine Approval) (payer wallet authority : AccountInfo) (ixs : List CompactInstruction) (len : ℕ)
    (sessionKey : Option Pubkey) (authenticated : Machine Approval) (progress : CpiProgress) : Prop where
  payerAt : accounts[0]? = some payer
  payerSigns : payer.isSigner = true
  walletAt : accounts[1]? = some wallet
  authorityAt : accounts[2]? = some authority
  parsed : parseCompactInstructionsRefWithLen data = .ok (ixs, len)
  session : sessionKey = sessionKeyOf (m.data authority.key)
  authentication :
    authenticateExecute dep fr accounts data m wallet authority ixs len = .ok (authenticated, sessionKey)
  approval : (sessionKey = none ∧ ∃ assertion,
      authenticated.approved = m.approved ++ [.authority authority.key 4 assertion]) ∨
    ∃ key, sessionKey = some key ∧ authenticated.approved = m.approved ++ [.session authority.key key]
  silent : authenticated.invoked = m.invoked
  owned : authenticated.owner authority.key = dep.programId
  /-- The approval leaves the policy alone. -/
  policyKept : ∀ loc, executePolicy (m.data authority.key) = some loc →
    loc.slice (authenticated.data authority.key) = loc.slice (m.data authority.key)
  lists : ∀ loc, executePolicy (m.data authority.key) = some loc →
    evaluatePreActions (authenticated.data authority.key) loc ixs accounts fr.slot.toNat = .ok ()
  loop : ixs.foldlM (executeTracked dep fr accounts payer.key
      (dep.findProgramAddress [Seeds.vault, wallet.key.bytes]).1 sessionKey)
    ⟨authenticated, 0, authenticated.lamports (dep.findProgramAddress [Seeds.vault, wallet.key.bytes]).1⟩ = .ok progress
  checks : ∀ loc, executePolicy (m.data authority.key) = some loc → ∃ bytes,
    postCpiPhase (takeBeforeCpis authenticated.ledger accounts
      (dep.findProgramAddress [Seeds.vault, wallet.key.bytes]).1)
      progress.machine.ledger accounts (dep.findProgramAddress [Seeds.vault, wallet.key.bytes]).1
      (progress.machine.data authority.key) loc progress.grossOut fr.slot.toNat = .ok bytes
  approved : m'.approved = progress.machine.approved
  invoked : m'.invoked = progress.machine.invoked

theorem AuthorityAccountHeader.size_le_policyOffset {bytes : Bytes} {loc : PolicyLocation}
    (found : PolicyLocation.of bytes = some loc) : AuthorityAccountHeader.size ≤ loc.offset := by
  unfold PolicyLocation.of at found
  split at found
  · cases found
  · split at found
    · cases found
      decide
    · split at found
      · split at found <;> cases found <;> decide
      · cases found

theorem processExecute_eq_ok (success : processExecute dep fr accounts data m = .ok m') :
    ∃ payer wallet authority ixs len sessionKey authenticated progress,
      ExecuteRun dep fr accounts data m m' payer wallet authority ixs len sessionKey authenticated progress := by
  simp only [processExecute, Except.bind_eq_ok, Except.ensure_eq_ok, exists_const, accountAt_eq_ok] at success
  obtain ⟨_, payer, payerAt, payerSigns, walletPda, walletAt, authorityPda, authorityAt, vaultPda, _,
    ⟨_, authorityOwned⟩, _, _, _, _, ⟨ixs, len⟩, parsed, ⟨authenticated, sessionKey⟩, authentication, _, lists, vault,
    progress, loop, tail⟩ := success
  rw [vault] at loop tail
  have pre : ∀ loc, executePolicy (m.data authorityPda.key) = some loc →
      evaluatePreActions (authenticated.data authorityPda.key) loc ixs accounts fr.slot.toNat = .ok () := by
    intro loc found
    rw [found] at lists
    exact lists
  have post : ∀ loc, executePolicy (m.data authorityPda.key) = some loc → ∃ bytes,
      postCpiPhase (takeBeforeCpis authenticated.ledger accounts
          (dep.findProgramAddress [Seeds.vault, walletPda.key.bytes]).1)
        progress.machine.ledger accounts (dep.findProgramAddress [Seeds.vault, walletPda.key.bytes]).1
        (progress.machine.data authorityPda.key) loc progress.grossOut fr.slot.toNat = .ok bytes := by
    intro loc found
    rw [found] at tail
    simp only [Except.bind_eq_ok] at tail
    obtain ⟨bytes, accepted, _⟩ := tail
    exact ⟨bytes, accepted⟩
  have last : m'.approved = progress.machine.approved ∧ m'.invoked = progress.machine.invoked := by
    split at tail
    · simp only [Except.bind_eq_ok] at tail
      obtain ⟨bytes, _, store⟩ := tail
      exact (writeData_eq_ok store).2
    · cases tail
      exact ⟨rfl, rfl⟩
  have approval := authentication
  simp only [authenticateExecute] at approval
  split at approval
  · next tag =>
    simp only [Except.bind_eq_ok] at approval
    obtain ⟨_, approves, same⟩ := approval
    cases Except.ok.inj same
    have none_ : sessionKeyOf (m.data authorityPda.key) = none := by
      rw [sessionKeyOf, tag, if_neg (by decide)]
    obtain ⟨_, _, new, approval, auth, _⟩ :=
      authenticateExecuteAuthority_eq_ok walletAt authorityAt authorityOwned approves
    obtain ⟨assertion, rfl⟩ := auth.acting.step.approval_eq
    have kept : ∀ loc, executePolicy (m.data authorityPda.key) = some loc →
        loc.slice (authenticated.data authorityPda.key) = loc.slice (m.data authorityPda.key) := by
      intro loc found
      have behind := AuthorityAccountHeader.size_le_policyOffset (Option.filter_eq_some_iff.mp found).1
      rw [PolicyLocation.slice, PolicyLocation.slice, auth.stored.data_self]
      apply List.ext_getElem?
      intro i
      rw [List.getElem?_drop, List.getElem?_drop]
      exact auth.acting.step.getElem?_eq (.inr (le_trans (by decide) (Nat.le_add_right_of_le behind)))
    exact ⟨payer, walletPda, authorityPda, ixs, len, none, authenticated, progress, payerAt, payerSigns, walletAt,
      authorityAt, parsed, none_.symm, authentication, .inl ⟨rfl, assertion, auth.approved⟩, auth.invoked,
      (auth.stored.owner _).trans authorityOwned, kept, pre, loop, post, last.1, last.2⟩
  · split at approval
    · next tag =>
      simp only [Except.bind_eq_ok] at approval
      obtain ⟨key, found, same⟩ := approval
      cases Except.ok.inj same
      simp only [authenticateExecuteSession, Except.bind_eq_ok, Except.ensure_eq_ok, exists_const,
        Except.ok.injEq] at found
      have own : sessionKeyOf (m.data authorityPda.key) = some key := by
        rw [sessionKeyOf, if_pos tag, found.2.2.2.2.2]
      exact ⟨payer, walletPda, authorityPda, ixs, len, some key, m.approve (.session authorityPda.key key), progress,
        payerAt, payerSigns, walletAt, authorityAt, parsed, own.symm, authentication, .inr ⟨key, rfl, rfl⟩, rfl,
        authorityOwned, fun _ _ => rfl, pre, loop, post, last.1, last.2⟩
    · cases approval

/-- What an Execute issues is the expansion of its batch. -/
theorem ExecuteRun.issued {payer wallet authority : AccountInfo} {len : ℕ} {authenticated : Machine Approval}
    {progress : CpiProgress}
    (run : ExecuteRun dep fr accounts data m m' payer wallet authority ixs len sessionKey authenticated progress) :
    ∃ issued, innerInstructions accounts payer.key (dep.findProgramAddress [Seeds.vault, wallet.key.bytes]).1
        sessionKey ixs = .ok issued ∧ m'.invoked = m.invoked ++ issued := by
  obtain ⟨issued, expanded, invoked⟩ := executeInner_foldlM_invoked (executeTracked_foldlM run.loop)
  exact ⟨issued, expanded, by rw [run.invoked, invoked]; exact congrArg (· ++ issued) run.silent⟩

/-- An Execute approved by an authority issues the expansion of its batch under no session. -/
theorem processExecute_invoked {key : Pubkey} {used : UInt8} {assertion : Option Assertion}
    (success : processExecute dep fr accounts data m = .ok m') (silent : m.approved = [])
    (member : Approval.authority key used assertion ∈ m'.approved) :
    ∃ payer wallet ixs len issued, KeyAt accounts 0 payer ∧ KeyAt accounts 1 wallet ∧
      parseCompactInstructionsRefWithLen data = .ok (ixs, len) ∧
      innerInstructions accounts payer (dep.findProgramAddress [Seeds.vault, wallet.bytes]).1 none ixs = .ok issued ∧
      m'.invoked = m.invoked ++ issued := by
  obtain ⟨payer, wallet, authority, ixs, len, sessionKey, authenticated, progress, run⟩ := processExecute_eq_ok success
  obtain ⟨issued, expanded, invoked⟩ := run.issued
  have foreign := executeTracked_foldlM_foreign run.loop
  rcases run.approval with ⟨rfl, _⟩ | ⟨sessionKey, _, approved⟩
  · exact ⟨payer.key, wallet.key, ixs, len, issued, ⟨_, run.payerAt, rfl⟩, ⟨_, run.walletAt, rfl⟩, run.parsed,
      expanded, invoked⟩
  · rw [run.approved, foreign.approved, approved] at member
    simp [silent] at member

/-- ExecuteDeferred issues the expansion of its batch under no session. -/
theorem processExecuteDeferred_invoked (success : processExecuteDeferred dep fr accounts data m = .ok m') :
    ∃ payer wallet ixs len issued, KeyAt accounts 0 payer ∧ KeyAt accounts 1 wallet ∧
      parseCompactInstructionsRefWithLen data = .ok (ixs, len) ∧
      innerInstructions accounts payer (dep.findProgramAddress [Seeds.vault, wallet.bytes]).1 none ixs = .ok issued ∧
      m'.invoked = m.invoked ++ issued := by
  simp only [processExecuteDeferred, Except.bind_eq_ok, Except.ensure_eq_ok, exists_const,
    accountAt_eq_ok] at success
  obtain ⟨_, payer, payerAt, walletPda, walletAt, vaultPda, _, deferredPda, _, refundDest, _, _, _, _, _, _, _, _, _,
    _, ⟨ixs, len⟩, parsed, _, _, _, _, vault, zeroed, zero, executed, loop, drain⟩ := success
  obtain ⟨issued, expanded, invoked⟩ := executeInner_foldlM_invoked loop
  rw [vault] at expanded
  refine ⟨payer.key, walletPda.key, ixs, len, issued, ⟨_, payerAt, rfl⟩, ⟨_, walletAt, rfl⟩, parsed, expanded, ?_⟩
  rw [(drainInto_eq_ok drain).1.invoked, invoked, (zeroData_eq_ok zero).2.2]

end Issued

end LazorKit
