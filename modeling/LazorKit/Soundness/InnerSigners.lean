import LazorKit.Soundness.InnerBinding

/-! # Who signs an inner instruction

Every account reference an Execute or an ExecuteDeferred hands to another program is given by one index
byte. Here each reference is stated by that byte and by the outer entry it names: the vault always signs,
and anyone else only where the byte asks for it, the outer entry signed, it is not the payer's key and, in
a session, it is the session's own. Entries are told apart by key, never by position.
-/

namespace LazorKit

open Solana

/-- When the account an index byte names signs the inner instruction. -/
def SignsInner (payerKey vaultKey : Pubkey) (sessionKey : Option Pubkey) (acc : AccountInfo) (forward : Bool) : Prop :=
  acc.key = vaultKey ∨
    forward = true ∧ acc.isSigner = true ∧ acc.key ≠ payerKey ∧ (sessionKey = none ∨ sessionKey = some acc.key)

section References

variable (accounts : List AccountInfo) (payerKey vaultKey : Pubkey) (sessionKey : Option Pubkey)

/-- The account reference an index byte stands for. -/
def Refers (byte : UInt8) (ref : AccountMeta) : Prop :=
  ∃ acc, accounts[(byte &&& 0x7f).toNat]? = some acc ∧ ref.pubkey = acc.key ∧ ref.isWritable = acc.isWritable ∧
    (ref.isSigner = true ↔ SignsInner payerKey vaultKey sessionKey acc (byte &&& 0x80 ≠ 0))

/-- The inner instruction a compact one stands for. -/
structure Expands (ix : CompactInstruction) (inner : Instruction) : Prop where
  program : KeyAt accounts ix.programIdIndex.toNat inner.programId
  refs : List.Forall₂ (Refers accounts payerKey vaultKey sessionKey) ix.accounts inner.accounts
  data : inner.data = ix.data

variable {accounts payerKey vaultKey sessionKey}

private theorem innerMeta_isSigner {acc : AccountInfo} {forward : Bool} :
    (innerMeta payerKey vaultKey sessionKey (acc, forward)).isSigner = true ↔
      SignsInner payerKey vaultKey sessionKey acc forward := by
  cases sessionKey with
  | none => simp [innerMeta, SignsInner, or_comm, and_assoc]
  | some key =>
    simp only [innerMeta, SignsInner, Bool.or_eq_true, Bool.and_eq_true, decide_eq_true_eq, and_assoc, or_comm,
      reduceCtorEq, false_or, Option.some.injEq, eq_comm (a := key)]

private theorem refers_of_resolveAccount {byte : UInt8} {resolved : AccountInfo × Bool}
    (found : resolveAccount accounts byte = .ok resolved) :
    Refers accounts payerKey vaultKey sessionKey byte (innerMeta payerKey vaultKey sessionKey resolved) := by
  simp only [resolveAccount, accountByIndex, Except.bind_eq_ok, Except.ofOption_eq_ok, Except.ok.injEq] at found
  obtain ⟨acc, at_, rfl⟩ := found
  exact ⟨acc, at_, rfl, rfl, innerMeta_isSigner⟩

private theorem expands_of_decompress {ix : CompactInstruction} {decompressed : DecompressedInstruction}
    (success : ix.decompress accounts = .ok decompressed) :
    Expands accounts payerKey vaultKey sessionKey ix (innerInstruction payerKey vaultKey sessionKey decompressed) := by
  simp only [CompactInstruction.decompress, accountByIndex, Except.bind_eq_ok, Except.ofOption_eq_ok,
    Except.mapM_eq_ok, Except.ok.injEq] at success
  obtain ⟨program, programAt, resolved, each, rfl⟩ := success
  refine ⟨⟨program, programAt, rfl⟩, ?_, rfl⟩
  rw [innerInstruction, List.forall₂_map_right_iff]
  exact each.imp fun byte entry found => refers_of_resolveAccount found

theorem expands_of_innerInstructions {ixs : List CompactInstruction} {issued : List Instruction}
    (success : innerInstructions accounts payerKey vaultKey sessionKey ixs = .ok issued) :
    List.Forall₂ (Expands accounts payerKey vaultKey sessionKey) ixs issued := by
  rw [innerInstructions, Except.mapM_eq_ok] at success
  apply success.imp
  intro ix inner found
  obtain ⟨decompressed, expanded, rfl⟩ := Except.map_eq_ok.mp found
  exact expands_of_decompress expanded

/-- A key that signs nowhere outside and is not the vault signs nowhere inside; neither does the payer. -/
theorem Refers.payer_silent {byte : UInt8} {ref : AccountMeta}
    (refers : Refers accounts payerKey vaultKey sessionKey byte ref) (other : payerKey ≠ vaultKey)
    (own : ref.pubkey = payerKey) : ref.isSigner = false := by
  obtain ⟨acc, _, key, _, signs⟩ := refers
  rw [own] at key
  rw [← Bool.not_eq_true, signs]
  rintro (vault | ⟨_, _, notPayer, _⟩)
  · exact other (key.trans vault)
  · exact notPayer key.symm

private theorem payer_silent_of_expands {ixs : List CompactInstruction} {issued : List Instruction}
    (each : List.Forall₂ (Expands accounts payerKey vaultKey sessionKey) ixs issued) (other : payerKey ≠ vaultKey) :
    ∀ inner ∈ issued, ∀ ref ∈ inner.accounts, ref.pubkey = payerKey → ref.isSigner = false := by
  intro inner listed ref named own
  obtain ⟨ix, _, expands⟩ := each.exists_left listed
  obtain ⟨byte, _, refers⟩ := expands.refs.exists_left named
  exact refers.payer_silent other own

end References

/-- Who signs what, in every inner instruction the program issues. -/
structure InnerSigning (dep : Deployment) : Prop where
  /-- One round of either loop refuses its instruction, whatever the runtime would do with it, or hands the
  runtime exactly the expansion. -/
  round : ∀ (accounts : List AccountInfo) (payerKey vaultKey : Pubkey) (sessionKey : Option Pubkey)
    (m : Machine Approval) (ix : CompactInstruction),
    (∃ e, ∀ fr, executeInner dep fr accounts payerKey vaultKey sessionKey m ix = .error e) ∨
      ∃ inner, Expands accounts payerKey vaultKey sessionKey ix inner ∧
        ∀ fr, executeInner dep fr accounts payerKey vaultKey sessionKey m ix = m.invoke dep.toRuntime fr inner
  /-- A successful Execute issued the expansions of its stream, under the session it was approved by, if any.
  A derived address signs no transaction, and then the payer signs no inner instruction. -/
  execute : ∀ (fr : Frame) (accounts : List AccountInfo) (data : Bytes) (m m' : Machine Approval),
    processExecute dep fr accounts data m = .ok m' → ∃ payer wallet authority ixs len issued,
      KeyAt accounts 0 payer ∧ KeyAt accounts 1 wallet ∧ KeyAt accounts 2 authority ∧
      parseCompactInstructionsRefWithLen data = .ok (ixs, len) ∧ m'.invoked = m.invoked ++ issued ∧
      List.Forall₂ (Expands accounts payer (vaultOf dep wallet) (sessionKeyOf (m.data authority))) ixs issued ∧
      ((∀ acc ∈ accounts, acc.key = vaultOf dep wallet → acc.isSigner = false) →
        ∀ inner ∈ issued, ∀ ref ∈ inner.accounts, ref.pubkey = payer → ref.isSigner = false)
  /-- ExecuteDeferred builds what Execute builds with no session. -/
  deferred : ∀ (fr fr' : Frame) (accounts accounts' : List AccountInfo) (data data' : Bytes)
    (m m' n n' : Machine Approval) (payer wallet authority : Pubkey) (ixs : List CompactInstruction) (len len' : ℕ),
    processExecute dep fr accounts data m = .ok m' → processExecuteDeferred dep fr' accounts' data' n = .ok n' →
    KeyAt accounts 0 payer → KeyAt accounts' 0 payer → KeyAt accounts 1 wallet → KeyAt accounts' 1 wallet →
    KeyAt accounts 2 authority → sessionKeyOf (m.data authority) = none →
    parseCompactInstructionsRefWithLen data = .ok (ixs, len) →
    parseCompactInstructionsRefWithLen data' = .ok (ixs, len') →
    (∀ index ∈ ixs.flatMap CompactInstruction.hashedIndices, accounts[index]? = accounts'[index]?) →
    ∃ issued, m'.invoked = m.invoked ++ issued ∧ n'.invoked = n.invoked ++ issued ∧
      List.Forall₂ (Expands accounts' payer (vaultOf dep wallet) none) ixs issued

section Signing

variable {dep : Deployment} {fr fr' : Frame} {accounts accounts' : List AccountInfo} {data data' : Bytes}
  {m m' n n' : Machine Approval}

private theorem executeInner_round (accounts : List AccountInfo) (payerKey vaultKey : Pubkey)
    (sessionKey : Option Pubkey) (m : Machine Approval) (ix : CompactInstruction) :
    (∃ e, ∀ fr, executeInner dep fr accounts payerKey vaultKey sessionKey m ix = .error e) ∨
      ∃ inner, Expands accounts payerKey vaultKey sessionKey ix inner ∧
        ∀ fr, executeInner dep fr accounts payerKey vaultKey sessionKey m ix = m.invoke dep.toRuntime fr inner := by
  cases expanded : ix.decompress accounts with
  | error e => exact .inl ⟨e, fun fr => by rw [executeInner, expanded]; rfl⟩
  | ok decompressed =>
    by_cases own : decompressed.programId = dep.programId
    · refine .inl ⟨↑AuthError.selfReentrancyNotAllowed, fun fr => ?_⟩
      rw [executeInner, expanded]
      exact Except.bind_eq_error.mpr (.inr ⟨decompressed, rfl, Except.bind_eq_error.mpr
        (.inl (Except.ensure_eq_error.mpr ⟨not_not_intro own, rfl⟩))⟩)
    · refine .inr ⟨_, expands_of_decompress expanded, fun fr => ?_⟩
      rw [executeInner, expanded]
      change (Except.ensure _ _ >>= fun _ => _) = _
      rw [Except.ensure_of own]
      rfl

theorem processExecute_expands (success : processExecute dep fr accounts data m = .ok m') :
    ∃ payer wallet authority ixs len issued,
      KeyAt accounts 0 payer ∧ KeyAt accounts 1 wallet ∧ KeyAt accounts 2 authority ∧
      parseCompactInstructionsRefWithLen data = .ok (ixs, len) ∧ m'.invoked = m.invoked ++ issued ∧
      List.Forall₂ (Expands accounts payer (vaultOf dep wallet) (sessionKeyOf (m.data authority))) ixs issued ∧
      ((∀ acc ∈ accounts, acc.key = vaultOf dep wallet → acc.isSigner = false) →
        ∀ inner ∈ issued, ∀ ref ∈ inner.accounts, ref.pubkey = payer → ref.isSigner = false) := by
  obtain ⟨payer, wallet, authority, ixs, len, sessionKey, _, _, run⟩ := processExecute_eq_ok success
  obtain ⟨issued, expanded, invoked⟩ := run.issued
  have each := expands_of_innerInstructions expanded
  rw [run.session] at each
  refine ⟨payer.key, wallet.key, authority.key, ixs, len, issued, ⟨_, run.payerAt, rfl⟩, ⟨_, run.walletAt, rfl⟩,
    ⟨_, run.authorityAt, rfl⟩, run.parsed, invoked, each, fun derived => payer_silent_of_expands each ?_⟩
  intro isVault
  have silent := derived payer (List.mem_of_getElem? run.payerAt) isVault
  rw [run.payerSigns] at silent
  cases silent

/-- Where an Execute without a session and an ExecuteDeferred resolve one stream alike, they issue the
same instructions. -/
theorem executeDeferred_issues_as_execute {payer wallet authority : Pubkey} {ixs : List CompactInstruction}
    {len len' : ℕ} (execute : processExecute dep fr accounts data m = .ok m')
    (deferred : processExecuteDeferred dep fr' accounts' data' n = .ok n')
    (payerAt : KeyAt accounts 0 payer) (payerAt' : KeyAt accounts' 0 payer) (walletAt : KeyAt accounts 1 wallet)
    (walletAt' : KeyAt accounts' 1 wallet) (authorityAt : KeyAt accounts 2 authority)
    (noSession : sessionKeyOf (m.data authority) = none)
    (parsed : parseCompactInstructionsRefWithLen data = .ok (ixs, len))
    (parsed' : parseCompactInstructionsRefWithLen data' = .ok (ixs, len'))
    (agree : ∀ index ∈ ixs.flatMap CompactInstruction.hashedIndices, accounts[index]? = accounts'[index]?) :
    ∃ issued, m'.invoked = m.invoked ++ issued ∧ n'.invoked = n.invoked ++ issued ∧
      List.Forall₂ (Expands accounts' payer (vaultOf dep wallet) none) ixs issued := by
  obtain ⟨payer₁, wallet₁, authority₁, ixs₁, len₁, sessionKey, _, _, run⟩ := processExecute_eq_ok execute
  obtain ⟨issued₁, expanded₁, invoked₁⟩ := run.issued
  obtain ⟨payer₂, wallet₂, ixs₂, len₂, issued₂, payerAt₂, walletAt₂, parsed₂, expanded₂, invoked₂⟩ :=
    processExecuteDeferred_invoked deferred
  cases payerAt.unique ⟨_, run.payerAt, rfl⟩
  cases payerAt'.unique payerAt₂
  cases walletAt.unique ⟨_, run.walletAt, rfl⟩
  cases walletAt'.unique walletAt₂
  cases authorityAt.unique ⟨_, run.authorityAt, rfl⟩
  rw [run.parsed] at parsed
  cases Except.ok.inj parsed
  rw [parsed₂] at parsed'
  cases Except.ok.inj parsed'
  rw [run.session, noSession,
    innerInstructions_congr (parseCompactInstructionsRefWithLen_inRange run.parsed) agree, expanded₂] at expanded₁
  cases Except.ok.inj expanded₁
  exact ⟨issued₁, invoked₁, invoked₂, expands_of_innerInstructions expanded₂⟩

end Signing

/-- In every inner instruction an account signs exactly when it is the vault, or its byte asks for it, the
outer account signed, it is not the payer and no session forbids it. -/
theorem inner_signing (dep : Deployment) : InnerSigning dep where
  round accounts payerKey vaultKey sessionKey m ix := executeInner_round accounts payerKey vaultKey sessionKey m ix
  execute _ _ _ _ _ := processExecute_expands
  deferred _ _ _ _ _ _ _ _ _ _ _ _ _ _ _ _ := executeDeferred_issues_as_execute

namespace Sample

/-- A transfer from the vault that also asks for the signatures of a third account, the payer and one more key. -/
def forwarding : CompactInstruction := ⟨5, [6, 7, 0x88, 0x84, 0x89], [2, 0, 0, 0] ++ Bytes.ofNatLE 8 1000⟩

def forwardingBatch : Bytes := [1, 5, 5, 6, 7, 0x88, 0x84, 0x89, 12, 0] ++ forwarding.data

/-- The accounts of the transfer, behind the four that differ from call to call. -/
def forwardingAccounts (front : List AccountInfo) (key : Pubkey) : List AccountInfo :=
  front ++ [payerInfo, readonly systemProgram, writable vault, writable recipient, cosignerInfo, signer key]

def forwardingPreimage : Bytes :=
  systemProgram.bytes ++ [0] ++ vault.bytes ++ [2] ++ recipient.bytes ++ [2] ++ cosigner.bytes ++ [3] ++
    payer.bytes ++ [3] ++ ownerKey.bytes ++ [1]

def forwardingHash : Bytes32 := bytes32 0x55d490266e88640b18aa909dc634b57236f63002ecf7a016ef4b871379dcffa1
def forwardingAccountsHash : Bytes32 := bytes32 0xb8d3ad64845d50ad151f6ab84f6509f0c26bb6634ff202359179ae49b57c2777

def forwardingDeployment : Deployment :=
  withDigests [(forwardingBatch, forwardingHash), (forwardingPreimage, forwardingAccountsHash)]

def forwardingFrame (slot : UInt64) (discriminator : UInt8) : Frame :=
  topLevel slot [] 1000 (discriminator :: forwardingBatch)

/-- The run in front of the Execute under the session. -/
def sessionLedger : Ledger := ledgerAt forwardingDeployment .empty events 10

/-- The run with the authorization in it, which is for this transfer. -/
def deferredLedger : Ledger :=
  (ledgerAt forwardingDeployment .empty events 8).set deferred ⟨2338560, programId,
    (newDeferred 251 (forwardingHash.bytes ++ forwardingAccountsHash.bytes) wallet authorityB payer 1101).toBytes⟩

def sessionAccounts : List AccountInfo :=
  forwardingAccounts [payerInfo, readonly wallet, writable session, writable vault] sessionKey

def ownerAccounts : List AccountInfo :=
  forwardingAccounts [payerInfo, readonly wallet, writable owner, writable vault] ownerKey

def deferredAccounts : List AccountInfo :=
  forwardingAccounts [payerInfo, readonly wallet, writable vault, writable deferred] ownerKey

def bySession : Machine Approval :=
  (processExecute forwardingDeployment (forwardingFrame 1004 4) sessionAccounts forwardingBatch
    (.start sessionLedger)).getD (.start sessionLedger)

def byOwner : Machine Approval :=
  (processExecute forwardingDeployment (forwardingFrame 1002 4) ownerAccounts forwardingBatch
    (.start deferredLedger)).getD (.start deferredLedger)

def byAnyone : Machine Approval :=
  (processExecuteDeferred forwardingDeployment (forwardingFrame 1002 7) deferredAccounts forwardingBatch
    (.start deferredLedger)).getD (.start deferredLedger)

/-- The transfer as the runtime gets it. -/
def forwarded (cosigned : Bool) (key : Pubkey) : Instruction where
  programId := systemProgram
  accounts := [⟨vault, true, true⟩, ⟨recipient, false, true⟩, ⟨cosigner, cosigned, true⟩, ⟨payer, false, true⟩,
    ⟨key, true, false⟩]
  data := forwarding.data

end Sample

/-- One stream under a session, by the Owner and as a deferred transfer. The session keeps the third account's
signature back, the other two pass it on, and nobody passes the payer's on. -/
theorem inner_signing_sample :
    List.Forall₂ (Expands Sample.sessionAccounts Sample.payer Sample.vault (some Sample.sessionKey))
        [Sample.forwarding] Sample.bySession.invoked ∧
      Sample.bySession.invoked = [Sample.forwarded false Sample.sessionKey] ∧
      Sample.byOwner.invoked = Sample.byAnyone.invoked ∧
      Sample.byAnyone.invoked = [Sample.forwarded true Sample.ownerKey] := by
  have signing := inner_signing Sample.forwardingDeployment
  have facts : (processExecute Sample.forwardingDeployment (Sample.forwardingFrame 1004 4) Sample.sessionAccounts
        Sample.forwardingBatch (.start Sample.sessionLedger)).succeeded = true ∧
      sessionKeyOf (Sample.sessionLedger Sample.session).data = some Sample.sessionKey ∧
      Sample.bySession.invoked = [Sample.forwarded false Sample.sessionKey] := by
    decide +kernel
  have facts' : (processExecute Sample.forwardingDeployment (Sample.forwardingFrame 1002 4) Sample.ownerAccounts
        Sample.forwardingBatch (.start Sample.deferredLedger)).succeeded = true ∧
      (processExecuteDeferred Sample.forwardingDeployment (Sample.forwardingFrame 1002 7) Sample.deferredAccounts
        Sample.forwardingBatch (.start Sample.deferredLedger)).succeeded = true ∧
      sessionKeyOf (Sample.deferredLedger Sample.owner).data = none ∧
      Sample.byAnyone.invoked = [Sample.forwarded true Sample.ownerKey] := by
    decide +kernel
  obtain ⟨underSession, bound, byKey⟩ := facts
  obtain ⟨underOwner, anyone, unbound, forwarded⟩ := facts'
  have parsed : parseCompactInstructionsRefWithLen Sample.forwardingBatch = .ok ([Sample.forwarding], 22) := by
    decide +kernel
  refine ⟨?_, byKey, ?_, forwarded⟩
  · obtain ⟨payer, wallet, authority, ixs, len, issued, payerAt, walletAt, authorityAt, stream, invoked, each, _⟩ :=
      signing.execute _ _ _ _ _ (Except.eq_ok_getD underSession)
    cases payerAt.unique ⟨Sample.payerInfo, rfl, rfl⟩
    cases walletAt.unique ⟨Sample.readonly Sample.wallet, rfl, rfl⟩
    cases authorityAt.unique ⟨Sample.writable Sample.session, rfl, rfl⟩
    cases parsed.symm.trans stream
    have isVault : vaultOf Sample.forwardingDeployment (Sample.readonly Sample.wallet).key = Sample.vault := by
      decide +kernel
    have isBound : sessionKeyOf ((Machine.start Sample.sessionLedger : Machine Approval).data
        (Sample.writable Sample.session).key) = some Sample.sessionKey := bound
    rw [isVault, isBound] at each
    rw [Sample.bySession, invoked]
    exact each
  · obtain ⟨issued, invoked, invoked', _⟩ :=
      signing.deferred _ _ _ _ _ _ _ _ _ _ Sample.payer Sample.wallet Sample.owner
      _ _ _ (Except.eq_ok_getD underOwner) (Except.eq_ok_getD anyone) ⟨Sample.payerInfo, rfl, rfl⟩
      ⟨Sample.payerInfo, rfl, rfl⟩ ⟨Sample.readonly Sample.wallet, rfl, rfl⟩ ⟨Sample.readonly Sample.wallet, rfl, rfl⟩
      ⟨Sample.writable Sample.owner, rfl, rfl⟩ unbound parsed parsed (by decide +kernel)
    rw [Sample.byOwner, Sample.byAnyone, invoked, invoked']

end LazorKit
