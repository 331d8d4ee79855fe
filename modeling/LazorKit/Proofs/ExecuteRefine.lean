import LazorKit.Proofs.PolicyBuffer
import LazorKit.Proofs.Transition

/-! # Execute, Authorize, ExecuteDeferred and ReclaimDeferred refine the protocol

Inner instructions belong to other programs and leave every record alone, so what Execute does to
the registry is authentication followed by the policy's running totals.
-/

namespace LazorKit

open Solana

variable {dep : Deployment} {fr : Frame} {accounts : List AccountInfo} {data : Bytes}
  {m m' m'' : Machine Approval}

/-- What a batch of inner instructions leaves: the records and the approvals. -/
structure Foreign (dep : Deployment) (m m' : Machine Approval) : Prop where
  respects : Machine.Respects dep.toRuntime m.ledger m'.ledger
  approved : m'.approved = m.approved

namespace Foreign

theorem refl (dep : Deployment) (m : Machine Approval) : Foreign dep m m := ⟨.refl _ _, rfl⟩

theorem trans (first : Foreign dep m m') (second : Foreign dep m' m'') : Foreign dep m m'' :=
  ⟨first.respects.trans second.respects, second.approved.trans first.approved⟩

theorem registry (foreign : Foreign dep m m') :
    registry dep m'.ledger = LazorKit.registry dep m.ledger := registry_respects foreign.respects

/-- An account of this program is untouched but for lamports it may have received. -/
theorem owned (foreign : Foreign dep m m') {key : Pubkey} (owned : m.owner key = dep.programId) :
    m'.owner key = dep.programId ∧ m'.data key = m.data key ∧ m.lamports key ≤ m'.lamports key :=
  Machine.foreignChange_of_owned (foreign.respects key) owned

end Foreign

private theorem executeInner_foreign {payer vault : Pubkey} {session : Option Pubkey} {ix : CompactInstruction}
    (success : executeInner dep fr accounts payer vault session m ix = .ok m') : Foreign dep m m' := by
  simp only [executeInner, Except.bind_eq_ok, Except.ensure_eq_ok, exists_const] at success
  obtain ⟨_, _, _, issued⟩ := success
  obtain ⟨respects, approved, _⟩ := Machine.invoke_eq_ok issued
  exact ⟨respects, approved⟩

theorem executeInner_foldlM_foreign {payer vault : Pubkey} {session : Option Pubkey}
    {ixs : List CompactInstruction}
    (success : ixs.foldlM (executeInner dep fr accounts payer vault session) m = .ok m') : Foreign dep m m' :=
  Except.foldlM_preserves (Foreign.refl dep) (fun _ _ _ => Foreign.trans)
    (fun _ _ _ _ => executeInner_foreign) success

theorem executeTracked_foldlM_foreign {payer vault : Pubkey} {session : Option Pubkey}
    {ixs : List CompactInstruction} {progress progress' : CpiProgress}
    (success : ixs.foldlM (executeTracked dep fr accounts payer vault session) progress = .ok progress') :
    Foreign dep progress.machine progress'.machine := by
  refine Except.foldlM_preserves (R := fun a b => Foreign dep a.machine b.machine)
    (fun p => Foreign.refl dep p.machine) (fun _ _ _ => Foreign.trans) ?_ success
  intro ix _ before after round
  simp only [executeTracked, Except.bind_eq_ok] at round
  obtain ⟨m, inner, result⟩ := round
  cases Except.ok.inj result
  exact executeInner_foreign inner

theorem PolicyLocation.of_congr {old new : Bytes} (length : new.length = old.length)
    (tag : new.byte 0 = old.byte 0) (kind : new.byte 1 = old.byte 1) :
    PolicyLocation.of new = PolicyLocation.of old := by
  match old, new, length with
  | [], [], _ => rfl
  | [_], [_], _ =>
    simp only [Bytes.byte, List.getD_cons_zero] at tag
    rw [tag]
  | _ :: _ :: _, _ :: _ :: _, _ =>
    simp only [Bytes.byte, List.getD_cons_zero, List.getD_cons_succ] at tag kind
    simp only [PolicyLocation.of, tag, kind, List.head?_cons]

private theorem PolicyLocation.isPresent_congr {old new : Bytes} {loc : PolicyLocation}
    (length : new.length = old.length) :
    loc.isPresent new = loc.isPresent old := by
  rw [PolicyLocation.isPresent, PolicyLocation.isPresent, length]

/-- A policy starts behind the two bytes that say where it starts. -/
theorem PolicyLocation.two_le {bytes : Bytes} {loc : PolicyLocation} (found : PolicyLocation.of bytes = some loc) :
    2 ≤ loc.offset := by
  unfold PolicyLocation.of at found
  split at found
  · cases found
  · split at found
    · cases found
      decide
    · split at found
      · split at found
        · cases found
          decide
        · cases found
          decide
        · cases found
      · cases found

/-- The tag and the length survive what Execute does with a policy. -/
theorem PolicyStep.kept {old new : Bytes} (step : PolicyStep old new) :
    new.length = old.length ∧ new.byte 0 = old.byte 0 := by
  rcases step with rfl | ⟨loc, _, _, _, _, _, found, present, evaluated⟩
  · exact ⟨rfl, rfl⟩
  · obtain ⟨_, _, same⟩ := evaluatePostActions_eq_ok present evaluated
    have behind := PolicyLocation.two_le found
    exact ⟨same.length, same.byte_of_lt (by omega)⟩

/-- What happens to the account's bytes after authentication: the inner instructions leave them
alone, and an accepting evaluation of the policy, where there is one, rewrites its totals. -/
theorem postCpi_policyStep {before : BeforeCpis} {after : Ledger} {vault : Pubkey} {policyData bytes : Bytes}
    {loc : PolicyLocation} {gross slot : ℕ} (found : PolicyLocation.of policyData = some loc)
    (present : loc.isPresent policyData = true)
    (success : postCpiPhase before after accounts vault policyData loc gross slot = .ok bytes) :
    PolicyStep policyData bytes := by
  simp only [postCpiPhase, Except.bind_eq_ok, Except.ensure_eq_ok, exists_const] at success
  obtain ⟨_, _, _, _, _, verdict, result⟩ := success
  cases Except.ok.inj result
  refine .inr ⟨loc, _, _, _, _, _, found, present, Prod.ext verdict rfl⟩

/-- The tail of Execute, from the machine after authentication on. -/
theorem execute_tail {policy : Option PolicyLocation} {authorityPda : AccountInfo} {vault payer : Pubkey}
    {session : Option Pubkey} {ixs : List CompactInstruction} {progress : CpiProgress}
    {start : CpiProgress} {before : BeforeCpis} {slot : ℕ}
    (owned : start.machine.owner authorityPda.key = dep.programId)
    (tag : isRecordTag ((start.machine.data authorityPda.key).byte 0) = true)
    (located : ∀ loc ∈ policy, PolicyLocation.of (start.machine.data authorityPda.key) = some loc ∧
      loc.isPresent (start.machine.data authorityPda.key) = true)
    (loop : ixs.foldlM (executeTracked dep fr accounts payer vault session) start = .ok progress)
    (tail : (match policy with
      | some loc => do
        let bytes ← postCpiPhase before progress.machine.ledger accounts vault
          (progress.machine.data authorityPda.key) loc progress.grossOut slot
        progress.machine.writeData dep.toRuntime authorityPda bytes
      | none => .ok progress.machine) = .ok m') :
    ∃ new, PolicyStep (start.machine.data authorityPda.key) new ∧
      registry dep m'.ledger = Function.update (registry dep start.machine.ledger) authorityPda.key (some new) ∧
      m'.approved = start.machine.approved ∧
      (Funded dep start.machine.ledger → Funded dep m'.ledger) := by
  have foreign := executeTracked_foldlM_foreign loop
  obtain ⟨stillOwned, kept, _⟩ := foreign.owned owned
  have recorded := registry_of_tag owned tag
  cases policy with
  | none =>
    cases tail
    refine ⟨_, .inl rfl, ?_, foreign.approved, funded_respects foreign.respects⟩
    rw [foreign.registry, ← recorded, Function.update_eq_self]
  | some loc =>
    simp only [Except.bind_eq_ok] at tail
    obtain ⟨bytes, phase, store⟩ := tail
    obtain ⟨stored, approved, _⟩ := writeData_eq_ok store
    rw [kept] at phase
    obtain ⟨found, present⟩ := located loc rfl
    have step := postCpi_policyStep found present phase
    have live : registry dep progress.machine.ledger authorityPda.key ≠ none := by
      rw [foreign.registry, recorded]
      simp
    refine ⟨bytes, step, ?_, approved.trans foreign.approved,
      fun funded => stored.funded_of_live live (funded_respects foreign.respects funded)⟩
    rw [stored.registry stillOwned, foreign.registry, recordData_of_tag (by rwa [step.kept.2])]

theorem policy_located {old new : Bytes} (length : new.length = old.length) (tag : new.byte 0 = old.byte 0)
    (kind : new.byte 1 = old.byte 1) :
    ∀ loc ∈ executePolicy old,
      PolicyLocation.of new = some loc ∧ loc.isPresent new = true := by
  intro loc member
  obtain ⟨found, present⟩ := Option.filter_eq_some_iff.mp member
  rw [PolicyLocation.of_congr length tag kind, PolicyLocation.isPresent_congr length]
  exact ⟨found, present⟩

/-- The authority branch authenticates the account over what it signed. -/
theorem authenticateExecuteAuthority_eq_ok {walletPda authorityPda : AccountInfo} {ixs : List CompactInstruction}
    {compactLen : ℕ} (walletAt : accounts[1]? = some walletPda) (authorityAt : accounts[2]? = some authorityPda)
    (owned : m.owner authorityPda.key = dep.programId)
    (success : authenticateExecuteAuthority dep fr accounts data m walletPda authorityPda ixs compactLen = .ok m') :
    ∃ authPayload signedPayload new approval, Authenticated dep fr accounts m m' walletPda.key authorityPda.key
        authPayload signedPayload 4 new approval ∧
      ((AuthorityAccountHeader.read (m.data authorityPda.key)).authorityType = 1 → ∃ hash,
        computeAccountsHash dep.toRuntime accounts ixs = .ok hash ∧
        signedPayload = data.take compactLen ++ hash.bytes) := by
  simp only [authenticateExecuteAuthority, Except.bind_eq_ok, Except.ensure_eq_ok, exists_const] at success
  obtain ⟨_, checked, ofWallet, success⟩ := success
  split at success
  · next kind =>
    obtain ⟨new, approval, auth⟩ :=
      authenticated_of_checks walletAt authorityAt owned checked ofWallet kind.symm success
    exact ⟨_, _, new, approval, auth, fun passkey => absurd (kind.symm.trans passkey) (by decide)⟩
  · next kind =>
    simp only [Except.bind_eq_ok] at success
    obtain ⟨hash, hashed, success⟩ := success
    obtain ⟨new, approval, auth⟩ :=
      authenticated_of_checks walletAt authorityAt owned checked ofWallet kind.symm success
    exact ⟨_, _, new, approval, auth, fun _ => ⟨hash, hashed, rfl⟩⟩
  · cases success

theorem processExecute_refines (success : processExecute dep fr accounts data m = .ok m') :
    Refines dep fr accounts data 4 m m' := by
  simp only [processExecute, Except.bind_eq_ok, Except.ensure_eq_ok, exists_const, accountAt_eq_ok] at success
  obtain ⟨_, payer, _, _, walletPda, walletAt, authorityPda, authorityAt, vaultPda, _, ⟨walletOwned, authorityOwned⟩,
    _, walletChecked, _, _, parsed, parse, ⟨approvedBy, session⟩, authentication, _, _, _, progress, loop, tail⟩ :=
      success
  have walletLive := walletRecord_of_check walletOwned walletChecked
  simp only [authenticateExecute] at authentication
  split at authentication
  · simp only [Except.bind_eq_ok] at authentication
    obtain ⟨_, authentication, same⟩ := authentication
    cases Except.ok.inj same
    obtain ⟨authPayload, signedPayload, new, approval, auth, signs⟩ :=
      authenticateExecuteAuthority_eq_ok walletAt authorityAt authorityOwned authentication
    have data_eq : approvedBy.data authorityPda.key = new := auth.stored.data_self
    have step := auth.acting.step
    obtain ⟨final, policy, after, approved, funded⟩ := execute_tail
      (by rw [auth.stored.owner, authorityOwned])
      (by rw [data_eq]; exact isRecordTag_authority (step.check_eq auth.acting.checked))
      (by
        rw [data_eq]
        exact policy_located step.length_eq (step.byte_eq (.inl (by decide))) (step.byte_eq (.inl (by decide))))
      loop tail
    refine ⟨[approval], ?_, approved.trans auth.approved, fun start => funded (auth.funded start)⟩
    rw [after, auth.registry, Function.update_idem]
    rw [data_eq] at policy
    refine .execute walletLive auth.acting policy fun passkey => ?_
    obtain ⟨hash, hashed, payload⟩ := signs passkey
    exact ⟨_, _, hash, parse, hashed, payload⟩
  · split at authentication
    · next tag =>
      simp only [Except.bind_eq_ok, authenticateExecuteSession, Except.ensure_eq_ok, exists_const] at authentication
      obtain ⟨_, ⟨_, fits, ofWallet, unexpired, signed, key⟩, same⟩ := authentication
      cases Except.ok.inj same
      cases Except.ok.inj key
      have recordTag : isRecordTag ((m.data authorityPda.key).byte 0) = true := by
        rw [tag]
        rfl
      have recorded := registry_of_tag authorityOwned recordTag
      obtain ⟨final, policy, after, approved, funded⟩ := execute_tail (by exact authorityOwned)
        recordTag
        (by exact policy_located rfl rfl rfl) loop tail
      refine ⟨_, ?_, approved, funded⟩
      rw [after]
      exact .executeSession ⟨_, walletAt, rfl⟩ walletLive recorded tag fits ofWallet unexpired signed policy
    · cases authentication

private theorem recordData_newDeferred (bump : UInt8) (wallet authority payer : Pubkey) (expiresAt : ℕ) :
    recordData (newDeferred bump data wallet authority payer expiresAt).toBytes =
      some (newDeferred bump data wallet authority payer expiresAt).toBytes := recordData_of_tag rfl

theorem processAuthorize_refines (success : processAuthorize dep fr accounts data m = .ok m') :
    Refines dep fr accounts data 6 m m' := by
  simp only [processAuthorize, Except.bind_eq_ok, Except.ensure_eq_ok, exists_const, accountAt_eq_ok] at success
  obtain ⟨payer, payerAt, walletPda, walletAt, authorityPda, authorityAt, deferredPda, _, systemProgram, _, _, _,
    _, ⟨walletOwned, authorityOwned⟩, _, walletChecked, _, long, window, _, authorityChecked, ofWallet, kind, rank,
    unbounded, approvedBy, authentication, bound, address, made, creation, store⟩ := success
  obtain ⟨new, approval, auth⟩ :=
    authenticated_of_checks walletAt authorityAt authorityOwned authorityChecked ofWallet kind.symm authentication
  have created := initializePdaAccount_eq_ok creation (dep.rent.minimumBalance_pos _)
  obtain ⟨stored, approved, _⟩ := writeData_eq_ok store
  have unrecorded := created.wasUnrecorded
  rw [auth.registry] at unrecorded
  obtain ⟨_, fresh⟩ := fresh_of_update unrecorded
  rw [created.data_self, splice_whole (by simp)] at stored
  replace stored : Stored made m' deferredPda.key (newDeferred (dep.findProgramAddress [Seeds.deferred,
    walletPda.key.bytes, authorityPda.key.bytes, Bytes.ofNatLE 4
      (AuthorityAccountHeader.read (approvedBy.data authorityPda.key)).counter]).2 data walletPda.key
    authorityPda.key payer.key (fr.slot.toNat + (data.slice 64 2).toNatLE)).toBytes := stored
  rw [auth.stored.data_self] at address stored
  refine ⟨[approval], ?_, ?_, fun funded => ?_⟩
  · rw [stored.registry created.owner_self, created.registry, auth.registry, recordData_newDeferred]
    exact .authorize long (walletRecord_of_check walletOwned walletChecked) auth.acting kind rank unbounded
      window bound address ⟨payer, payerAt, rfl⟩ fresh
  · rw [approved, created.approved, auth.approved]
  · exact stored.funded created.positive (created.funded (auth.funded funded))

theorem isRecordTag_deferred {bytes : Bytes} (checked : DeferredExecAccount.check bytes = .ok ()) :
    isRecordTag (bytes.byte 0) = true := by
  rw [(DeferredExecAccount.check_eq_ok.mp checked).2.1]
  rfl

/-- The account is zeroed before the inner instructions run and drained after them. -/
theorem processExecuteDeferred_refines (success : processExecuteDeferred dep fr accounts data m = .ok m') :
    Refines dep fr accounts data 7 m m' := by
  simp only [processExecuteDeferred, Except.bind_eq_ok, Except.ensure_eq_ok, exists_const,
    accountAt_eq_ok] at success
  obtain ⟨_, payer, _, walletPda, walletAt, vaultPda, _, deferredPda, deferredAt, refundDest, refundAt, _,
    ⟨walletOwned, deferredOwned⟩, _, walletChecked, _, deferredChecked, ofWallet, refund, unexpired, parsed,
    parse, instructions, accountsHash, hashed, sameHash, _, zeroed, zero, executed, loop, drain⟩ := success
  obtain ⟨stored, approved, _⟩ := zeroData_eq_ok zero
  have foreign := executeInner_foldlM_foreign loop
  obtain ⟨unmoved, _, more, _⟩ := drainInto_eq_ok drain
  have recorded := registry_of_tag deferredOwned (isRecordTag_deferred deferredChecked)
  have after : registry dep m'.ledger = Function.update (registry dep m.ledger) deferredPda.key none := by
    rw [registry_unmoved unmoved, foreign.registry, stored.registry deferredOwned, recordData_replicate]
  refine ⟨[], ?_, ?_, fun funded key live => ?_⟩
  · rw [after]
    exact .executeDeferred ⟨_, walletAt, rfl⟩ (walletRecord_of_check walletOwned walletChecked)
      ⟨_, deferredAt, rfl⟩ recorded
      deferredChecked ofWallet ⟨_, refundAt, refund.symm⟩ unexpired parse instructions (by rw [hashed, sameHash])
  · rw [unmoved.approved, foreign.approved, approved, List.append_nil]
  · have zeroedFunded : Funded dep zeroed.ledger :=
      stored.funded_of_live (by rw [recorded]; simp) funded
    have other : key ≠ deferredPda.key := by
      rintro rfl
      rw [after, Function.update_self] at live
      exact live rfl
    rw [registry_unmoved unmoved] at live
    exact (funded_respects foreign.respects zeroedFunded key live).trans_le (more key other)

/-- Reclaiming a v1 authorization touches no record: its tag is none of theirs. -/
theorem processReclaimDeferred_refines (success : processReclaimDeferred dep fr accounts m = .ok m') :
    Refines dep fr accounts data 8 m m' := by
  simp only [processReclaimDeferred, Except.bind_eq_ok, Except.ensure_eq_ok, exists_const,
    accountAt_eq_ok] at success
  obtain ⟨payer, payerAt, deferredPda, deferredAt, refundDest, refundAt, _, owned, terms, read, payerIs, refundIs,
    expired, _, zeroed, zero, drain⟩ := success
  have closed := closed_of_zero_drain owned zero drain
  refine ⟨[], ?_, by rw [closed.approved, List.append_nil], closed.funded⟩
  rw [closed.registry]
  unfold readDeferredTerms at read
  split at read
  · next legacy =>
    have tag : isRecordTag ((m.ledger deferredPda.key).data.byte 0) = false := by
      have head : (m.ledger deferredPda.key).data.byte 0 = v1DiscDeferred := by
        rw [Bytes.byte, List.getD_eq_getElem?_getD, ← List.head?_eq_getElem?,
          show (m.ledger deferredPda.key).data.head? = _ from legacy, Option.getD_some]
      rw [head]
      rfl
    have unrecorded : registry dep m.ledger deferredPda.key = none := by
      rw [registry_of_owned owned, recordData_of_not_tag tag]
    rw [← unrecorded, Function.update_eq_self]
    exact .reclaimLegacy ⟨_, deferredAt, rfl⟩ unrecorded
  · simp only [Except.bind_eq_ok] at read
    obtain ⟨_, checked, same⟩ := read
    cases Except.ok.inj same
    exact .reclaimDeferred ⟨_, deferredAt, rfl⟩ (registry_of_tag owned (isRecordTag_deferred checked)) checked
      ⟨_, refundAt, refundIs⟩ expired

end LazorKit
