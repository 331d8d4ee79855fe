import LazorKit.Proofs.ConcreteRun
import LazorKit.Proofs.Solvency
import LazorKit.Soundness.Closers

/-! # Accounts of the program stay rent-exempt

The three processors that do issue inner instructions, and whole runs: whatever the callers and the other programs
do, the runtime never finds an account of this program with data in it that it may remove.
-/

namespace LazorKit

open Solana

variable {dep : Deployment} {fr : Frame} {accounts processorAccounts : List AccountInfo} {data : Bytes}
  {discriminator : UInt8} {m m' : Machine Approval} {ledger : Ledger} {events : List Event}

theorem Foreign.solvent (foreign : Foreign dep m m') (solvent : Solvent dep m.ledger) : Solvent dep m'.ledger :=
  solvent.of_respects foreign.respects

/-- After the inner instructions a policy is rewritten in place. -/
theorem execute_tail_solvent {policy : Option PolicyLocation} {authorityPda : AccountInfo} {vault payer : Pubkey}
    {session : Option Pubkey} {ixs : List CompactInstruction} {start progress : CpiProgress} {before : BeforeCpis}
    {slot : ℕ} (owned : start.machine.owner authorityPda.key = dep.programId)
    (tag : (start.machine.data authorityPda.key).byte 0 ≠ 0 ∧
      (start.machine.data authorityPda.key).byte 0 ≠ AccountDiscriminator.treasuryShard.toByte)
    (located : ∀ loc ∈ policy, PolicyLocation.of (start.machine.data authorityPda.key) = some loc ∧
      loc.isPresent (start.machine.data authorityPda.key) = true)
    (loop : ixs.foldlM (executeTracked dep fr accounts payer vault session) start = .ok progress)
    (tail : (match policy with
      | some loc => do
        let bytes ← postCpiPhase before progress.machine.ledger accounts vault
          (progress.machine.data authorityPda.key) loc progress.grossOut slot
        progress.machine.writeData dep.toRuntime authorityPda bytes
      | none => .ok progress.machine) = .ok m') (solvent : Solvent dep start.machine.ledger) :
    Solvent dep m'.ledger := by
  have foreign := executeTracked_foldlM_foreign loop
  obtain ⟨_, kept, _⟩ := foreign.owned owned
  cases policy with
  | none =>
    cases tail
    exact foreign.solvent solvent
  | some loc =>
    simp only [Except.bind_eq_ok] at tail
    obtain ⟨bytes, phase, store⟩ := tail
    obtain ⟨stored, _, invoked⟩ := writeData_eq_ok store
    obtain ⟨found, present⟩ := located loc rfl
    rw [kept] at phase
    obtain ⟨length, same⟩ := (postCpi_policyStep found present phase).kept
    rw [← kept] at length same tag
    refine (Settles.of_stored stored invoked length (fun blank => ?_) fun shard => ?_).solvent (foreign.solvent solvent)
    · exact absurd (Bytes.byte_zero_of_isZero blank) tag.1
    · exact absurd (same.symm.trans shard) tag.2

private theorem processExecute_solvent (success : processExecute dep fr accounts data m = .ok m')
    (solvent : Solvent dep m.ledger) : Solvent dep m'.ledger := by
  simp only [processExecute, Except.bind_eq_ok, Except.ensure_eq_ok, exists_const, accountAt_eq_ok] at success
  obtain ⟨_, payer, _, _, walletPda, walletAt, authorityPda, authorityAt, vaultPda, _, ⟨_, authorityOwned⟩,
    _, _, _, _, parsed, _, ⟨approvedBy, session⟩, authentication, _, _, _, progress, loop, tail⟩ := success
  simp only [authenticateExecute] at authentication
  split at authentication
  · simp only [Except.bind_eq_ok] at authentication
    obtain ⟨_, authentication, same⟩ := authentication
    cases Except.ok.inj same
    obtain ⟨_, _, new, approval, auth, _⟩ :=
      authenticateExecuteAuthority_eq_ok walletAt authorityAt authorityOwned authentication
    have step := auth.acting.step
    have isNew : approvedBy.data authorityPda.key = new := auth.stored.data_self
    have tag := (AuthorityAccountHeader.check_eq_ok.mp (step.check_eq auth.acting.checked)).2.1
    have settled : Solvent dep approvedBy.ledger :=
      (Settles.of_authStep step auth.stored auth.invoked).solvent solvent
    refine execute_tail_solvent (by rw [auth.stored.owner, authorityOwned]) ?_ ?_ loop tail settled
    · rw [isNew, tag]
      decide
    · rw [isNew]
      exact policy_located step.length_eq (step.byte_eq (.inl (by decide))) (step.byte_eq (.inl (by decide)))
  · split at authentication
    · next tag =>
      simp only [Except.bind_eq_ok] at authentication
      obtain ⟨_, _, same⟩ := authentication
      cases Except.ok.inj same
      refine execute_tail_solvent authorityOwned ?_ (policy_located rfl rfl rfl) loop tail solvent
      change (m.data authorityPda.key).byte 0 ≠ 0 ∧ (m.data authorityPda.key).byte 0 ≠ _
      rw [tag]
      decide
    · cases authentication

private theorem processExecuteDeferred_solvent (success : processExecuteDeferred dep fr accounts data m = .ok m')
    (solvent : Solvent dep m.ledger) : Solvent dep m'.ledger := by
  simp only [processExecuteDeferred, Except.bind_eq_ok, Except.ensure_eq_ok, exists_const,
    accountAt_eq_ok] at success
  obtain ⟨_, payer, _, walletPda, _, vaultPda, _, deferredPda, _, refundDest, _, _, ⟨_, owned⟩, _, _, _, _, _, _, _,
    parsed, _, _, _, _, _, _, zeroed, zero, executed, loop, drain⟩ := success
  have foreign := executeInner_foldlM_foreign loop
  have stored := (zeroData_eq_ok zero).1
  have blank : (executed.data deferredPda.key).isZero = true := by
    rw [(foreign.owned ((stored.owner _).trans owned)).2.1, stored.data_self]
    exact Bytes.isZero_replicate _
  exact (Settles.of_drainInto blank drain).solvent (foreign.solvent ((Settles.of_zeroData zero).solvent solvent))

private theorem processMigrateWallet_solvent (success : processMigrateWallet dep fr accounts data m = .ok m')
    (solvent : Solvent dep m.ledger) : Solvent dep m'.ledger := by
  simp only [processMigrateWallet, closeProgramAccount, Except.bind_eq_ok, Except.ensure_eq_ok, exists_const,
    accountAt_eq_ok] at success
  obtain ⟨_, payer, _, v1Wallet, _, v1Authority, _, v1Vault, _, destination, _, refundDest, _, systemProgram, _, _, _,
    _, _, _, _, _, _, _, _, _, _, sources, _, approvedBy, authentication, _, moved, tokens, paid, payment, _,
    closedAuthority, ⟨_, drained, drain, zero⟩, _, drainedWallet, drainWallet, zeroWallet⟩ := success
  have foreign : Foreign dep approvedBy paid :=
    (Except.foldlM_preserves (Foreign.refl dep) (fun _ _ _ => Foreign.trans)
      (fun _ _ _ _ => migrateToken_foreign) tokens).trans (invoke_if_foreign payment)
  have closes := (Settles.of_drain_zero drain zero).trans (.of_drain_zero drainWallet zeroWallet)
  exact closes.solvent (foreign.solvent ((Settles.of_authenticate authentication rfl).solvent solvent))

/-- The instructions that issue inner instructions of their callers' choice or of their own. -/
def issuesInner (discriminator : UInt8) : Bool := discriminator = 4 ∨ discriminator = 7 ∨ discriminator = 17

/-- All others keep the program solvent and issue nothing. -/
theorem dispatch_settles (unsigned : DerivedNeverSigns dep accounts) (within : processorAccounts ⊆ accounts)
    (silent : issuesInner discriminator = false)
    (success : dispatch dep fr discriminator processorAccounts accounts data m = .ok m') : Settles dep m m' := by
  have few : DerivedNeverSigns dep processorAccounts := fun acc member => unsigned acc (within member)
  unfold dispatch at success
  split at success
  · exact processCreateWallet_settles few success
  · exact processAddAuthority_settles few success
  · exact processRemoveAuthority_settles success
  · exact processTransferOwnership_settles few success
  · cases silent
  · exact processCreateSession_settles few success
  · exact processAuthorize_settles few success
  · cases silent
  · exact processReclaimDeferred_settles success
  · exact processRevokeSession_settles success
  · exact processInitializeProtocol_settles unsigned success
  · exact processUpdateProtocol_settles success
  · exact processRegisterIntegrator_settles unsigned success
  · exact processWithdrawTreasury_settles success
  · exact processInitializeTreasuryShard_settles unsigned success
  · exact processProposeProtocolAdmin_settles success
  · exact processAcceptProtocolAdmin_settles success
  · cases silent
  · exact processCloseExpiredSession_settles success
  · cases success

private theorem dispatch_solvent (unsigned : DerivedNeverSigns dep accounts) (within : processorAccounts ⊆ accounts)
    (success : dispatch dep fr discriminator processorAccounts accounts data m = .ok m')
    (solvent : Solvent dep m.ledger) : Solvent dep m'.ledger := by
  cases silent : issuesInner discriminator with
  | false => exact (dispatch_settles unsigned within silent success).solvent solvent
  | true =>
    rcases of_decide_eq_true silent with rfl | rfl | rfl
    · exact processExecute_solvent success solvent
    · exact processExecuteDeferred_solvent success solvent
    · exact processMigrateWallet_solvent success solvent

theorem Collected.settles {call : Call} {collected : Machine Approval}
    (unsigned : DerivedNeverSigns dep call.accounts.infos) (start : Collected dep call m collected) :
    Settles dep m collected := by
  unfold Collected at start
  split at start
  · exact tryCollectFee_settles unsigned start
  · rw [start]
    exact .refl dep m

/-- The runtime takes no signature of a derived address in any call. -/
def DerivedNeverSign (dep : Deployment) (events : List Event) : Prop :=
  ∀ call, Event.call call ∈ events → DerivedNeverSigns dep call.accounts.infos

private theorem Call.execute_solvent {call : Call} (unsigned : DerivedNeverSigns dep call.accounts.infos)
    (success : call.execute dep ledger = .ok m) (solvent : Solvent dep ledger) : Solvent dep m.ledger := by
  obtain ⟨collected, start, dispatched⟩ := Call.execute_eq_ok success
  exact dispatch_solvent unsigned call.processorAccounts_subset dispatched ((start.settles unsigned).solvent solvent)

private theorem step_solvent {event : Event}
    (unsigned : ∀ call, event = .call call → DerivedNeverSigns dep call.accounts.infos)
    (solvent : Solvent dep ledger) : Solvent dep (step dep ledger event) := by
  cases event with
  | call call =>
    rw [step]
    split
    · next m outcome => exact Call.execute_solvent (unsigned call rfl) outcome solvent
    · exact solvent
  | foreign key account =>
    rw [step]
    split
    · next allowed => exact solvent.of_respects (Machine.Respects.set allowed)
    · exact solvent
  | purge key =>
    rw [step]
    split
    · exact solvent.purge
    · exact solvent

private theorem solvent_ledgerAt (solvent : Solvent dep ledger) (unsigned : DerivedNeverSign dep events) (i : ℕ) :
    Solvent dep (ledgerAt dep ledger events i) := by
  apply Run.invariant_between (P := Solvent dep) (Nat.zero_le i) solvent
  intro k event _ _ at_ here
  apply step_solvent _ here
  rintro call rfl
  exact unsigned call (List.mem_of_getElem? at_)

/-- In every state of a run, an account of this program with anything in it holds what its size requires, a
treasury shard that was swept included. So removing unfunded accounts never takes one. -/
theorem rent_exempt (solvent : Solvent dep ledger) (unsigned : DerivedNeverSign dep events) (i : ℕ) (key : Pubkey)
    (owned : (ledgerAt dep ledger events i key).owner = dep.programId)
    (set : (ledgerAt dep ledger events i key).data.isZero = false) :
    dep.rent.minimumBalance (ledgerAt dep ledger events i key).data.length ≤
        (ledgerAt dep ledger events i key).lamports ∧
      (events[i]? = some (.purge key) → ledgerAt dep ledger events (i + 1) = ledgerAt dep ledger events i) := by
  have enough := (solvent_ledgerAt solvent unsigned i key owned set).1
  refine ⟨enough, fun removed => ?_⟩
  have positive := dep.rent.minimumBalance_pos (ledgerAt dep ledger events i key).data.length
  have held : (Run.stateAt (step dep) ledger events i key).lamports ≠ 0 := by
    rw [← ledgerAt_eq]
    omega
  rw [ledgerAt_eq, Run.stateAt_succ removed, step, if_neg held, ledgerAt_eq]

namespace Sample

private theorem lookup_mem {α β : Type} [DecidableEq α] [Inhabited β] (table : List (α × β)) (key : α) :
    lookup table key ∈ default :: table.map (·.2) := by
  unfold lookup
  cases found : table.find? (·.1 = key) with
  | none => exact List.mem_cons_self
  | some entry => exact List.mem_cons_of_mem _ (List.mem_map_of_mem (List.mem_of_find?_eq_some found))

/-- The keys that sign an event. -/
def eventSigners : Event → List Pubkey
  | .call call => (call.accounts.infos.filter (·.isSigner)).map (·.key)
  | _ => []

/-- Nobody signs for an address of the table that a deployment derives from. -/
theorem derivedNeverSign_of_apart {dep : Deployment} (table : List (List Bytes × Pubkey × UInt8)) {run : List Event}
    (derives : dep.findProgramAddress = lookup table)
    (apart : ∀ event ∈ run, ∀ key ∈ eventSigners event, ∀ value ∈ default :: table.map (·.2), key ≠ value.1) :
    DerivedNeverSign dep run := by
  intro call member acc listed signs seeds
  rw [derives]
  apply apart _ member acc.key _ _ (lookup_mem table seeds)
  exact List.mem_map_of_mem (List.mem_filter.mpr ⟨listed, signs⟩)

theorem derivedNeverSign : DerivedNeverSign deployment Sample.events :=
  derivedNeverSign_of_apart derived rfl (by decide +kernel)

private theorem solvent_empty : Solvent deployment Ledger.empty := fun _ => .of_isZero rfl

end Sample

/-- The session of the sample, after it was used. -/
theorem rent_exempt_sample :
    Sample.deployment.rent.minimumBalance
        (ledgerAt Sample.deployment Ledger.empty Sample.events 11 Sample.session).data.length ≤
      (ledgerAt Sample.deployment Ledger.empty Sample.events 11 Sample.session).lamports :=
  (rent_exempt Sample.solvent_empty Sample.derivedNeverSign 11 Sample.session (by decide +kernel) (by decide +kernel)).1

end LazorKit
