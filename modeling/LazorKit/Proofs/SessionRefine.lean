import LazorKit.Proofs.Transition

/-! # CreateSession, RevokeSession and CloseExpiredSession refine the protocol -/

namespace LazorKit

open Solana

variable {dep : Deployment} {fr : Frame} {accounts : List AccountInfo} {data : Bytes}
  {m m' : Machine Approval}

private theorem recordData_newSessionBytes (bump : UInt8) (wallet : Pubkey) (args : ParsedCreateSessionArgs) :
    recordData (newSessionBytes bump wallet args) = some (newSessionBytes bump wallet args) :=
  recordData_of_tag rfl

theorem isRecordTag_session {bytes : Bytes} (tag : bytes.byte 0 = AccountDiscriminator.session.toByte) :
    isRecordTag (bytes.byte 0) = true := by
  rw [tag]
  rfl

theorem processCreateSession_refines (success : processCreateSession dep fr accounts data m = .ok m') :
    Refines dep fr accounts data 5 m m' := by
  simp only [processCreateSession, Except.bind_eq_ok, Except.ensure_eq_ok, exists_const, accountAt_eq_ok,
    checkZeroData] at success
  obtain ⟨args, parsed, payer, payerAt, _, walletPda, walletAt, authorizerPda, authorizerAt, sessionPda, _,
    systemProgram, _, rentSysvar, _, rent, _, _, ⟨walletOwned, authorizerOwned⟩, _, walletChecked, _, authorizerChecked,
    ofWallet, rank, unbounded, future, duration, approvedBy, authentication, address, _, made, creation, store⟩ :=
      success
  obtain ⟨new, approval, auth⟩ :=
    authenticated_of_checks walletAt authorizerAt authorizerOwned authorizerChecked ofWallet rfl authentication
  have created := initializePdaAccount_eq_ok creation (rent.minimumBalance_pos _)
  obtain ⟨stored, approved, _⟩ := writeData_eq_ok store
  have unrecorded := created.wasUnrecorded
  rw [auth.registry] at unrecorded
  obtain ⟨_, fresh⟩ := fresh_of_update unrecorded
  rw [created.data_self, SessionAccount.write_fresh (by simp)] at stored
  replace stored : Stored made m' sessionPda.key (newSessionBytes
    (dep.findProgramAddress [Seeds.session, walletPda.key.bytes, args.sessionKey.bytes]).2 walletPda.key args) :=
    stored
  refine ⟨[approval], ?_, ?_, fun funded => ?_⟩
  · rw [stored.registry created.owner_self, created.registry, auth.registry, recordData_newSessionBytes]
    exact .createSession parsed (walletRecord_of_check walletOwned walletChecked) auth.acting rank unbounded
      future duration address fresh ⟨_, payerAt, rfl⟩
  · rw [approved, created.approved, auth.approved]
  · exact stored.funded created.positive (created.funded (auth.funded funded))

theorem processRevokeSession_refines (success : processRevokeSession dep fr accounts data m = .ok m') :
    Refines dep fr accounts data 9 m m' := by
  simp only [processRevokeSession, Except.bind_eq_ok, Except.ensure_eq_ok, exists_const, accountAt_eq_ok,
    Except.mapError_eq_ok] at success
  obtain ⟨payer, _, walletPda, walletAt, adminAuthPda, adminAt, sessionPda, sessionAt, refundDest, refundAt, _,
    ⟨walletOwned, adminOwned, sessionOwned⟩, _, walletChecked, _, _, adminChecked, ofWallet, rank, approvedBy,
    authentication, _, sessionChecked, sessionOfWallet, _, zeroed, zero, drain⟩ := success
  obtain ⟨new, approval, auth⟩ := authenticated_of_checks walletAt adminAt adminOwned adminChecked ofWallet rfl
    authentication
  have sessionKept : approvedBy.data sessionPda.key = m.data sessionPda.key := by
    apply auth.stored.data_of_ne
    intro same
    have tag := (SessionAccount.check_eq_ok.mp sessionChecked).2.1
    rw [same, auth.stored.data_self] at tag
    rw [(AuthorityAccountHeader.check_eq_ok.mp (auth.acting.step.check_eq adminChecked)).2.1] at tag
    exact absurd tag (by decide)
  rw [sessionKept] at sessionChecked sessionOfWallet
  have stillOwned : approvedBy.owner sessionPda.key = dep.programId := by rw [auth.stored.owner, sessionOwned]
  have closed := closed_of_zero_drain stillOwned zero drain
  refine ⟨[approval], ?_, ?_, fun funded => closed.funded (auth.funded funded)⟩
  · rw [closed.registry, auth.registry]
    exact .revokeSession (walletRecord_of_check walletOwned walletChecked) auth.acting rank
      (registry_of_tag sessionOwned (isRecordTag_session (SessionAccount.check_eq_ok.mp sessionChecked).2.1))
      sessionChecked sessionOfWallet ⟨_, sessionAt, rfl⟩ ⟨_, refundAt, rfl⟩
  · rw [closed.approved, auth.approved]

/-- Closing a v1 session touches no record: its tag is none of theirs. -/
theorem processCloseExpiredSession_refines
    (success : processCloseExpiredSession dep fr accounts m = .ok m') :
    Refines dep fr accounts data 18 m m' := by
  simp only [processCloseExpiredSession, Except.bind_eq_ok, Except.ensure_eq_ok, exists_const,
    accountAt_eq_ok] at success
  obtain ⟨caller, _, sessionPda, sessionAt, refundDest, _, _, _, owned, _, tag, expired, zeroed, zero, drain⟩ :=
    success
  have closed := closed_of_zero_drain owned zero drain
  refine ⟨[], ?_, by rw [closed.approved, List.append_nil], closed.funded⟩
  rw [closed.registry]
  cases tag with
  | inl legacy =>
    have unrecorded : registry dep m.ledger sessionPda.key = none := by
      rw [registry_of_owned owned]
      exact recordData_of_not_tag (by rw [show (m.ledger sessionPda.key).data.byte 0 = _ from legacy]; rfl)
    rw [← unrecorded, Function.update_eq_self]
    exact .closeLegacy ⟨_, sessionAt, rfl⟩ unrecorded
  | inr current =>
    exact .closeExpiredSession ⟨_, sessionAt, rfl⟩ (registry_of_tag owned (isRecordTag_session current)) current expired

end LazorKit
