import LazorKit.Model.TokenProgram
import LazorKit.Proofs.Layout

/-! # The token programs keep to their documentation

What a token account with another amount still is, and that the implementation of the three instructions leaves
what the relations of the model say.
-/

namespace LazorKit

open Solana Balances

section Accounts

variable {account : Account} {amount lamports : ℕ}

theorem tokenAmount_lt (account : Account) : tokenAmount account < 2 ^ 64 := Bytes.toNatLE_slice_lt

private theorem amount_fits (long : tokenAccountLen ≤ account.data.length) (amount : ℕ) :
    tokenAmountOffset + (Bytes.ofNatLE 8 amount).length ≤ account.data.length := by
  rw [Bytes.length_ofNatLE]
  exact le_trans (by decide) long

private theorem length_withTokens (long : tokenAccountLen ≤ account.data.length) :
    (withTokens account amount lamports).data.length = account.data.length :=
  Bytes.length_splice (amount_fits long amount)

private theorem tokenIdentity_withTokens (long : tokenAccountLen ≤ account.data.length) :
    tokenIdentity (withTokens account amount lamports) = tokenIdentity account :=
  Bytes.slice_splice_of_disjoint (amount_fits long amount) (.inl (by decide))

private theorem tokenAmount_withTokens (long : tokenAccountLen ≤ account.data.length) (bound : amount < 2 ^ 64) :
    tokenAmount (withTokens account amount lamports) = amount := by
  rw [tokenAmount, tokenField, withTokens,
    Bytes.slice_splice_self (amount_fits long amount) (Bytes.length_ofNatLE 8 amount).symm,
    Bytes.toNatLE_ofNatLE_of_lt bound]

end Accounts

section Implementation

variable {rt : Runtime} {fr : Frame} {before after : Ledger} {program source mint dest account refund target
  authority : Pubkey} {amount : ℕ} {decimals : UInt8}

/-- Two different accounts replaced one after the other. -/
theorem set_set_apply {first second : Pubkey} (distinct : first ≠ second) (ledger : Ledger) (one two : Account)
    (key : Pubkey) : ((ledger.set first one).set second two) key =
      if key = first then one else if key = second then two else ledger key := by
  rw [Ledger.set_apply, Ledger.set_apply]
  split
  · next isSecond => rw [if_neg (isSecond ▸ distinct.symm)]
  · rfl

private theorem splPrograms_transferChecked (token : isTokenProgram program) (bound : amount < 2 ^ 64) :
    splPrograms (transferCheckedIx program source mint dest authority amount decimals) before =
      transferChecked before program source mint dest authority amount decimals := by
  let data : Bytes := splTransferChecked :: Bytes.ofNatLE 8 amount ++ [decimals]
  have tag : data.byte 0 = splTransferChecked := rfl
  have sent : (data.slice 1 8).toNatLE = amount := by
    rw [show data.slice 1 8 = Bytes.ofNatLE 8 amount from
      @Bytes.slice_middle [splTransferChecked] _ _ _ _ rfl (Bytes.length_ofNatLE 8 amount)]
    exact Bytes.toNatLE_ofNatLE_of_lt (bound.trans_le (by decide))
  have last : data.byte 9 = decimals :=
    Bytes.byte_append (by rw [List.length_cons, Bytes.length_ofNatLE])
  change (if isTokenProgram program ∧ data.byte 0 = splTransferChecked then
    transferChecked before program source mint dest authority (data.slice 1 8).toNatLE (data.byte 9) else none) = _
  rw [if_pos ⟨token, tag⟩, sent, last]

private theorem splPrograms_closeAccount (token : isTokenProgram program) :
    splPrograms (closeAccountIx program account refund authority) before =
      closeAccount before program account refund authority := if_pos ⟨token, rfl⟩

private theorem splPrograms_systemTransfer : splPrograms (systemTransferIx source target amount) before =
    systemTransfer before source target (amount % 2 ^ 64) := by
  have sent : ((Bytes.ofNatLE 4 2 ++ Bytes.ofNatLE 8 amount).slice 4 8).toNatLE = amount % 2 ^ 64 := by
    have whole : (Bytes.ofNatLE 8 amount).slice 0 8 = Bytes.ofNatLE 8 amount := by
      rw [Bytes.slice, List.drop_zero, List.take_of_length_le (Bytes.length_ofNatLE 8 amount).le]
    rw [Bytes.slice_append_right (by rw [Bytes.length_ofNatLE]), Bytes.length_ofNatLE, Nat.sub_self, whole]
    exact Bytes.toNatLE_ofNatLE 8 amount
  have tag : (Bytes.ofNatLE 4 2 ++ Bytes.ofNatLE 8 amount).slice 0 4 = [2, 0, 0, 0] := rfl
  change (if systemProgram = systemProgram ∧ (Bytes.ofNatLE 4 2 ++ Bytes.ofNatLE 8 amount).slice 0 4 = [2, 0, 0, 0] then
    systemTransfer before source target ((Bytes.ofNatLE 4 2 ++ Bytes.ofNatLE 8 amount).slice 4 8).toNatLE else none) = _
  rw [if_pos ⟨rfl, tag⟩, sent]

private theorem transferChecked_moved {changes : List (Pubkey × Account)}
    (success : transferChecked before program source mint dest authority amount decimals = some changes) :
    TokenMoved before (changes.foldl (fun ledger change => ledger.set change.1 change.2) before)
      source dest amount := by
  unfold transferChecked at success
  split at success
  · next valid =>
    obtain ⟨_, _, _, longSource, longDest, _, _, _, _, enough, fits, backed⟩ := valid
    split at success
    · next same =>
      cases Option.some.inj success
      subst same
      exact ⟨fun _ => rfl, fun _ => rfl, fun _ => rfl, fun _ _ _ => rfl, fun _ => rfl, fun _ => rfl⟩
    · next distinct =>
      cases Option.some.inj success
      have result := set_set_apply distinct before
      simp only [List.foldl_cons, List.foldl_nil]
      refine ⟨fun key => ?_, fun key => ?_, fun key => ?_, fun key notSource notDest => ?_, ?_, ?_⟩
      · rw [result]
        split_ifs with isSource isDest
        · rw [isSource]; rfl
        · rw [isDest]; rfl
        · rfl
      · rw [result]
        split_ifs with isSource isDest
        · rw [isSource, length_withTokens longSource]
        · rw [isDest, length_withTokens longDest]
        · rfl
      · rw [result]
        split_ifs with isSource isDest
        · rw [isSource, tokenIdentity_withTokens longSource]
        · rw [isDest, tokenIdentity_withTokens longDest]
        · rfl
      · rw [result, if_neg notSource, if_neg notDest]
      · apply Transfers.of_apply distinct enough
        intro key
        rw [result]
        split_ifs with isSource isDest
        · exact tokenAmount_withTokens longSource ((Nat.sub_le ..).trans_lt (tokenAmount_lt _))
        · exact tokenAmount_withTokens longDest fits
        · rfl
      · apply Transfers.of_apply distinct backed
        intro key
        rw [Ledger.balances, result]
        split_ifs <;> rfl
  · cases success

private theorem closeAccount_closed {changes : List (Pubkey × Account)}
    (success : closeAccount before program account refund authority = some changes) :
    TokenClosed before (changes.foldl (fun ledger change => ledger.set change.1 change.2) before) account refund := by
  unfold closeAccount at success
  split at success
  · next valid =>
    have distinct := valid.1
    cases Option.some.inj success
    have result := set_set_apply distinct.symm before
    simp only [List.foldl_cons, List.foldl_nil]
    refine ⟨distinct, Ledger.set_self .., fun key other => ?_, fun key other => ?_, ?_⟩
    · rw [result, if_neg other]
      split_ifs with isRefund
      · rw [isRefund]
      · rfl
    · rw [result, if_neg other]
      split_ifs with isRefund
      · rw [isRefund]
      · rfl
    · apply Transfers.of_apply distinct (le_refl _)
      intro key
      rw [Ledger.balances, result]
      split_ifs with isRefund isAccount isAccount
      · exact absurd (isAccount.symm.trans isRefund) distinct
      · rfl
      · exact (Nat.sub_self _).symm
      · rfl
  · cases success

private theorem systemTransfer_moved {changes : List (Pubkey × Account)}
    (success : systemTransfer before source target amount = some changes) :
    SystemMoved before (changes.foldl (fun ledger change => ledger.set change.1 change.2) before) source target
      amount := by
  unfold systemTransfer at success
  split at success
  · next valid =>
    obtain ⟨_, _, enough⟩ := valid
    split at success
    · next same =>
      cases Option.some.inj success
      subst same
      exact ⟨fun _ => rfl, fun _ => rfl, fun _ => rfl⟩
    · next distinct =>
      cases Option.some.inj success
      have result := set_set_apply distinct before
      simp only [List.foldl_cons, List.foldl_nil]
      refine ⟨fun key => ?_, fun key => ?_, ?_⟩
      · rw [result]
        split_ifs with isSource isTarget
        · rw [isSource]
        · rw [isTarget]
        · rfl
      · rw [result]
        split_ifs with isSource isTarget
        · rw [isSource]
        · rw [isTarget]
        · rfl
      · apply Transfers.of_apply distinct enough
        intro key
        rw [Ledger.balances, result]
        split_ifs <;> rfl
  · cases success

/-- The implementation behaves as documented, and takes no fee of any mint. -/
theorem movesTokens_splPrograms (invoke : fr.invoke = splPrograms) : MovesTokens rt fr Set.univ where
  transferChecked token bound _ performed := by
    obtain ⟨changes, issued, applied⟩ := performed
    rw [invoke, splPrograms_transferChecked token bound] at issued
    rw [Machine.applyChanges_eq applied]
    exact transferChecked_moved issued
  closeAccount token performed := by
    obtain ⟨changes, issued, applied⟩ := performed
    rw [invoke, splPrograms_closeAccount token] at issued
    rw [Machine.applyChanges_eq applied]
    exact closeAccount_closed issued
  systemTransfer performed := by
    obtain ⟨changes, issued, applied⟩ := performed
    rw [invoke, splPrograms_systemTransfer] at issued
    rw [Machine.applyChanges_eq applied]
    exact systemTransfer_moved issued

end Implementation

end LazorKit
