import LazorKit.Model.Execute
import Mathlib.Algebra.BigOperators.Group.Finset.Basic
import Mathlib.Algebra.Order.BigOperators.Group.Finset

/-! # The vault's token accounts, before and after

The snapshot walks a list in which accounts may repeat. Here it is read as a set: the distinct writable
token accounts of the vault. The two passes over it afterwards say that each of them was kept and that
no newcomer carries a delegate or a close authority, and the flows are each mint's balance over the set.
-/

namespace LazorKit

open Solana

/-- The distinct writable token accounts of the vault in an account list. -/
def vaultTokens (ledger : Ledger) (accounts : List AccountInfo) (vaultKey : Pubkey) : Finset Pubkey :=
  ((accounts.filter (isSnapshotCandidate ledger vaultKey)).map (·.key)).toFinset

theorem mem_vaultTokens {ledger : Ledger} {accounts : List AccountInfo} {vaultKey key : Pubkey} :
    key ∈ vaultTokens ledger accounts vaultKey ↔
      ∃ acc ∈ accounts, isSnapshotCandidate ledger vaultKey acc = true ∧ acc.key = key := by
  simp [vaultTokens, and_assoc]

/-- Where entries of one key are one entry, an account is in the set exactly when it is a candidate. -/
theorem key_mem_vaultTokens {ledger : Ledger} {accounts : AccountList} {vaultKey : Pubkey} {acc : AccountInfo}
    (listed : acc ∈ accounts.infos) :
    acc.key ∈ vaultTokens ledger accounts.infos vaultKey ↔ isSnapshotCandidate ledger vaultKey acc = true := by
  rw [mem_vaultTokens]
  constructor
  · rintro ⟨other, member, candidate, same⟩
    rwa [accounts.repeats_agree _ member _ listed same] at candidate
  · intro candidate
    exact ⟨acc, listed, candidate, rfl⟩

section Positions

variable {ledger : Ledger} {vaultKey : Pubkey} {found entries : List (AccountInfo × ℕ)}

private theorem subset_findSnapshotPositions : found ⊆ findSnapshotPositions ledger vaultKey found entries := by
  induction entries generalizing found with
  | nil => exact List.Subset.refl _
  | cons entry rest ih =>
    rw [findSnapshotPositions]
    split
    · exact ih
    · exact List.Subset.trans (List.subset_append_left ..) ih

/-- Every position found holds a candidate of the list. -/
theorem mem_of_mem_findSnapshotPositions {entry : AccountInfo × ℕ}
    (member : entry ∈ findSnapshotPositions ledger vaultKey found entries) :
    entry ∈ found ∨ entry ∈ entries ∧ isSnapshotCandidate ledger vaultKey entry.1 = true := by
  induction entries generalizing found with
  | nil => exact .inl member
  | cons first rest ih =>
    rw [findSnapshotPositions] at member
    split at member
    · exact (ih member).imp_right fun later => ⟨List.mem_cons_of_mem _ later.1, later.2⟩
    · next fresh =>
      rcases ih member with early | later
      · rcases List.mem_append.mp early with early | own
        · exact .inl early
        · cases List.mem_singleton.mp own
          refine .inr ⟨List.mem_cons_self .., ?_⟩
          by_contra other
          exact fresh (.inl (Bool.eq_false_of_not_eq_true other))
      · exact .inr ⟨List.mem_cons_of_mem _ later.1, later.2⟩

/-- No key is found twice. -/
theorem findSnapshotPositions_nodup (distinct : (found.map (·.1.key)).Nodup) :
    ((findSnapshotPositions ledger vaultKey found entries).map (·.1.key)).Nodup := by
  induction entries generalizing found with
  | nil => exact distinct
  | cons entry rest ih =>
    rw [findSnapshotPositions]
    split
    · exact ih distinct
    · next fresh =>
      apply ih
      rw [List.map_append, List.map_singleton]
      refine List.nodup_append.mpr ⟨distinct, List.nodup_singleton _, ?_⟩
      rintro key member _ own rfl
      obtain ⟨other, early, rfl⟩ := List.mem_map.mp member
      exact fresh (.inr (List.any_eq_true.mpr ⟨other, early, by simpa using List.mem_singleton.mp own⟩))

/-- Every candidate's key is found. -/
theorem exists_mem_findSnapshotPositions (found : List (AccountInfo × ℕ)) {entry : AccountInfo × ℕ}
    (listed : entry ∈ entries) (candidate : isSnapshotCandidate ledger vaultKey entry.1 = true) :
    ∃ other ∈ findSnapshotPositions ledger vaultKey found entries, other.1.key = entry.1.key := by
  induction entries generalizing found with
  | nil => cases listed
  | cons first rest ih =>
    rw [findSnapshotPositions]
    cases listed with
    | tail _ later =>
      split
      · exact ih _ later
      · exact ih _ later
    | head =>
      split
      · next skipped =>
        rcases skipped with other | early
        · rw [candidate] at other
          cases other
        · obtain ⟨other, member, same⟩ := List.any_eq_true.mp early
          exact ⟨other, subset_findSnapshotPositions member, by simpa using same⟩
      · exact ⟨entry, subset_findSnapshotPositions (by simp), rfl⟩

/-- The first entry of a candidate's key is the one found. -/
theorem mem_findSnapshotPositions_of_first {left right : List (AccountInfo × ℕ)} {entry : AccountInfo × ℕ}
    (candidate : isSnapshotCandidate ledger vaultKey entry.1 = true)
    (first : ∀ other ∈ found ++ left, other.1.key ≠ entry.1.key) :
    entry ∈ findSnapshotPositions ledger vaultKey found (left ++ entry :: right) := by
  induction left generalizing found with
  | nil =>
    rw [List.nil_append, findSnapshotPositions, if_neg]
    · exact subset_findSnapshotPositions (by simp)
    · rintro (other | early)
      · rw [candidate] at other
        cases other
      · obtain ⟨other, member, same⟩ := List.any_eq_true.mp early
        exact first other (by simpa using member) (by simpa using same)
  | cons head tail ih =>
    rw [List.cons_append, findSnapshotPositions]
    split
    · exact ih fun other member => first other (by
        rcases List.mem_append.mp member with early | late
        · exact List.mem_append_left _ early
        · exact List.mem_append_right _ (List.mem_cons_of_mem _ late))
    · exact ih fun other member => first other (by simpa using member)

end Positions

section Snapshots

variable {ledger : Ledger} {accounts : AccountList} {vaultKey : Pubkey}

/-- The copies are of the accounts of the set, each once. -/
theorem snapshotVaultTokenAccounts_keys (ledger : Ledger) (accounts : List AccountInfo) (vaultKey : Pubkey) :
    ∃ keys : List Pubkey, keys.Nodup ∧ keys.toFinset = vaultTokens ledger accounts vaultKey ∧
      ((snapshotVaultTokenAccounts ledger accounts vaultKey).map (·.key)) = keys := by
  refine ⟨_, ?_, ?_, rfl⟩
  · have distinct : ((findSnapshotPositions ledger vaultKey [] accounts.zipIdx).map (·.1.key)).Nodup :=
      findSnapshotPositions_nodup List.nodup_nil
    simpa [snapshotVaultTokenAccounts, takeSnapshot, Function.comp_def] using distinct
  · ext key
    simp only [snapshotVaultTokenAccounts, List.mem_toFinset, List.mem_map, mem_vaultTokens]
    constructor
    · rintro ⟨_, ⟨entry, member, rfl⟩, rfl⟩
      rcases mem_of_mem_findSnapshotPositions member with early | ⟨listed, candidate⟩
      · cases early
      · exact ⟨entry.1, List.fst_mem_of_mem_zipIdx listed, candidate, rfl⟩
    · rintro ⟨acc, listed, candidate, rfl⟩
      obtain ⟨index, at_⟩ := List.mem_iff_getElem?.mp listed
      obtain ⟨entry, member, same⟩ := exists_mem_findSnapshotPositions []
        (List.mem_zipIdx_iff_getElem?.mpr at_ : (acc, index) ∈ accounts.zipIdx) candidate
      exact ⟨_, ⟨entry, member, rfl⟩, same⟩

/-- The copy taken of one account. -/
theorem mem_snapshotVaultTokenAccounts {snap : VaultTokenSnapshot} {accounts : List AccountInfo}
    (member : snap ∈ snapshotVaultTokenAccounts ledger accounts vaultKey) :
    snap.dataLen = (ledger snap.key).data.length ∧ snap.lamports = (ledger snap.key).lamports ∧
      snap.base = (ledger snap.key).data.slice 0 tokenAccountLen := by
  obtain ⟨entry, _, rfl⟩ := List.mem_map.mp member
  exact ⟨rfl, rfl, rfl⟩

/-- Every listed account stands at a position that repeats no earlier one. -/
theorem exists_first_position {acc : AccountInfo} (listed : acc ∈ accounts.infos) :
    ∃ index, (acc, index) ∈ accounts.infos.zipIdx ∧ repeatsEarlier accounts.infos index acc = false := by
  refine ⟨accounts.infos.findIdx (·.key = acc.key), ?_, ?_⟩
  · rw [List.mem_zipIdx_iff_getElem?]
    have bound : accounts.infos.findIdx (·.key = acc.key) < accounts.infos.length :=
      List.findIdx_lt_length_of_exists ⟨acc, listed, by simp⟩
    have same := List.findIdx_getElem (w := bound)
    rw [List.getElem?_eq_getElem bound]
    exact congrArg some (accounts.repeats_agree _ (List.getElem_mem bound) _ listed (by simpa using same))
  · rw [repeatsEarlier, List.any_eq_false]
    intro other early
    obtain ⟨i, bound, rfl⟩ := List.mem_iff_getElem.mp early
    have early : i < accounts.infos.findIdx (·.key = acc.key) :=
      lt_of_lt_of_le bound (by rw [List.length_take]; exact Nat.min_le_left ..)
    rw [List.getElem_take]
    exact ne_true_of_eq_false (List.not_of_lt_findIdx early)

/-- A position that does not repeat an earlier one was copied exactly when it held a candidate. -/
theorem any_index_snapshot {acc : AccountInfo} {index : ℕ} (at_ : (acc, index) ∈ accounts.infos.zipIdx)
    (first : repeatsEarlier accounts.infos index acc = false) :
    (snapshotVaultTokenAccounts ledger accounts.infos vaultKey).any (·.index = index) = true ↔
      isSnapshotCandidate ledger vaultKey acc = true := by
  have listed := List.mem_zipIdx_iff_getElem?.mp at_
  simp only [snapshotVaultTokenAccounts, List.any_map, List.any_eq_true, Function.comp_apply, decide_eq_true_eq]
  constructor
  · rintro ⟨entry, member, same⟩
    rcases mem_of_mem_findSnapshotPositions member with early | ⟨elsewhere, candidate⟩
    · cases early
    · have again := List.mem_zipIdx_iff_getElem?.mp elsewhere
      rw [show entry.2 = index from same, listed] at again
      rwa [← Option.some.inj again] at candidate
  · intro candidate
    refine ⟨(acc, index), ?_, rfl⟩
    obtain ⟨bound, value⟩ := List.getElem?_eq_some_iff.mp listed
    have parts : accounts.infos.zipIdx =
        (accounts.infos.take index).zipIdx ++ (acc, index) :: (accounts.infos.drop (index + 1)).zipIdx (index + 1) := by
      conv_lhs => rw [← List.take_append_drop index accounts.infos, List.drop_eq_getElem_cons bound]
      rw [List.zipIdx_append, List.zipIdx_cons, List.length_take, Nat.min_eq_left bound.le, value, Nat.zero_add]
    rw [parts]
    apply mem_findSnapshotPositions_of_first candidate
    intro other member same
    have early := List.fst_mem_of_mem_zipIdx (by simpa using member)
    rw [repeatsEarlier, List.any_eq_false] at first
    exact first other.1 early (by simpa using same)

end Snapshots

/-- A token account kept: everything but its balance is as it was, except that `delegated_amount` may
have fallen, and its lamports fell only with the `amount` of a native account. -/
structure TokenKept (before after : Account) : Prop where
  token : isTokenAccount after.owner after.data = true
  length : after.data.length = before.data.length
  funded : after.lamports ≠ 0
  fields : ∀ i < tokenAccountLen, ¬(tokenAmountOffset ≤ i ∧ i < tokenAmountOffset + 8) →
    ¬(tokenDelegatedAmountOffset ≤ i ∧ i < tokenDelegatedAmountOffset + 8) → after.data[i]? = before.data[i]?
  delegatedAmount : tokenField after.data tokenDelegatedAmountOffset ≤ tokenField before.data tokenDelegatedAmountOffset
  lamports : after.lamports < before.lamports → before.data.slice tokenIsNativeOffset 4 ≠ [0, 0, 0, 0] ∧
    before.lamports - after.lamports ≤
      tokenField before.data tokenAmountOffset - tokenField after.data tokenAmountOffset

/-- No delegate and no close authority. -/
def Uncontrolled (account : Account) : Prop :=
  account.data.slice tokenDelegateOffset 4 = [0, 0, 0, 0] ∧
    account.data.slice tokenCloseAuthorityOffset 4 = [0, 0, 0, 0]

/-- A window inside a copied part is the window of the original. -/
theorem slice_slice_zero {bytes : Bytes} {offset count total : ℕ} (inside : offset + count ≤ total) :
    (bytes.slice 0 total).slice offset count = bytes.slice offset count := by
  rw [Bytes.slice_slice inside, Nat.zero_add]

theorem tokenField_base {bytes : Bytes} {offset : ℕ} (inside : offset + 8 ≤ tokenAccountLen) :
    tokenField (bytes.slice 0 tokenAccountLen) offset = tokenField bytes offset := by
  rw [tokenField, slice_slice_zero inside, tokenField]

/-- Equal windows are equal byte by byte. -/
theorem slice_eq_iff {first second : Bytes} {offset count : ℕ} :
    first.slice offset count = second.slice offset count ↔
      ∀ i, offset ≤ i → i < offset + count → first[i]? = second[i]? := by
  refine ⟨fun same i low high => ?_, Bytes.slice_congr⟩
  have at_ := congrArg (·[i - offset]?) same
  simp only [Bytes.getElem?_slice] at at_
  rwa [if_pos (by omega), if_pos (by omega), Nat.add_sub_cancel' low] at at_

private theorem baseUnchangedExceptBalance_iff {before after : Bytes} (long : tokenAccountLen ≤ after.length) :
    baseUnchangedExceptBalance (before.slice 0 tokenAccountLen) after = true ↔
      (∀ i < tokenAccountLen, ¬(tokenAmountOffset ≤ i ∧ i < tokenAmountOffset + 8) →
        ¬(tokenDelegatedAmountOffset ≤ i ∧ i < tokenDelegatedAmountOffset + 8) → after[i]? = before[i]?) ∧
      tokenField after tokenDelegatedAmountOffset ≤ tokenField before tokenDelegatedAmountOffset := by
  rw [baseUnchangedExceptBalance, if_neg (by omega), decide_eq_true_eq, tokenField_base (by decide),
    slice_slice_zero (by decide), slice_slice_zero (by decide), slice_slice_zero (by decide), slice_eq_iff,
    slice_eq_iff, slice_eq_iff]
  simp only [tokenAccountLen, tokenAmountOffset, tokenDelegateOffset, tokenDelegatedAmountOffset,
    tokenCloseAuthorityOffset]
  constructor
  · rintro ⟨head, middle, tail, fell⟩
    refine ⟨fun i bound amount delegated => ?_, fell⟩
    rcases Nat.lt_or_ge i 64 with low | low
    · exact head i (by omega) (by omega)
    · rcases Nat.lt_or_ge i 121 with mid | mid
      · exact middle i (by omega) (by omega)
      · exact tail i (by omega) (by omega)
  · rintro ⟨same, fell⟩
    exact ⟨fun i _ high => same i (by omega) (by omega) (by omega),
      fun i _ high => same i (by omega) (by omega) (by omega),
      fun i _ high => same i (by omega) (by omega) (by omega), fell⟩

private theorem lamportsKept_iff {before after : Bytes} {had has : ℕ} :
    lamportsKept had (before.slice 0 tokenAccountLen) has after = true ↔
      (has < had → before.slice tokenIsNativeOffset 4 ≠ [0, 0, 0, 0] ∧
        had - has ≤ tokenField before tokenAmountOffset - tokenField after tokenAmountOffset) := by
  rw [lamportsKept, tokenField_base (by decide), slice_slice_zero (by decide)]
  split
  · next kept =>
    exact iff_of_true rfl fun fell => absurd kept (by omega)
  · next fell =>
    rw [decide_eq_true_eq]
    exact ⟨fun kept _ => kept, fun kept => kept (by omega)⟩

theorem isTokenAccount_length {program : Pubkey} {data : Bytes} (token : isTokenAccount program data = true) :
    tokenAccountLen ≤ data.length := by
  by_contra short
  rw [isTokenAccount, if_pos (.inl (by omega))] at token
  cases token

private theorem verifySnapshot_eq_ok {before after : Ledger} {snap : VaultTokenSnapshot}
    (copied : snap.dataLen = (before snap.key).data.length ∧ snap.lamports = (before snap.key).lamports ∧
      snap.base = (before snap.key).data.slice 0 tokenAccountLen) :
    verifySnapshot after snap = .ok () ↔ TokenKept (before snap.key) (after snap.key) := by
  obtain ⟨dataLen, lamports, base⟩ := copied
  rw [verifySnapshot, Except.ensure_eq_ok, dataLen, lamports, base, lamportsKept_iff]
  constructor
  · rintro ⟨funded, length, token, unchanged, kept⟩
    obtain ⟨fields, delegated⟩ := (baseUnchangedExceptBalance_iff (isTokenAccount_length token)).mp unchanged
    exact ⟨token, length, funded, fields, delegated, kept⟩
  · rintro ⟨token, length, funded, fields, delegated, kept⟩
    exact ⟨funded, length, token,
      (baseUnchangedExceptBalance_iff (isTokenAccount_length token)).mpr ⟨fields, delegated⟩, kept⟩

/-- The second pass: what becomes the vault's token account is uncontrolled. -/
theorem verifyNewcomers_eq_ok {before after : Ledger} {accounts : AccountList} {vaultKey : Pubkey} :
    (∀ entry ∈ accounts.infos.zipIdx, verifyNewcomer after
        (snapshotVaultTokenAccounts before accounts.infos vaultKey) accounts.infos vaultKey entry = .ok ()) ↔
      ∀ key ∈ vaultTokens after accounts.infos vaultKey \ vaultTokens before accounts.infos vaultKey,
        Uncontrolled (after key) := by
  constructor
  · intro checks key newcomer
    obtain ⟨now, earlier⟩ := Finset.mem_sdiff.mp newcomer
    obtain ⟨acc, listed, candidate, rfl⟩ := mem_vaultTokens.mp now
    obtain ⟨index, at_, first⟩ := exists_first_position listed
    have check := checks _ at_
    rw [key_mem_vaultTokens listed, ← any_index_snapshot at_ first] at earlier
    rw [verifyNewcomer, if_neg (by simp [candidate]), if_neg (by simp [first, earlier]), Except.ensure_eq_ok] at check
    exact check
  · rintro newcomers ⟨acc, index⟩ at_
    have listed := List.fst_mem_of_mem_zipIdx at_
    rw [verifyNewcomer]
    split
    · rfl
    · next candidate =>
      split
      · rfl
      · next fresh =>
        rw [not_or, Bool.not_eq_true, Bool.not_eq_true] at fresh
        refine Except.ensure_of (newcomers acc.key (Finset.mem_sdiff.mpr ⟨?_, ?_⟩))
        · exact (key_mem_vaultTokens listed).mpr (by simpa using candidate)
        · rw [key_mem_vaultTokens listed, ← any_index_snapshot at_ fresh.2, fresh.1]
          decide

theorem verifyVaultTokenAccounts_eq_ok {before after : Ledger} {accounts : AccountList} {vaultKey : Pubkey} :
    verifyVaultTokenAccounts after (snapshotVaultTokenAccounts before accounts.infos vaultKey) accounts.infos
        vaultKey = .ok () ↔
      (∀ key ∈ vaultTokens before accounts.infos vaultKey, TokenKept (before key) (after key)) ∧
      ∀ key ∈ vaultTokens after accounts.infos vaultKey \ vaultTokens before accounts.infos vaultKey,
        Uncontrolled (after key) := by
  obtain ⟨keys, _, set, copied⟩ := snapshotVaultTokenAccounts_keys before accounts.infos vaultKey
  have copies : (∀ snap ∈ snapshotVaultTokenAccounts before accounts.infos vaultKey,
        verifySnapshot after snap = .ok ()) ↔
      ∀ key ∈ vaultTokens before accounts.infos vaultKey, TokenKept (before key) (after key) := by
    subst copied
    rw [← set]
    simp only [List.mem_toFinset, List.forall_mem_map]
    exact forall₂_congr fun snap member => verifySnapshot_eq_ok (mem_snapshotVaultTokenAccounts member)
  rw [verifyVaultTokenAccounts, Except.bind_eq_ok, ← verifyNewcomers_eq_ok, ← copies]
  constructor
  · rintro ⟨_, first, second⟩
    exact ⟨Except.forM_eq_ok.mp first, Except.forM_eq_ok.mp second⟩
  · rintro ⟨first, second⟩
    exact ⟨(), Except.forM_eq_ok.mpr first, Except.forM_eq_ok.mpr second⟩

end LazorKit
