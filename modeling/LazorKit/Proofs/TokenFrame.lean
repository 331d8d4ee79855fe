import LazorKit.Machine.Spec
import LazorKit.Model.TokenProgram
import LazorKit.Proofs.MintFlows
import LazorKit.Proofs.ProtocolRefine

/-! # What the program itself leaves of token accounts

Everything of an Execute but its inner instructions leaves every token account alone: the fee, the approval and the
totals of a policy are written into accounts of this program. So what the limits on tokens are held against can be
read off the ledgers before and after the instruction.
-/

namespace LazorKit

open Solana

variable {dep : Deployment} {fr : Frame} {accounts : List AccountInfo} {m m' m'' : Machine Approval}

/-- The accounts that belong to a token program, before or after, have the same owner and data. -/
def TokensStay (before after : Ledger) : Prop :=
  ∀ key, isTokenProgram (before key).owner ∨ isTokenProgram (after key).owner →
    (after key).owner = (before key).owner ∧ (after key).data = (before key).data

namespace TokensStay

variable {before middle after : Ledger}

theorem refl (ledger : Ledger) : TokensStay ledger ledger := fun _ _ => ⟨rfl, rfl⟩

theorem trans (first : TokensStay before middle) (second : TokensStay middle after) : TokensStay before after := by
  intro key either
  have inMiddle : isTokenProgram (middle key).owner := by
    rcases either with token | token
    · rwa [(first key (.inl token)).1]
    · rwa [← (second key (.inr token)).1]
  obtain ⟨owner, data⟩ := first key (.inr inMiddle)
  obtain ⟨owner', data'⟩ := second key (.inl inMiddle)
  exact ⟨owner'.trans owner, data'.trans data⟩

theorem of_unmoved (unmoved : Machine.Unmoved m m') : TokensStay m.ledger m'.ledger :=
  fun key _ => ⟨unmoved.owner key, unmoved.data key⟩

/-- The program writes into its own accounts only. -/
theorem of_stored {key : Pubkey} {bytes : Bytes} (program : ¬ isTokenProgram dep.programId)
    (owned : m.owner key = dep.programId) (stored : Stored m m' key bytes) : TokensStay m.ledger m'.ledger := by
  intro other either
  have owner : (m'.ledger other).owner = (m.ledger other).owner := stored.owner other
  by_cases same : other = key
  · subst same
    rw [owner, show (m.ledger other).owner = dep.programId from owned] at either
    exact absurd (either.elim id id) program
  · exact ⟨owner, stored.data_of_ne same⟩

theorem of_writeData {acc : AccountInfo} {bytes : Bytes} (program : ¬ isTokenProgram dep.programId)
    (store : m.writeData dep.toRuntime acc bytes = .ok m') : TokensStay m.ledger m'.ledger := by
  rcases (Machine.writeData_eq_ok store).2 with nothing | own
  · rw [(Machine.writeData_eq_ok store).1, nothing,
      show { m.ledger acc.key with data := m.data acc.key } = m.ledger acc.key from rfl, Machine.setAccount_self]
    exact .refl _
  · exact of_stored program own (writeData_eq_ok store).1

/-- A new account belonged to the System program before, and to this one afterwards. -/
theorem of_created {target : Pubkey} {space : ℕ} (program : ¬ isTokenProgram dep.programId)
    (created : Created dep m m' target space) : TokensStay m.ledger m'.ledger := by
  intro key either
  have owner : (m'.ledger key).owner = if key = target then dep.programId else (m.ledger key).owner :=
    created.owner key
  have data : (m'.ledger key).data = if key = target then List.replicate space 0 else (m.ledger key).data :=
    created.data key
  by_cases same : key = target
  · subst same
    rw [owner, if_pos rfl, show (m.ledger key).owner = systemProgram from created.wasSystem] at either
    exact absurd (either.resolve_right program) (by decide)
  · rw [owner, data, if_neg same, if_neg same]
    exact ⟨rfl, rfl⟩

private theorem of_ensureFeeRecord {payer record system : AccountInfo} {bump : UInt8}
    (program : ¬ isTokenProgram dep.programId)
    (success : ensureFeeRecord dep fr m payer record system bump = .ok m') : TokensStay m.ledger m'.ledger := by
  unfold ensureFeeRecord at success
  split at success
  · simp only [Except.bind_eq_ok] at success
    obtain ⟨made, creation, store⟩ := success
    have created := initializePdaAccount_eq_ok creation (dep.rent.minimumBalance_pos _)
    exact (of_created program created).trans (of_writeData program store)
  · split at success
    · cases success
    · simp only [Except.bind_eq_ok, Except.mapError_eq_ok] at success
      obtain ⟨_, _, same⟩ := success
      cases Except.ok.inj same
      exact .refl _

theorem of_tryCollectFee {discriminator : UInt8} {rest : List AccountInfo} (program : ¬ isTokenProgram dep.programId)
    (success : tryCollectFee dep fr discriminator accounts m = .ok (m', rest)) : TokensStay m.ledger m'.ledger := by
  simp only [tryCollectFee, Except.bind_eq_ok, Except.ensure_eq_ok, exists_const] at success
  obtain ⟨_, config, _, record, _, shard, _, system, _, _, _, success⟩ := success
  split at success
  · cases success
    exact .refl _
  · simp only [Except.bind_eq_ok, Except.ensure_eq_ok, exists_const] at success
    obtain ⟨_, _, _, payer, _, _, _, recorded, ensured, paid, transfer, _, charged, store, result⟩ := success
    cases Except.ok.inj result
    have moved := of_unmoved (Machine.systemTransfer_eq_ok transfer).2.2.1
    exact (of_ensureFeeRecord program ensured).trans (moved.trans (of_writeData program store))

end TokensStay

/-- What left the vault's accounts of a mint, each sum as far as a `u64` holds it. -/
def tokensTaken (before after : Ledger) (accounts : List AccountInfo) (vaultKey : Pubkey) (mint : Bytes) : ℕ :=
  min (holdings before (mintAccounts before accounts vaultKey mint)) maxU64 -
    min (holdings after (mintAccounts before accounts vaultKey mint)) maxU64

theorem mintOutflow_eq_tokensTaken (before after : Ledger) (accounts : List AccountInfo) (vaultKey : Pubkey)
    (mint : Bytes) : mintOutflow (mintFlows after (snapshotVaultTokenAccounts before accounts vaultKey)) mint =
      tokensTaken before after accounts vaultKey mint := by
  rw [mintOutflow_eq, lookupFlow_mintFlows, tokensTaken]

section Candidates

variable {before middle after after' : Ledger} {vaultKey key : Pubkey} {mint : Bytes}

private theorem isTokenProgram_of_candidate {acc : AccountInfo}
    (candidate : isSnapshotCandidate before vaultKey acc = true) :
    isTokenProgram (before acc.key).owner := by
  have token := (of_decide_eq_true candidate).2.1
  unfold isTokenAccount at token
  split at token
  · cases token
  · split at token
    · exact of_decide_eq_true token
    · exact .inr (of_decide_eq_true token).1

private theorem isTokenProgram_of_mem_vaultTokens (member : key ∈ vaultTokens before accounts vaultKey) :
    isTokenProgram (before key).owner := by
  obtain ⟨acc, _, candidate, rfl⟩ := mem_vaultTokens.mp member
  exact isTokenProgram_of_candidate candidate

namespace TokensStay

private theorem isSnapshotCandidate_eq (stays : TokensStay before after) (vaultKey : Pubkey) (acc : AccountInfo) :
    isSnapshotCandidate after vaultKey acc = isSnapshotCandidate before vaultKey acc := by
  by_cases token : isTokenProgram (before acc.key).owner ∨ isTokenProgram (after acc.key).owner
  · obtain ⟨owner, data⟩ := stays acc.key token
    rw [isSnapshotCandidate, isSnapshotCandidate, owner, data]
  · have nothing {ledger : Ledger} (foreign : ¬ isTokenProgram (ledger acc.key).owner) :
        isSnapshotCandidate ledger vaultKey acc = false := by
      rw [← Bool.not_eq_true]
      exact fun candidate => foreign (isTokenProgram_of_candidate candidate)
    rw [nothing fun isToken => token (.inl isToken), nothing fun isToken => token (.inr isToken)]

private theorem mintAccounts_eq (stays : TokensStay before after) (accounts : List AccountInfo) (vaultKey : Pubkey)
    (mint : Bytes) : mintAccounts after accounts vaultKey mint = mintAccounts before accounts vaultKey mint := by
  have same : vaultTokens after accounts vaultKey = vaultTokens before accounts vaultKey := by
    rw [vaultTokens, vaultTokens]
    congr 3
    exact funext fun acc => stays.isSnapshotCandidate_eq vaultKey acc
  rw [mintAccounts, mintAccounts, same]
  apply Finset.filter_congr
  intro key member
  rw [mintOf, mintOf, (stays key (.inl (isTokenProgram_of_mem_vaultTokens member))).2]

/-- What left is known from ledgers that agree on the token accounts there were. -/
theorem tokensTaken_eq (stays : TokensStay before middle)
    (same : ∀ key, isTokenProgram (middle key).owner → (after key).data = (after' key).data)
    (accounts : List AccountInfo) (vaultKey : Pubkey) (mint : Bytes) :
    tokensTaken middle after' accounts vaultKey mint = tokensTaken before after accounts vaultKey mint := by
  have token {key : Pubkey} (member : key ∈ mintAccounts before accounts vaultKey mint) :
      isTokenProgram (before key).owner := isTokenProgram_of_mem_vaultTokens (Finset.mem_filter.mp member).1
  have had : holdings middle (mintAccounts before accounts vaultKey mint) =
      holdings before (mintAccounts before accounts vaultKey mint) := by
    apply Finset.sum_congr rfl
    intro key member
    rw [amountOf, amountOf, (stays key (.inl (token member))).2]
  have has : holdings after' (mintAccounts before accounts vaultKey mint) =
      holdings after (mintAccounts before accounts vaultKey mint) := by
    apply Finset.sum_congr rfl
    intro key member
    have stillToken : isTokenProgram (middle key).owner := by
      rw [(stays key (.inl (token member))).1]
      exact token member
    rw [amountOf, amountOf, same key stillToken]
  rw [tokensTaken, tokensTaken, stays.mintAccounts_eq, had, has]

end TokensStay

end Candidates

end LazorKit
