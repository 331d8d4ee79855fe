import LazorKit.Proofs.TokenSnapshot

/-! # Mint flows as balances

The flows fold the copies one by one into a table of mints, adding in saturating `u64`. Looked up, the
table holds each mint's balance over the vault's token accounts, before and after; so long as these
balances fit a `u64`, the outflow of a mint is what left those accounts on balance.
-/

namespace LazorKit

open Solana

/-- The largest `u64`. -/
def maxU64 : ℕ := 2 ^ 64 - 1

/-- Both balances of a mint in the table. -/
def lookupFlow (flows : List MintFlow) (mint : Bytes) : ℕ × ℕ :=
  match flows.find? (·.mint = mint) with
  | some flow => (flow.before, flow.after)
  | none => (0, 0)

private theorem lookupFlow_cons (flow : MintFlow) (rest : List MintFlow) (mint : Bytes) :
    lookupFlow (flow :: rest) mint = if flow.mint = mint then (flow.before, flow.after) else lookupFlow rest mint := by
  by_cases own : flow.mint = mint
  · rw [if_pos own, lookupFlow, List.find?_cons_of_pos (by simpa using own)]
  · rw [if_neg own, lookupFlow, List.find?_cons_of_neg (by simpa using own), lookupFlow]

theorem mintOutflow_eq (flows : List MintFlow) (mint : Bytes) :
    mintOutflow flows mint = (lookupFlow flows mint).1 - (lookupFlow flows mint).2 := by
  unfold mintOutflow lookupFlow
  cases flows.find? (·.mint = mint) <;> rfl

private theorem saturatingAdd_zero {n : ℕ} (small : n ≤ maxU64) : saturatingAdd 0 n = n := by
  rw [saturatingAdd, Nat.zero_add]
  exact Nat.min_eq_left small

/-- One account is added to its own mint's entry and to no other. -/
theorem lookupFlow_addFlow (mint : Bytes) {before after : ℕ} (smallBefore : before ≤ maxU64)
    (smallAfter : after ≤ maxU64) (flows : List MintFlow) (other : Bytes) :
    lookupFlow (addFlow mint before after flows) other =
      if mint = other then
        (saturatingAdd (lookupFlow flows other).1 before, saturatingAdd (lookupFlow flows other).2 after)
      else lookupFlow flows other := by
  induction flows with
  | nil =>
    rw [addFlow, lookupFlow_cons]
    split
    · exact Prod.ext (saturatingAdd_zero smallBefore).symm (saturatingAdd_zero smallAfter).symm
    · rfl
  | cons flow rest ih =>
    rw [addFlow]
    split
    · next own =>
      rw [lookupFlow_cons, lookupFlow_cons, ← own]
      split <;> rfl
    · next different =>
      rw [lookupFlow_cons, ih, lookupFlow_cons]
      split
      · next here =>
        rw [if_neg (fun same => different (here.trans same.symm))]
      · rfl

private theorem addFlow_mints {mint : Bytes} {before after : ℕ} (flows : List MintFlow) :
    (addFlow mint before after flows).map (·.mint) =
      if mint ∈ flows.map (·.mint) then flows.map (·.mint) else flows.map (·.mint) ++ [mint] := by
  induction flows with
  | nil => rfl
  | cons flow rest ih =>
    rw [addFlow]
    split
    · next own =>
      rw [if_pos (by simp [own])]
      rfl
    · next different =>
      rw [List.map_cons, ih, List.map_cons]
      by_cases later : mint ∈ rest.map (·.mint)
      · rw [if_pos later, if_pos (List.mem_cons_of_mem _ later)]
      · rw [if_neg later, if_neg (by simpa [Ne.symm different] using later), List.cons_append]

private theorem addFlow_nodup {mint : Bytes} {before after : ℕ} {flows : List MintFlow}
    (distinct : (flows.map (·.mint)).Nodup) : ((addFlow mint before after flows).map (·.mint)).Nodup := by
  rw [addFlow_mints]
  split
  · exact distinct
  · next fresh => exact List.nodup_append.mpr ⟨distinct, List.nodup_singleton _, by simpa using fresh⟩

/-- In a table of distinct mints every entry is the one its mint looks up. -/
theorem lookupFlow_of_mem {flows : List MintFlow} (distinct : (flows.map (·.mint)).Nodup) {flow : MintFlow}
    (member : flow ∈ flows) : lookupFlow flows flow.mint = (flow.before, flow.after) := by
  induction flows with
  | nil => cases member
  | cons first rest ih =>
    rw [List.map_cons, List.nodup_cons] at distinct
    rw [lookupFlow_cons]
    cases member with
    | head => rw [if_pos rfl]
    | tail _ later =>
      rw [if_neg, ih distinct.2 later]
      intro same
      exact distinct.1 (same ▸ List.mem_map_of_mem later)

theorem mintOutflow_of_mem {flows : List MintFlow} (distinct : (flows.map (·.mint)).Nodup) {flow : MintFlow}
    (member : flow ∈ flows) : mintOutflow flows flow.mint = flow.outflow := by
  rw [mintOutflow_eq, lookupFlow_of_mem distinct member, MintFlow.outflow]

/-- Where every mint of the table that fell is fine, every entry that fell is. -/
theorem forall_flow_iff {flows : List MintFlow} (distinct : (flows.map (·.mint)).Nodup) (fine : Bytes → Prop) :
    (∀ flow ∈ flows, 0 < flow.outflow → fine flow.mint) ↔ ∀ mint, 0 < mintOutflow flows mint → fine mint := by
  constructor
  · intro entries mint fell
    unfold mintOutflow at fell
    split at fell
    · next flow found =>
      have own : flow.mint = mint := by simpa using List.find?_some found
      exact own ▸ entries flow (List.mem_of_find?_eq_some found) fell
    · exact absurd fell (Nat.lt_irrefl 0)
  · intro mints flow member fell
    exact mints flow.mint (by rwa [mintOutflow_of_mem distinct member])

/-- The mint a token account holds. -/
def mintOf (account : Account) : Bytes := account.data.slice 0 32

/-- The balance of a token account. -/
def amountOf (account : Account) : ℕ := tokenField account.data tokenAmountOffset

private theorem amountOf_le (account : Account) : amountOf account ≤ maxU64 := by
  have bound : amountOf account < 256 ^ 8 := Bytes.toNatLE_slice_lt
  rw [maxU64]
  omega

/-- The vault's token accounts of one mint, as they stand before. -/
def mintAccounts (before : Ledger) (accounts : List AccountInfo) (vaultKey : Pubkey) (mint : Bytes) :
    Finset Pubkey :=
  (vaultTokens before accounts vaultKey).filter fun key => mintOf (before key) = mint

/-- What a set of token accounts holds. -/
def holdings (ledger : Ledger) (keys : Finset Pubkey) : ℕ := ∑ key ∈ keys, amountOf (ledger key)

/-- What left the vault's accounts of a mint, net of what came back to the same accounts. -/
def netFall (before after : Ledger) (accounts : List AccountInfo) (vaultKey : Pubkey) (mint : Bytes) : ℕ :=
  holdings before (mintAccounts before accounts vaultKey mint) -
    holdings after (mintAccounts before accounts vaultKey mint)

/-- What the accounts of a mint among `keys` hold. -/
def mintSum (before ledger : Ledger) (mint : Bytes) (keys : List Pubkey) : ℕ :=
  ((keys.filter fun key => mintOf (before key) = mint).map fun key => amountOf (ledger key)).sum

private theorem mintSum_cons_of_eq {before ledger : Ledger} {mint : Bytes} {key : Pubkey} {rest : List Pubkey}
    (own : mintOf (before key) = mint) :
    mintSum before ledger mint (key :: rest) = amountOf (ledger key) + mintSum before ledger mint rest := by
  rw [mintSum, List.filter_cons_of_pos (by simpa using own), List.map_cons, List.sum_cons, mintSum]

private theorem mintSum_cons_of_ne {before ledger : Ledger} {mint : Bytes} {key : Pubkey} {rest : List Pubkey}
    (other : mintOf (before key) ≠ mint) :
      mintSum before ledger mint (key :: rest) = mintSum before ledger mint rest := by
  rw [mintSum, List.filter_cons_of_neg (by simpa using other), mintSum]

private theorem mintSum_eq_holdings {before : Ledger} {accounts : List AccountInfo} {vaultKey : Pubkey}
    {keys : List Pubkey}
    (distinct : keys.Nodup) (set : keys.toFinset = vaultTokens before accounts vaultKey) (ledger : Ledger)
    (mint : Bytes) :
    mintSum before ledger mint keys = holdings ledger (mintAccounts before accounts vaultKey mint) := by
  have parts : mintAccounts before accounts vaultKey mint =
      (keys.filter fun key => mintOf (before key) = mint).toFinset := by
    rw [mintAccounts, ← set, List.toFinset_filter]
    simp only [decide_eq_true_eq]
  rw [holdings, parts, List.sum_toFinset _ (distinct.filter _), mintSum]

/-- The fold of the flows, from any table on. -/
private theorem lookupFlow_foldl {before after : Ledger} {keys : List Pubkey} {flows : List MintFlow} {mint : Bytes}
    (smallBefore : (lookupFlow flows mint).1 ≤ maxU64) (smallAfter : (lookupFlow flows mint).2 ≤ maxU64) :
    lookupFlow (keys.foldl (fun flows key =>
        addFlow (mintOf (before key)) (amountOf (before key)) (amountOf (after key)) flows) flows) mint =
      (min ((lookupFlow flows mint).1 + mintSum before before mint keys) maxU64,
        min ((lookupFlow flows mint).2 + mintSum before after mint keys) maxU64) := by
  induction keys generalizing flows with
  | nil => exact Prod.ext (Nat.min_eq_left smallBefore).symm (Nat.min_eq_left smallAfter).symm
  | cons key rest ih =>
    have step := lookupFlow_addFlow (mintOf (before key)) (amountOf_le (before key)) (amountOf_le (after key))
      flows mint
    rw [List.foldl_cons]
    by_cases own : mintOf (before key) = mint
    · rw [if_pos own] at step
      rw [ih (by rw [step]; exact Nat.min_le_right ..) (by rw [step]; exact Nat.min_le_right ..), step,
        mintSum_cons_of_eq own, mintSum_cons_of_eq own]
      refine Prod.ext ?_ ?_ <;> simp only [saturatingAdd, maxU64] <;> omega
    · rw [if_neg own] at step
      rw [ih (by rwa [step]) (by rwa [step]), step, mintSum_cons_of_ne own, mintSum_cons_of_ne own]

theorem mintFlows_nodup (after : Ledger) (snapshots : List VaultTokenSnapshot) :
    ((mintFlows after snapshots).map (·.mint)).Nodup := by
  rw [mintFlows]
  generalize start : ([] : List MintFlow) = flows
  have distinct : (flows.map (·.mint)).Nodup := by simp [← start]
  clear start
  induction snapshots generalizing flows with
  | nil => exact distinct
  | cons snap rest ih => exact ih _ (addFlow_nodup distinct)

/-- The table over the copies, by the keys they are of. -/
private theorem mintFlows_eq {before after : Ledger} {snapshots : List VaultTokenSnapshot}
    (copied : ∀ snap ∈ snapshots, snap.base = (before snap.key).data.slice 0 tokenAccountLen) :
    mintFlows after snapshots = (snapshots.map (·.key)).foldl (fun flows key =>
      addFlow (mintOf (before key)) (amountOf (before key)) (amountOf (after key)) flows) [] := by
  rw [mintFlows, List.foldl_map]
  apply List.foldl_ext _ _ _
  intro flows snap member
  rw [copied snap member, slice_slice_zero (by decide), tokenField_base (by decide)]
  rfl

/-- The balances of a mint fit a `u64`, as those of any mint do whose supply does. -/
def BalancesFit (before after : Ledger) (accounts : List AccountInfo) (vaultKey : Pubkey) : Prop :=
  ∀ mint, holdings before (mintAccounts before accounts vaultKey mint) ≤ maxU64 ∧
    holdings after (mintAccounts before accounts vaultKey mint) ≤ maxU64

/-- Looked up, the table holds each mint's balances over the vault's token accounts, in saturating `u64`. -/
theorem lookupFlow_mintFlows (before after : Ledger) (accounts : List AccountInfo) (vaultKey : Pubkey) (mint : Bytes) :
    lookupFlow (mintFlows after (snapshotVaultTokenAccounts before accounts vaultKey)) mint =
      (min (holdings before (mintAccounts before accounts vaultKey mint)) maxU64,
        min (holdings after (mintAccounts before accounts vaultKey mint)) maxU64) := by
  obtain ⟨keys, distinct, set, copied⟩ := snapshotVaultTokenAccounts_keys before accounts vaultKey
  rw [mintFlows_eq fun snap member => (mem_snapshotVaultTokenAccounts member).2.2, copied,
    lookupFlow_foldl (Nat.zero_le _) (Nat.zero_le _), mintSum_eq_holdings distinct set,
    mintSum_eq_holdings distinct set]
  change (min (0 + _) _, min (0 + _) _) = _
  rw [Nat.zero_add, Nat.zero_add]

/-- The outflow the limits are held against is what left the vault's accounts on balance. -/
theorem mintOutflow_mintFlows {before after : Ledger} {accounts : List AccountInfo} {vaultKey : Pubkey}
    (fits : BalancesFit before after accounts vaultKey) (mint : Bytes) :
    mintOutflow (mintFlows after (snapshotVaultTokenAccounts before accounts vaultKey)) mint =
      netFall before after accounts vaultKey mint := by
  obtain ⟨had, has⟩ := fits mint
  rw [mintOutflow_eq, lookupFlow_mintFlows, Nat.min_eq_left had, Nat.min_eq_left has, netFall]

/-- The mints of the table are those the vault holds a token account of. -/
theorem mem_mints_mintFlows {before after : Ledger} {accounts : List AccountInfo} {vaultKey : Pubkey} {mint : Bytes} :
    mint ∈ (mintFlows after (snapshotVaultTokenAccounts before accounts vaultKey)).map (·.mint) ↔
      (mintAccounts before accounts vaultKey mint).Nonempty := by
  obtain ⟨keys, _, set, copied⟩ := snapshotVaultTokenAccounts_keys before accounts vaultKey
  have listed (keys : List Pubkey) (flows : List MintFlow) : mint ∈ (keys.foldl (fun flows key =>
        addFlow (mintOf (before key)) (amountOf (before key)) (amountOf (after key)) flows) flows).map (·.mint) ↔
      mint ∈ flows.map (·.mint) ∨ ∃ key ∈ keys, mintOf (before key) = mint := by
    induction keys generalizing flows with
    | nil => simp
    | cons key rest ih =>
      have added : mint ∈ (addFlow (mintOf (before key)) (amountOf (before key)) (amountOf (after key)) flows).map
          (·.mint) ↔ mint ∈ flows.map (·.mint) ∨ mintOf (before key) = mint := by
        rw [addFlow_mints]
        split
        · next old => exact ⟨.inl, fun either => either.elim id fun own => own ▸ old⟩
        · rw [List.mem_append, List.mem_singleton, eq_comm (a := mint)]
      rw [List.foldl_cons, ih, added, or_assoc]
      simp only [List.mem_cons, exists_eq_or_imp]
  rw [mintFlows_eq fun snap member => (mem_snapshotVaultTokenAccounts member).2.2, copied, listed, mintAccounts, ← set]
  simp only [List.map_nil, List.not_mem_nil, false_or, Finset.Nonempty, Finset.mem_filter, List.mem_toFinset]

end LazorKit
