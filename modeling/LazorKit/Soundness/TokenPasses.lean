import LazorKit.Proofs.MintFlows
import LazorKit.Proofs.Transition
import LazorKit.Soundness.PolicyVerdict

/-! # Three passes over one account list

The snapshot, the verification and the flows each walk a list in which an account may stand several times,
and each leaves repeats out in its own way: by the keys found so far, by position, by the keys before it. All
three meet at the first position of a key. The accounts each of them looks at are therefore a set, every one
once, and what they return depends on which entries the list holds and not on their order or number.
-/

namespace LazorKit

open Solana

/-- The first position of a key in a list. -/
def FirstAt (accounts : List AccountInfo) (index : ℕ) (key : Pubkey) : Prop :=
  KeyAt accounts index key ∧ ∀ j < index, ¬KeyAt accounts j key

section Positions

variable {ledger : Ledger} {vaultKey : Pubkey} {found entries : List (AccountInfo × ℕ)}

/-- The positions found stand in the order of the list. -/
theorem findSnapshotPositions_sublist :
    (findSnapshotPositions ledger vaultKey found entries).Sublist (found ++ entries) := by
  induction entries generalizing found with
  | nil => simp [findSnapshotPositions]
  | cons entry rest ih =>
    rw [findSnapshotPositions]
    split
    · exact ih.trans ((List.sublist_cons_self entry rest).append_left found)
    · have kept := @ih (found ++ [entry])
      rwa [List.append_assoc, List.singleton_append] at kept

private theorem snapshot_indices_increasing (ledger : Ledger) (accounts : List AccountInfo) (vaultKey : Pubkey) :
    ((snapshotVaultTokenAccounts ledger accounts vaultKey).map (·.index)).Pairwise (· < ·) := by
  have indices : (snapshotVaultTokenAccounts ledger accounts vaultKey).map (·.index) =
      (findSnapshotPositions ledger vaultKey [] accounts.zipIdx).map (·.2) := by
    simp [snapshotVaultTokenAccounts, takeSnapshot]
  have sublist : ((findSnapshotPositions ledger vaultKey [] accounts.zipIdx).map (·.2)).Sublist
      (accounts.zipIdx.map (·.2)) := findSnapshotPositions_sublist.map _
  rw [indices]
  apply List.Pairwise.sublist sublist
  rw [List.zipIdx_map_snd]
  exact List.pairwise_lt_range'

end Positions

section Passes

variable {before after : Ledger} {accounts : AccountList} {vaultKey : Pubkey}

private theorem repeatsEarlier_eq_false {infos : List AccountInfo} {index : ℕ} {acc : AccountInfo} :
    repeatsEarlier infos index acc = false ↔ ∀ j < index, ¬KeyAt infos j acc.key := by
  rw [repeatsEarlier, List.any_eq_false]
  constructor
  · rintro none_ j early ⟨other, at_, same⟩
    refine none_ other (List.mem_iff_getElem?.mpr ⟨j, ?_⟩) (by simpa using same)
    rwa [List.getElem?_take_of_lt early]
  · intro none_ other listed same
    obtain ⟨j, bound, rfl⟩ := List.mem_iff_getElem.mp listed
    rw [List.length_take] at bound
    exact none_ j (by omega) ⟨_, List.getElem?_eq_getElem (by omega), by simpa using same⟩

private theorem firstAt_iff {infos : List AccountInfo} {index : ℕ} {key : Pubkey} :
    FirstAt infos index key ↔
      ∃ acc, (acc, index) ∈ infos.zipIdx ∧ acc.key = key ∧ repeatsEarlier infos index acc = false := by
  constructor
  · rintro ⟨⟨acc, at_, rfl⟩, first⟩
    exact ⟨acc, List.mem_zipIdx_iff_getElem?.mpr at_, rfl, repeatsEarlier_eq_false.mpr first⟩
  · rintro ⟨acc, at_, rfl, first⟩
    exact ⟨⟨acc, List.mem_zipIdx_iff_getElem?.mp at_, rfl⟩, repeatsEarlier_eq_false.mp first⟩

/-- The account copied at a position stands there. -/
theorem keyAt_of_snapshot {snap : VaultTokenSnapshot} {infos : List AccountInfo}
    (member : snap ∈ snapshotVaultTokenAccounts before infos vaultKey) :
    KeyAt infos snap.index snap.key ∧ snap.key ∈ vaultTokens before infos vaultKey := by
  obtain ⟨entry, found, rfl⟩ := List.mem_map.mp member
  rcases mem_of_mem_findSnapshotPositions found with early | ⟨listed, candidate⟩
  · cases early
  · exact ⟨⟨entry.1, List.mem_zipIdx_iff_getElem?.mp listed, rfl⟩,
      mem_vaultTokens.mpr ⟨entry.1, List.fst_mem_of_mem_zipIdx listed, candidate, rfl⟩⟩

/-- The copies are taken at the first positions of the vault's token accounts, and nowhere else. -/
theorem snapshot_positions {index : ℕ} {key : Pubkey} :
    (∃ snap ∈ snapshotVaultTokenAccounts before accounts.infos vaultKey, snap.index = index ∧ snap.key = key) ↔
      key ∈ vaultTokens before accounts.infos vaultKey ∧ FirstAt accounts.infos index key := by
  have copied {index : ℕ} {key : Pubkey} (token : key ∈ vaultTokens before accounts.infos vaultKey)
      (first : FirstAt accounts.infos index key) :
      ∃ snap ∈ snapshotVaultTokenAccounts before accounts.infos vaultKey, snap.index = index ∧ snap.key = key := by
    obtain ⟨acc, at_, rfl, unrepeated⟩ := firstAt_iff.mp first
    have candidate := (key_mem_vaultTokens (List.fst_mem_of_mem_zipIdx at_)).mp token
    obtain ⟨snap, member, same⟩ := List.any_eq_true.mp ((any_index_snapshot at_ unrepeated).mpr candidate)
    have index_eq : snap.index = index := by simpa using same
    refine ⟨snap, member, index_eq, ?_⟩
    exact (index_eq ▸ (keyAt_of_snapshot member).1).unique first.1
  constructor
  · rintro ⟨snap, member, rfl, rfl⟩
    obtain ⟨⟨acc, at_, own⟩, token⟩ := keyAt_of_snapshot member
    obtain ⟨index, place, unrepeated⟩ := exists_first_position (List.mem_of_getElem? at_)
    have first : FirstAt accounts.infos index snap.key := firstAt_iff.mpr ⟨acc, place, own, unrepeated⟩
    obtain ⟨other, member', index_eq, key_eq⟩ := copied token first
    obtain ⟨keys, distinct, _, same⟩ := snapshotVaultTokenAccounts_keys before accounts.infos vaultKey
    rw [← same] at distinct
    cases List.inj_on_of_nodup_map distinct member' member key_eq
    rw [index_eq]
    exact ⟨token, first⟩
  · rintro ⟨token, first⟩
    exact copied token first

/-- The entries the rule for newcomers is applied to. -/
def newcomerEntries (after : Ledger) (snapshots : List VaultTokenSnapshot) (accounts : List AccountInfo)
    (vaultKey : Pubkey) : List (AccountInfo × ℕ) :=
  accounts.zipIdx.filter fun entry => isSnapshotCandidate after vaultKey entry.1 ∧
    ¬(snapshots.any (·.index = entry.2) ∨ repeatsEarlier accounts entry.2 entry.1)

/-- A loop that skips some of its entries is the loop over the others. -/
theorem forM_filter {α ε : Type} (keep : α → Bool) {f g : α → Except ε PUnit} {xs : List α}
    (skipped : ∀ x ∈ xs, keep x = false → f x = .ok ⟨⟩) (kept : ∀ x ∈ xs, keep x = true → f x = g x) :
    forM xs f = forM (xs.filter keep) g := by
  induction xs with
  | nil => rfl
  | cons x xs ih =>
    rw [List.forall_mem_cons] at skipped kept
    rw [List.forM_cons, ih skipped.2 kept.2]
    cases own : keep x with
    | true => rw [List.filter_cons_of_pos own, List.forM_cons, kept.1 own]
    | false =>
      rw [List.filter_cons_of_neg (by simp [own]), skipped.1 own]
      rfl

/-- Neither delegate nor close authority. -/
def checkUncontrolled (ledger : Ledger) (key : Pubkey) : Except ProgramError Unit :=
  Except.ensure ((ledger key).data.slice tokenDelegateOffset 4 = [0, 0, 0, 0] ∧
      (ledger key).data.slice tokenCloseAuthorityOffset 4 = [0, 0, 0, 0])
    ↑AuthError.sessionTokenAuthorityChanged

private theorem verifyVaultTokenAccounts_eq (after : Ledger) (snapshots : List VaultTokenSnapshot)
    (infos : List AccountInfo) (vaultKey : Pubkey) :
    verifyVaultTokenAccounts after snapshots infos vaultKey = (do
      snapshots.forM (verifySnapshot after)
      ((newcomerEntries after snapshots infos vaultKey).map (·.1.key)).forM (checkUncontrolled after)) := by
  have second : infos.zipIdx.forM (verifyNewcomer after snapshots infos vaultKey) =
      ((newcomerEntries after snapshots infos vaultKey).map (·.1.key)).forM (checkUncontrolled after) := by
    rw [List.forM_eq_forM, List.forM_eq_forM, List.forM_map]
    refine forM_filter _ (fun entry _ skipped => ?_) fun entry _ kept => ?_
    · rw [verifyNewcomer]
      split
      · rfl
      · next candidate =>
        rw [if_pos]
        by_contra fresh
        exact (decide_eq_false_iff_not.mp skipped) ⟨by simpa using candidate, fresh⟩
    · simp only [decide_eq_true_eq, not_or] at kept
      rw [verifyNewcomer, if_neg (by simp [kept.1]), if_neg (by simp [kept.2.1, kept.2.2])]
      rfl
  rw [verifyVaultTokenAccounts, second]

private theorem newcomerEntries_nodup (after : Ledger) (snapshots : List VaultTokenSnapshot) (infos : List AccountInfo)
    (vaultKey : Pubkey) : ((newcomerEntries after snapshots infos vaultKey).map (·.1.key)).Nodup := by
  have ordered : infos.zipIdx.Pairwise fun first second => first.2 < second.2 := by
    rw [← List.pairwise_map, List.zipIdx_map_snd]
    exact List.pairwise_lt_range'
  rw [List.Nodup, List.pairwise_map]
  refine (ordered.filter _).imp_of_mem fun {first second} one other early same => ?_
  obtain ⟨listed, _⟩ := List.mem_filter.mp one
  obtain ⟨_, kept⟩ := List.mem_filter.mp other
  simp only [decide_eq_true_eq, not_or, Bool.not_eq_true] at kept
  exact repeatsEarlier_eq_false.mp kept.2.2 first.2 early ⟨first.1, List.mem_zipIdx_iff_getElem?.mp listed, same⟩

/-- The rule is applied to exactly the keys that are candidates now and were not copied. -/
theorem newcomerEntries_keys (before after : Ledger) (accounts : AccountList) (vaultKey : Pubkey) :
    ((newcomerEntries after (snapshotVaultTokenAccounts before accounts.infos vaultKey) accounts.infos vaultKey).map
        (·.1.key)).toFinset =
      vaultTokens after accounts.infos vaultKey \ vaultTokens before accounts.infos vaultKey := by
  ext key
  rw [List.mem_toFinset, List.mem_map, Finset.mem_sdiff]
  constructor
  · rintro ⟨⟨acc, index⟩, member, rfl⟩
    obtain ⟨at_, kept⟩ := List.mem_filter.mp member
    simp only [decide_eq_true_eq, not_or, Bool.not_eq_true] at kept
    have listed := List.fst_mem_of_mem_zipIdx at_
    refine ⟨(key_mem_vaultTokens listed).mpr kept.1, ?_⟩
    rw [key_mem_vaultTokens listed, ← any_index_snapshot at_ kept.2.2, kept.2.1]
    decide
  · rintro ⟨now, earlier⟩
    obtain ⟨acc, listed, candidate, rfl⟩ := mem_vaultTokens.mp now
    obtain ⟨index, at_, first⟩ := exists_first_position listed
    rw [key_mem_vaultTokens listed, ← any_index_snapshot at_ first] at earlier
    refine ⟨(acc, index), List.mem_filter.mpr ⟨at_, ?_⟩, rfl⟩
    simp only [decide_eq_true_eq, not_or]
    exact ⟨candidate, earlier, by rw [first]; decide⟩

/-- An entry of the table belongs to a mint the vault holds, with its balances before and after. -/
theorem mem_mintFlows_iff {flow : MintFlow} :
    flow ∈ mintFlows after (snapshotVaultTokenAccounts before accounts.infos vaultKey) ↔
      (mintAccounts before accounts.infos vaultKey flow.mint).Nonempty ∧
      flow.before = min (holdings before (mintAccounts before accounts.infos vaultKey flow.mint)) maxU64 ∧
      flow.after = min (holdings after (mintAccounts before accounts.infos vaultKey flow.mint)) maxU64 := by
  have distinct := mintFlows_nodup after (snapshotVaultTokenAccounts before accounts.infos vaultKey)
  have looked {entry : MintFlow}
      (member : entry ∈ mintFlows after (snapshotVaultTokenAccounts before accounts.infos vaultKey)) :
      (entry.before, entry.after) =
        (min (holdings before (mintAccounts before accounts.infos vaultKey entry.mint)) maxU64,
          min (holdings after (mintAccounts before accounts.infos vaultKey entry.mint)) maxU64) := by
    rw [← lookupFlow_mintFlows, lookupFlow_of_mem distinct member]
  constructor
  · intro member
    have sums := Prod.mk.inj (looked member)
    exact ⟨mem_mints_mintFlows.mp (List.mem_map_of_mem member), sums.1, sums.2⟩
  · rintro ⟨held, had, has⟩
    obtain ⟨entry, member, mint⟩ := List.mem_map.mp (mem_mints_mintFlows.mpr held)
    have sums := Prod.mk.inj (looked member)
    have same : entry = flow := by
      obtain ⟨_, _, _⟩ := entry
      obtain ⟨_, _, _⟩ := flow
      dsimp only at mint sums had has
      subst mint
      rw [sums.1, sums.2, had, has]
    exact same ▸ member

/-- The verification refuses with one error only. -/
theorem verifyVaultTokenAccounts_error {infos : List AccountInfo} {snapshots : List VaultTokenSnapshot}
    {e : ProgramError} (refused : verifyVaultTokenAccounts after snapshots infos vaultKey = .error e) :
    e = ↑AuthError.sessionTokenAuthorityChanged := by
  have single {α : Type} {f : α → Except ProgramError PUnit} {xs : List α}
      (each : ∀ x e, f x = .error e → e = ↑AuthError.sessionTokenAuthorityChanged)
      (refused : forM xs f = .error e) : e = ↑AuthError.sessionTokenAuthorityChanged := by
    induction xs with
    | nil => cases refused
    | cons x xs ih =>
      rw [List.forM_cons, Except.bind_eq_error] at refused
      rcases refused with head | ⟨_, _, tail⟩
      · exact each x e head
      · exact ih tail
  rw [verifyVaultTokenAccounts_eq, Except.bind_eq_error] at refused
  rcases refused with first | ⟨_, _, second⟩
  · exact single (fun snap e failed => (Except.ensure_eq_error.mp failed).2.symm) first
  · exact single (fun key e failed => (Except.ensure_eq_error.mp failed).2.symm) second

private theorem vaultTokens_congr {infos infos' : List AccountInfo} (same : ∀ acc, acc ∈ infos ↔ acc ∈ infos')
    (ledger : Ledger) (vaultKey : Pubkey) : vaultTokens ledger infos vaultKey = vaultTokens ledger infos' vaultKey := by
  ext key
  simp only [mem_vaultTokens, same]

end Passes

/-- What the three passes do over one account list. -/
structure TokenPasses (before after : Ledger) (accounts : AccountList) (vaultKey : Pubkey) : Prop where
  /-- Positions come in order, so looking one up by bisection finds it. -/
  increasing : ((snapshotVaultTokenAccounts before accounts.infos vaultKey).map (·.index)).Pairwise (· < ·)
  /-- One copy per distinct key of a writable token account of the vault, at its first position. -/
  positions : ∀ index key,
    (∃ snap ∈ snapshotVaultTokenAccounts before accounts.infos vaultKey, snap.index = index ∧ snap.key = key) ↔
      key ∈ vaultTokens before accounts.infos vaultKey ∧ FirstAt accounts.infos index key
  once : ((snapshotVaultTokenAccounts before accounts.infos vaultKey).map (·.key)).Nodup
  /-- The verification checks each copy once, then applies the rule for newcomers to `newcomers`, each once. -/
  checks : ∃ newcomers : List Pubkey, newcomers.Nodup ∧
    newcomers.toFinset = vaultTokens after accounts.infos vaultKey \ vaultTokens before accounts.infos vaultKey ∧
    verifyVaultTokenAccounts after (snapshotVaultTokenAccounts before accounts.infos vaultKey) accounts.infos vaultKey =
      (do
        (snapshotVaultTokenAccounts before accounts.infos vaultKey).forM (verifySnapshot after)
        newcomers.forM (checkUncontrolled after))
  /-- Once verified, every copied account is long enough for what the flows read. -/
  inRange : verifyVaultTokenAccounts after (snapshotVaultTokenAccounts before accounts.infos vaultKey) accounts.infos
      vaultKey = .ok () →
    ∀ key ∈ vaultTokens before accounts.infos vaultKey, tokenAmountOffset + 8 ≤ (after key).data.length
  /-- Each mint stands in the flows once, with its balances over the copied accounts. -/
  mints : ((mintFlows after (snapshotVaultTokenAccounts before accounts.infos vaultKey)).map (·.mint)).Nodup
  flows : ∀ flow, flow ∈ mintFlows after (snapshotVaultTokenAccounts before accounts.infos vaultKey) ↔
    (mintAccounts before accounts.infos vaultKey flow.mint).Nonempty ∧
    flow.before = min (holdings before (mintAccounts before accounts.infos vaultKey flow.mint)) maxU64 ∧
    flow.after = min (holdings after (mintAccounts before accounts.infos vaultKey flow.mint)) maxU64
  /-- A list with the same entries, in any order and number, gets the same verdict and the same flows. -/
  reordered : ∀ other : AccountList, (∀ acc, acc ∈ accounts.infos ↔ acc ∈ other.infos) →
    verifyVaultTokenAccounts after (snapshotVaultTokenAccounts before other.infos vaultKey) other.infos vaultKey =
      verifyVaultTokenAccounts after (snapshotVaultTokenAccounts before accounts.infos vaultKey)
        accounts.infos vaultKey ∧
    ∀ flow, flow ∈ mintFlows after (snapshotVaultTokenAccounts before other.infos vaultKey) ↔
      flow ∈ mintFlows after (snapshotVaultTokenAccounts before accounts.infos vaultKey)

private theorem verifyVaultTokenAccounts_reordered {before after : Ledger} {accounts other : AccountList}
    {vaultKey : Pubkey} (same : ∀ acc, acc ∈ accounts.infos ↔ acc ∈ other.infos) :
    verifyVaultTokenAccounts after (snapshotVaultTokenAccounts before other.infos vaultKey) other.infos vaultKey =
      verifyVaultTokenAccounts after (snapshotVaultTokenAccounts before accounts.infos vaultKey) accounts.infos
        vaultKey := by
  have verdict : (verifyVaultTokenAccounts after (snapshotVaultTokenAccounts before other.infos vaultKey) other.infos
        vaultKey = .ok ()) ↔ verifyVaultTokenAccounts after
        (snapshotVaultTokenAccounts before accounts.infos vaultKey) accounts.infos vaultKey = .ok () := by
    rw [verifyVaultTokenAccounts_eq_ok, verifyVaultTokenAccounts_eq_ok, vaultTokens_congr same before,
      vaultTokens_congr same after]
  cases here : verifyVaultTokenAccounts after (snapshotVaultTokenAccounts before accounts.infos vaultKey)
      accounts.infos vaultKey with
  | ok u => exact verdict.mpr here
  | error e =>
    cases there : verifyVaultTokenAccounts after (snapshotVaultTokenAccounts before other.infos vaultKey) other.infos
        vaultKey with
    | ok u =>
      rw [verdict.mp there] at here
      cases here
    | error e' => rw [verifyVaultTokenAccounts_error here, verifyVaultTokenAccounts_error there]

/-- Each pass looks at every distinct token account of the vault once, whatever the list looks like. -/
theorem token_passes (before after : Ledger) (accounts : AccountList) (vaultKey : Pubkey) :
    TokenPasses before after accounts vaultKey where
  increasing := snapshot_indices_increasing before accounts.infos vaultKey
  positions _ _ := snapshot_positions
  once := by
    obtain ⟨keys, distinct, _, same⟩ := snapshotVaultTokenAccounts_keys before accounts.infos vaultKey
    rwa [same]
  checks := ⟨_, newcomerEntries_nodup .., newcomerEntries_keys before after accounts vaultKey,
    verifyVaultTokenAccounts_eq ..⟩
  inRange verified key token := by
    have long := isTokenAccount_length ((verifyVaultTokenAccounts_eq_ok.mp verified).1 key token).token
    exact le_trans (by decide) long
  mints := mintFlows_nodup ..
  flows _ := mem_mintFlows_iff
  reordered other same := by
    refine ⟨verifyVaultTokenAccounts_reordered same, fun flow => ?_⟩
    rw [mem_mintFlows_iff, mem_mintFlows_iff]
    simp only [mintAccounts, vaultTokens_congr same before]

namespace Sample

/-- 50 tokens have left, and the account they went to has become the vault's. -/
def handedOver : Ledger :=
  (funded.set vaultToken ⟨2039280, splTokenProgram, tokenData vault 450⟩).set recipientToken
    ⟨2039280, splTokenProgram, tokenData vault 50⟩

/-- The list from the back, with every entry once. -/
def reversedAccounts : AccountList where
  infos := [readonly splTokenProgram, writable recipientToken, writable vaultToken, signer sessionKey, writable vault,
    writable session, readonly wallet, payerInfo]
  length_le := by decide
  repeats_agree := by decide +kernel

end Sample

/-- The vault's account stands at 5 and at 8 and is copied at 5. The newcomer is checked once, and what it holds is no
inflow. The reversed list gets the same verdict and the same flows. -/
theorem token_passes_sample :
    (∃ snap ∈ snapshotVaultTokenAccounts Sample.funded Sample.tokenAccounts.infos Sample.vault,
        snap.index = 5 ∧ snap.key = Sample.vaultToken) ∧
      (∃ newcomers : List Pubkey, newcomers.Nodup ∧ newcomers.toFinset = {Sample.recipientToken}) ∧
      tokenAmountOffset + 8 ≤ (Sample.handedOver Sample.vaultToken).data.length ∧
      verifyVaultTokenAccounts Sample.handedOver
        (snapshotVaultTokenAccounts Sample.funded Sample.reversedAccounts.infos Sample.vault)
        Sample.reversedAccounts.infos Sample.vault = .ok () ∧
      ⟨Sample.mint.bytes, 500, 450⟩ ∈ mintFlows Sample.handedOver
        (snapshotVaultTokenAccounts Sample.funded Sample.reversedAccounts.infos Sample.vault) := by
  have passes := token_passes Sample.funded Sample.handedOver Sample.tokenAccounts Sample.vault
  have first : FirstAt Sample.tokenAccounts.infos 5 Sample.vaultToken := by
    refine ⟨⟨Sample.writable Sample.vaultToken, rfl, rfl⟩, ?_⟩
    unfold KeyAt
    decide +kernel
  have own : Sample.vaultToken ∈ vaultTokens Sample.funded Sample.tokenAccounts.infos Sample.vault := by decide +kernel
  have verified : verifyVaultTokenAccounts Sample.handedOver
      (snapshotVaultTokenAccounts Sample.funded Sample.tokenAccounts.infos Sample.vault) Sample.tokenAccounts.infos
      Sample.vault = .ok () := by decide +kernel
  have entries : (∀ acc ∈ Sample.tokenAccounts.infos, acc ∈ Sample.reversedAccounts.infos) ∧
      ∀ acc ∈ Sample.reversedAccounts.infos, acc ∈ Sample.tokenAccounts.infos := by decide +kernel
  obtain ⟨verdict, flows⟩ := passes.reordered Sample.reversedAccounts fun acc => ⟨entries.1 acc, entries.2 acc⟩
  refine ⟨(passes.positions 5 Sample.vaultToken).mpr ⟨own, first⟩, ?_, passes.inRange verified _ own,
    verdict.trans verified, ?_⟩
  · obtain ⟨newcomers, once, arrived, _⟩ := passes.checks
    exact ⟨newcomers, once, arrived.trans (by decide +kernel)⟩
  · rw [flows, passes.flows]
    decide +kernel

end LazorKit
