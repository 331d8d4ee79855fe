import LazorKit.Proofs.ConcreteRun
import LazorKit.Proofs.SpendingLimits

/-! # The verdict on a policy-bound Execute

Whatever the inner instructions did to balances, owners and data, the checks after them accept exactly
when the vault stayed the vault, its token accounts were kept, no newcomer among them is controlled by
somebody else, and the policy allows what left. The amounts are stated over the balances themselves:
the gross SOL outflow over the vault's balance after each inner instruction, a mint's over the distinct
token accounts the vault had before.
-/

namespace LazorKit

open Solana

/-- A policy buffer as it stands in an account: the creation-time gate accepted it, and accepted
evaluations may have rewritten its running totals since. -/
def StoredPolicy (buf : Bytes) (actions : List ActionView) : Prop :=
  ∃ created, validateActionsBuffer created = .ok () ∧ parseActions created = .ok actions ∧
    SameButTotals 0 actions created buf

theorem StoredPolicy.of_validate {buf : Bytes} {actions : List ActionView}
    (valid : validateActionsBuffer buf = .ok ()) (parsed : parseActions buf = .ok actions) : StoredPolicy buf actions :=
  ⟨buf, valid, parsed, .refl _ _ _⟩

theorem StoredPolicy.wellSized {buf : Bytes} {actions : List ActionView} (stored : StoredPolicy buf actions) :
    WellSized actions := by
  obtain ⟨created, valid, parsed, _⟩ := stored
  obtain ⟨views, again, sized⟩ := policyShape_of_validate valid
  rw [parsed] at again
  rwa [Except.ok.inj again]

theorem StoredPolicy.parsed {buf : Bytes} {actions : List ActionView} (stored : StoredPolicy buf actions) :
    parseActions buf = .ok actions := by
  obtain ⟨created, valid, parsed, same⟩ := stored
  exact parseActions_sameButTotals parsed (StoredPolicy.wellSized ⟨created, valid, parsed, same⟩) same

/-- An accepted evaluation leaves a policy that is stored all the same. -/
theorem StoredPolicy.evaluated {old new : Bytes} {loc : PolicyLocation} {before after gross slot : ℕ}
    {flows : List MintFlow} {actions : List ActionView} (stored : StoredPolicy (loc.slice old) actions)
    (present : loc.isPresent old = true)
    (success : evaluatePostActions old loc before after gross flows slot = (.ok (), new)) :
    StoredPolicy (loc.slice new) actions := by
  obtain ⟨views, parsed, same⟩ := evaluatePostActions_eq_ok present success
  rw [stored.parsed] at parsed
  cases Except.ok.inj parsed
  obtain ⟨created, valid, first, kept⟩ := stored
  exact ⟨created, valid, first, kept.trans same.drop⟩

/-- The falls of a sequence of balances, each step on its own. -/
def grossFall : List ℕ → ℕ
  | had :: has :: rest => (had - has) + grossFall (has :: rest)
  | _ => 0

section Loop

variable (dep : Deployment) (fr : Frame) (accounts : List AccountInfo) (payerKey vaultKey : Pubkey)
  (sessionKey : Option Pubkey)

/-- The vault's balance before the first inner instruction and after each of them. -/
def vaultBalances (m : Machine Approval) : List CompactInstruction → List ℕ
  | [] => [m.lamports vaultKey]
  | ix :: rest =>
    m.lamports vaultKey :: match executeInner dep fr accounts payerKey vaultKey sessionKey m ix with
      | .ok m' => vaultBalances m' rest
      | .error _ => []

variable {dep fr accounts payerKey vaultKey sessionKey}

theorem vaultBalances_eq_cons (dep : Deployment) (fr : Frame) (accounts : List AccountInfo)
    (payerKey vaultKey : Pubkey) (sessionKey : Option Pubkey) (m : Machine Approval) (ixs : List CompactInstruction) :
    ∃ rest, vaultBalances dep fr accounts payerKey vaultKey sessionKey m ixs = m.lamports vaultKey :: rest := by
  cases ixs with
  | nil => exact ⟨_, rfl⟩
  | cons ix rest => exact ⟨_, rfl⟩

/-- One round adds the fall of the vault's balance in it. -/
theorem trackOutflow_grossOut (vaultKey : Pubkey) {progress : CpiProgress} (m : Machine Approval)
    (small : progress.grossOut ≤ maxU64) :
    (trackOutflow vaultKey progress m).grossOut =
      min (progress.grossOut + (progress.prevVaultLamports - m.lamports vaultKey)) maxU64 := by
  simp only [trackOutflow, saturatingAdd]
  split
  · rfl
  · rw [maxU64] at small ⊢
    omega

/-- The loop's running total is the sum of the single falls, kept in saturating `u64`. -/
theorem grossOut_eq {m : Machine Approval} {gross : ℕ} {ixs : List CompactInstruction} {progress : CpiProgress}
    (small : gross ≤ maxU64)
    (loop : ixs.foldlM (executeTracked dep fr accounts payerKey vaultKey sessionKey)
      ⟨m, gross, m.lamports vaultKey⟩ = .ok progress) :
    progress.grossOut =
      min (gross + grossFall (vaultBalances dep fr accounts payerKey vaultKey sessionKey m ixs)) maxU64 := by
  induction ixs generalizing m gross with
  | nil =>
    rw [Except.foldlM_nil_eq_ok] at loop
    subst loop
    exact (Nat.min_eq_left small).symm
  | cons ix rest ih =>
    obtain ⟨middle, head, tail⟩ := Except.foldlM_cons_eq_ok.mp loop
    simp only [executeTracked, Except.bind_eq_ok, Except.ok.injEq] at head
    obtain ⟨m', issued, rfl⟩ := head
    have round : (trackOutflow vaultKey ⟨m, gross, m.lamports vaultKey⟩ m').grossOut = _ :=
      trackOutflow_grossOut vaultKey m' small
    have bounded : (trackOutflow vaultKey ⟨m, gross, m.lamports vaultKey⟩ m').grossOut ≤ maxU64 := by
      rw [round]
      exact Nat.min_le_right ..
    have total := ih bounded tail
    obtain ⟨later, balances⟩ := vaultBalances_eq_cons dep fr accounts payerKey vaultKey sessionKey m' rest
    rw [total, round, vaultBalances, issued]
    dsimp only
    rw [balances, grossFall]
    omega

end Loop

theorem postCpiPhase_eq_ok {before : BeforeCpis} {after : Ledger} {accounts : List AccountInfo} {vaultKey : Pubkey}
    {data bytes : Bytes} {loc : PolicyLocation} {gross slot : ℕ} :
    postCpiPhase before after accounts vaultKey data loc gross slot = .ok bytes ↔
      (after vaultKey).owner = before.vaultOwner ∧ (after vaultKey).data.length = before.vaultDataLen ∧
        verifyVaultTokenAccounts after before.tokenAccounts accounts vaultKey = .ok () ∧
        (evaluatePostActions data loc before.vaultLamports (after vaultKey).lamports gross
          (mintFlows after before.tokenAccounts) slot).1 = .ok () ∧
        (evaluatePostActions data loc before.vaultLamports (after vaultKey).lamports gross
          (mintFlows after before.tokenAccounts) slot).2 = bytes := by
  simp only [postCpiPhase, Except.bind_eq_ok, Except.ensure_eq_ok, exists_const, Except.ok.injEq]
  constructor
  · rintro ⟨owner, length, _, tokens, _, verdict, result⟩
    exact ⟨owner, length, tokens, verdict, result⟩
  · rintro ⟨owner, length, tokens, verdict, result⟩
    exact ⟨owner, length, (), tokens, (), verdict, result⟩

/-- What the checks after the inner instructions demand. -/
structure PolicyHolds (before after : Ledger) (accounts : List AccountInfo) (vaultKey : Pubkey) (data : Bytes)
    (loc : PolicyLocation) (slot gross : ℕ) (actions : List ActionView) : Prop where
  vaultOwner : (after vaultKey).owner = (before vaultKey).owner
  vaultLength : (after vaultKey).data.length = (before vaultKey).data.length
  kept : ∀ key ∈ vaultTokens before accounts vaultKey, TokenKept (before key) (after key)
  newcomers : ∀ key ∈ vaultTokens after accounts vaultKey \ vaultTokens before accounts vaultKey,
    Uncontrolled (after key)
  allowed : PolicyAllows data loc slot actions
    ⟨(before vaultKey).lamports - (after vaultKey).lamports, gross, netFall before after accounts vaultKey⟩

/-- The checks after the inner instructions accept exactly when the vault and its token accounts were
kept and the policy allows what left. -/
theorem postCpiPhase_accepts_iff (dep : Deployment) (fr : Frame) (accounts : AccountList)
    (payerKey vaultKey : Pubkey) (sessionKey : Option Pubkey) (m : Machine Approval) (ixs : List CompactInstruction)
    (progress : CpiProgress) (data : Bytes) (loc : PolicyLocation) (actions : List ActionView)
    (loop : ixs.foldlM (executeTracked dep fr accounts.infos payerKey vaultKey sessionKey)
      ⟨m, 0, (takeBeforeCpis m.ledger accounts.infos vaultKey).vaultLamports⟩ = .ok progress)
    (present : loc.isPresent data = true) (stored : StoredPolicy (loc.slice data) actions)
    (fits : BalancesFit m.ledger progress.machine.ledger accounts.infos vaultKey) :
    (∃ bytes, postCpiPhase (takeBeforeCpis m.ledger accounts.infos vaultKey) progress.machine.ledger accounts.infos
        vaultKey data loc progress.grossOut fr.slot.toNat = .ok bytes) ↔
      PolicyHolds m.ledger progress.machine.ledger accounts.infos vaultKey data loc fr.slot.toNat
        (grossFall (vaultBalances dep fr accounts.infos payerKey vaultKey sessionKey m ixs)) actions := by
  have gross := grossOut_eq (Nat.zero_le _) loop
  rw [Nat.zero_add] at gross
  have measures : Measures ⟨(m.ledger vaultKey).lamports - (progress.machine.ledger vaultKey).lamports,
      progress.grossOut, mintFlows progress.machine.ledger
        (snapshotVaultTokenAccounts m.ledger accounts.infos vaultKey)⟩
      ⟨(m.ledger vaultKey).lamports - (progress.machine.ledger vaultKey).lamports,
        grossFall (vaultBalances dep fr accounts.infos payerKey vaultKey sessionKey m ixs),
        netFall m.ledger progress.machine.ledger accounts.infos vaultKey⟩ :=
    ⟨rfl, gross, mintOutflow_mintFlows fits, mintFlows_nodup ..⟩
  have evaluated := evaluatePostActions_accepts fr.slot.toNat present stored.parsed stored.wellSized measures
  constructor
  · rintro ⟨bytes, accepted⟩
    obtain ⟨owner, length, tokens, verdict, _⟩ := postCpiPhase_eq_ok.mp accepted
    obtain ⟨kept, newcomers⟩ := verifyVaultTokenAccounts_eq_ok.mp tokens
    exact ⟨owner, length, kept, newcomers, evaluated.mp verdict⟩
  · rintro ⟨owner, length, kept, newcomers, allowed⟩
    exact ⟨_, postCpiPhase_eq_ok.mpr ⟨owner, length, verifyVaultTokenAccounts_eq_ok.mpr ⟨kept, newcomers⟩,
      evaluated.mpr allowed, rfl⟩⟩

namespace Sample

def mint : Bytes32 := .fill 20
def vaultToken : Pubkey := .fill 21
def recipientToken : Pubkey := .fill 22

/-- An initialized token account of the mint. -/
def tokenData (tokenOwner : Pubkey) (amount : ℕ) : Bytes :=
  mint.bytes ++ tokenOwner.bytes ++ Bytes.ofNatLE 8 amount ++ List.replicate 36 0 ++ [1] ++ List.replicate 56 0

/-- The vault with some lamports and 500 tokens. -/
def funded : Ledger :=
  ((Ledger.empty.set vault ⟨1000000, systemProgram, []⟩).set vaultToken
    ⟨2039280, splTokenProgram, tokenData vault 500⟩).set recipientToken
    ⟨2039280, splTokenProgram, tokenData recipient 0⟩

/-- The account list of the Execute; the vault's token account stands in it twice. -/
def tokenAccounts : AccountList where
  infos := [payerInfo, readonly wallet, writable session, writable vault, signer sessionKey, writable vaultToken,
    writable recipientToken, readonly splTokenProgram, writable vaultToken]
  length_le := by decide
  repeats_agree := by decide +kernel

/-- What an SPL transfer of 50 tokens does. -/
def tokenFrame : Frame where
  slot := 1004
  stackHeight := 1
  instructions := []
  currentIndex := 0
  invoke _ ledger := some [(vaultToken, { ledger vaultToken with data := tokenData vault 450 }),
    (recipientToken, { ledger recipientToken with data := tokenData recipient 50 })]

/-- `Transfer { amount: 50 }` from the vault's account to the recipient's. -/
def tokenTransfer : CompactInstruction := ⟨7, [5, 6, 3], [3] ++ Bytes.ofNatLE 8 50⟩

/-- A lifetime limit of 100 tokens of the mint. -/
def tokenLimit : Bytes := [4, 40, 0] ++ List.replicate 8 0 ++ mint.bytes ++ Bytes.ofNatLE 8 100

/-- A session account's header, whose content plays no role here, and the policy behind it. -/
def policyAccount : Bytes := List.replicate sessionHeaderSize 0 ++ solLimit ++ tokenLimit

def tokenRun : Except ProgramError CpiProgress :=
  [tokenTransfer].foldlM (executeTracked deployment tokenFrame tokenAccounts.infos payer vault (some sessionKey))
    ⟨Machine.start funded, 0, (takeBeforeCpis funded tokenAccounts.infos vault).vaultLamports⟩

def tokenProgress : CpiProgress := tokenRun.getD ⟨Machine.start funded, 0, 0⟩

end Sample

/-- The balances of every mint fit when all balances together do. -/
theorem balancesFit_of_total {before after : Ledger} {accounts : List AccountInfo} {vaultKey : Pubkey}
    (had : holdings before (vaultTokens before accounts vaultKey) ≤ maxU64)
    (has : holdings after (vaultTokens before accounts vaultKey) ≤ maxU64) :
    BalancesFit before after accounts vaultKey := by
  have part (ledger : Ledger) (mint : Bytes) : holdings ledger (mintAccounts before accounts vaultKey mint) ≤
      holdings ledger (vaultTokens before accounts vaultKey) :=
    Finset.sum_le_sum_of_subset (Finset.filter_subset ..)
  exact fun mint => ⟨(part before mint).trans had, (part after mint).trans has⟩

theorem postCpiPhase_accepts_iff_sample :
    PolicyHolds Sample.funded Sample.tokenProgress.machine.ledger Sample.tokenAccounts.infos Sample.vault
      Sample.policyAccount ⟨sessionHeaderSize⟩ 1004
      (grossFall (vaultBalances Sample.deployment Sample.tokenFrame Sample.tokenAccounts.infos Sample.payer Sample.vault
        (some Sample.sessionKey) (Machine.start Sample.funded) [Sample.tokenTransfer]))
      [⟨.solLimit, 0, 11, 8⟩, ⟨.tokenLimit, 0, 30, 40⟩] := by
  have accepted : (postCpiPhase (takeBeforeCpis Sample.funded Sample.tokenAccounts.infos Sample.vault)
      Sample.tokenProgress.machine.ledger Sample.tokenAccounts.infos Sample.vault Sample.policyAccount
      ⟨sessionHeaderSize⟩ Sample.tokenProgress.grossOut 1004).succeeded = true := by
    decide +kernel
  refine (postCpiPhase_accepts_iff Sample.deployment Sample.tokenFrame Sample.tokenAccounts Sample.payer Sample.vault
    (some Sample.sessionKey) (Machine.start Sample.funded) [Sample.tokenTransfer] Sample.tokenProgress
    Sample.policyAccount ⟨sessionHeaderSize⟩ _ (Except.eq_ok_getD (by decide +kernel)) (by decide +kernel)
    (.of_validate (by decide +kernel) (by decide +kernel)) (balancesFit_of_total (by decide +kernel)
    (by decide +kernel))).mp
    (Except.exists_of_succeeded accepted)

end LazorKit
