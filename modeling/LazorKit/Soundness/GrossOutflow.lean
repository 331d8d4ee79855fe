import LazorKit.Soundness.InnerBinding
import LazorKit.Soundness.PolicyVerdict

/-! # The gross outflow of an Execute

The loop compares the vault's balance after each inner instruction with the one before it and adds up the
falls, in saturating `u64`. Lamports that come back later are not subtracted, so the sum bounds the fall
between any two points of the sequence; a policy that caps it caps every intermediate fall as well.
-/

namespace LazorKit

open Solana

private theorem grossFall_le_cons (had : ℕ) (rest : List ℕ) : grossFall rest ≤ grossFall (had :: rest) := by
  cases rest with
  | nil => exact Nat.zero_le _
  | cons has rest =>
    rw [grossFall]
    omega

/-- The sum of the single falls bounds the fall between any two points. -/
theorem fall_le_grossFall {balances : List ℕ} {i j had has : ℕ} (le : i ≤ j) (first : balances[i]? = some had)
    (second : balances[j]? = some has) : had - has ≤ grossFall balances := by
  induction balances generalizing i j had with
  | nil => cases first
  | cons start rest ih =>
    cases i with
    | succ i =>
      cases j with
      | zero => exact absurd le (by omega)
      | succ j =>
        rw [List.getElem?_cons_succ] at first second
        exact (ih (by omega) first second).trans (grossFall_le_cons start rest)
    | zero =>
      rw [List.getElem?_cons_zero, Option.some.injEq] at first
      subst first
      cases j with
      | zero =>
        rw [List.getElem?_cons_zero, Option.some.injEq] at second
        omega
      | succ j =>
        rw [List.getElem?_cons_succ] at second
        cases rest with
        | nil => cases second
        | cons next rest =>
          have later := ih (Nat.zero_le j) (List.getElem?_cons_zero ..) second
          rw [grossFall]
          omega

/-- What a running total has to do with the balances it was kept over. -/
structure GrossCovers (balances : List ℕ) (gross : ℕ) : Prop where
  sum : gross = min (grossFall balances) maxU64
  falls : ∀ i j had has : ℕ, i ≤ j → balances[i]? = some had → balances[j]? = some has → had - has ≤ gross
  net : ∀ first last, balances.head? = some first → balances.getLast? = some last → first - last ≤ gross

/-- Balances are `u64`, so saturation hides no fall between two of them. -/
theorem GrossCovers.of_sum {balances : List ℕ} {gross : ℕ} (small : ∀ balance ∈ balances, balance ≤ maxU64)
    (sum : gross = min (grossFall balances) maxU64) : GrossCovers balances gross := by
  have falls : ∀ i j had has : ℕ, i ≤ j → balances[i]? = some had → balances[j]? = some has → had - has ≤ gross := by
    intro i j had has le first second
    have bound := small had (List.mem_of_getElem? first)
    have total := fall_le_grossFall le first second
    omega
  refine ⟨sum, falls, fun first last head end_ => ?_⟩
  rw [List.head?_eq_getElem?] at head
  rw [List.getLast?_eq_getElem?] at end_
  exact falls 0 _ first last (Nat.zero_le _) head end_

/-- The balances of an account over a sequence of machines. -/
def balancesOf (key : Pubkey) (m : Machine Approval) (machines : List (Machine Approval)) : List ℕ :=
  m.lamports key :: machines.map (·.lamports key)

/-- Keeping track over any sequence of balances sums the falls. -/
theorem foldl_trackOutflow (vaultKey : Pubkey) {m : Machine Approval} {gross : ℕ} {machines : List (Machine Approval)}
    (small : gross ≤ maxU64) :
    (machines.foldl (trackOutflow vaultKey) ⟨m, gross, m.lamports vaultKey⟩).grossOut =
      min (gross + grossFall (balancesOf vaultKey m machines)) maxU64 := by
  induction machines generalizing m gross with
  | nil => exact (Nat.min_eq_left small).symm
  | cons next rest ih =>
    have round : (trackOutflow vaultKey ⟨m, gross, m.lamports vaultKey⟩ next).grossOut = _ :=
      trackOutflow_grossOut vaultKey next small
    have bounded : (trackOutflow vaultKey ⟨m, gross, m.lamports vaultKey⟩ next).grossOut ≤ maxU64 := by
      rw [round]
      exact Nat.min_le_right ..
    have total := ih (m := next) bounded
    rw [List.foldl_cons]
    apply total.trans
    rw [round, balancesOf, balancesOf, List.map_cons, grossFall]
    dsimp only
    omega

section Loop

variable {dep : Deployment} {fr : Frame} {accounts : List AccountInfo} {payerKey vaultKey : Pubkey}
  {sessionKey : Option Pubkey}

/-- The last of the vault's balances is what the loop leaves. -/
theorem vaultBalances_getLast {m : Machine Approval} {gross : ℕ} {ixs : List CompactInstruction}
    {progress : CpiProgress} (loop : ixs.foldlM (executeTracked dep fr accounts payerKey vaultKey sessionKey)
      ⟨m, gross, m.lamports vaultKey⟩ = .ok progress) :
    (vaultBalances dep fr accounts payerKey vaultKey sessionKey m ixs).getLast? =
      some (progress.machine.lamports vaultKey) := by
  induction ixs generalizing m gross with
  | nil =>
    rw [Except.foldlM_nil_eq_ok] at loop
    subst loop
    rfl
  | cons ix rest ih =>
    obtain ⟨middle, head, tail⟩ := Except.foldlM_cons_eq_ok.mp loop
    simp only [executeTracked, Except.bind_eq_ok, Except.ok.injEq] at head
    obtain ⟨m', issued, rfl⟩ := head
    have last := ih tail
    obtain ⟨later, balances⟩ := vaultBalances_eq_cons dep fr accounts payerKey vaultKey sessionKey m' rest
    rw [vaultBalances, issued]
    dsimp only
    rw [balances] at last ⊢
    rwa [List.getLast?_cons_cons]

/-- A cap that was not exceeded bounds the amount, whether or not it was looked at. -/
theorem le_of_checkCap {data : Bytes} {offset amount : ℕ} {expired : Bool} {exceeded : AuthError}
    (success : checkCap data offset expired amount exceeded = .ok ()) : amount ≤ storedU64 data offset := by
  unfold checkCap at success
  split at success
  · simp only [Except.bind_eq_ok, Except.ensure_eq_ok, exists_const, readU64, Except.ok.injEq] at success
    obtain ⟨_, cap, ⟨_, rfl⟩, within⟩ := success
    exact within
  · next none_ => omega

end Loop

/-- The gross outflow against the balances, over any sequence of them and in a policy-bound Execute. -/
structure GrossOutflow (dep : Deployment) : Prop where
  /-- Over every sequence of balances the loop can meet. -/
  sequence : ∀ (vaultKey : Pubkey) (m : Machine Approval) (machines : List (Machine Approval)),
    (∀ balance ∈ balancesOf vaultKey m machines, balance ≤ maxU64) →
    GrossCovers (balancesOf vaultKey m machines)
      (machines.foldl (trackOutflow vaultKey) ⟨m, 0, m.lamports vaultKey⟩).grossOut
  /-- In a successful Execute under a policy: `balances` are the vault's before the first inner instruction
  and after each, and `gross` and `net` what the limits were held against. -/
  execute : ∀ (fr : Frame) (accounts : List AccountInfo) (data : Bytes) (m m' : Machine Approval),
    processExecute dep fr accounts data m = .ok m' → ∃ payer wallet authority ixs len sessionKey authenticated progress,
      ExecuteRun dep fr accounts data m m' payer wallet authority ixs len sessionKey authenticated progress ∧
      ∀ loc balances gross net, executePolicy (m.data authority.key) = some loc →
        balances = vaultBalances dep fr accounts payer.key (vaultOf dep wallet.key) sessionKey authenticated ixs →
        gross = progress.grossOut →
        net = authenticated.lamports (vaultOf dep wallet.key) - progress.machine.lamports (vaultOf dep wallet.key) →
        (∀ balance ∈ balances, balance ≤ maxU64) →
        GrossCovers balances gross ∧ net ≤ gross ∧
          ∃ actions, parseActions (loc.slice (m.data authority.key)) = .ok actions ∧
            ∀ action ∈ actions, action.actionType = .solMaxPerTx → ∀ i j had has : ℕ, i ≤ j →
              balances[i]? = some had → balances[j]? = some has →
              had - has ≤ storedU64 (m.data authority.key) (loc.abs action.dataOffset)

section Execute

variable {dep : Deployment} {fr : Frame} {accounts : List AccountInfo} {data : Bytes} {m m' : Machine Approval}
  {payer wallet authority : AccountInfo} {ixs : List CompactInstruction} {len : ℕ} {sessionKey : Option Pubkey}
  {authenticated : Machine Approval} {progress : CpiProgress} {loc : PolicyLocation}

/-- The policy the limits are read from after the loop is the one the account carried. -/
theorem ExecuteRun.policy_eq
    (run : ExecuteRun dep fr accounts data m m' payer wallet authority ixs len sessionKey authenticated progress)
    (found : executePolicy (m.data authority.key) = some loc) :
    loc.slice (progress.machine.data authority.key) = loc.slice (m.data authority.key) := by
  have foreign := (executeTracked_foldlM_foreign run.loop).respects authority.key
  have same := (Machine.foreignChange_of_owned foreign run.owned).2.1
  rw [← run.policyKept loc found]
  exact congrArg loc.slice same

/-- What is read behind the start of the policy depends on the policy alone. -/
theorem storedU64_of_slice_eq {first second : Bytes} (same : loc.slice first = loc.slice second) (offset : ℕ) :
    storedU64 first (loc.abs offset) = storedU64 second (loc.abs offset) := by
  have behind (bytes : Bytes) : bytes.slice (loc.abs offset) 8 = (loc.slice bytes).slice offset 8 := by
    rw [Bytes.slice, Bytes.slice, PolicyLocation.slice, List.drop_drop, PolicyLocation.abs]
  rw [storedU64, storedU64, behind, behind, same]

/-- A successful Execute under a policy kept the gross outflow within every per-transaction cap. -/
theorem ExecuteRun.gross_le
    (run : ExecuteRun dep fr accounts data m m' payer wallet authority ixs len sessionKey authenticated progress)
    (found : executePolicy (m.data authority.key) = some loc) :
    ∃ actions, parseActions (loc.slice (m.data authority.key)) = .ok actions ∧
      ∀ action ∈ actions, action.actionType = .solMaxPerTx →
        progress.grossOut ≤ storedU64 (m.data authority.key) (loc.abs action.dataOffset) := by
  obtain ⟨bytes, accepted⟩ := run.checks loc found
  obtain ⟨_, _, _, verdict, _⟩ := postCpiPhase_eq_ok.mp accepted
  have kept := run.policy_eq found
  have present : loc.isPresent (progress.machine.data authority.key) = true := by
    have behind := (Option.filter_eq_some_iff.mp found).2
    have lengths := congrArg List.length kept
    simp only [PolicyLocation.isPresent, PolicyLocation.slice, List.length_drop, decide_eq_true_eq] at behind lengths ⊢
    omega
  rw [evaluatePostActions, if_pos present, kept] at verdict
  dsimp only at verdict
  split at verdict
  · cases verdict
  · next actions parsed =>
    refine ⟨actions, parsed, fun action member cap => ?_⟩
    split at verdict
    · cases verdict
    · next checked =>
      simp only [checkPostActions, Except.bind_eq_ok] at checked
      obtain ⟨_, sol, _⟩ := checked
      have own := Except.forM_eq_ok.mp sol action member
      simp only [checkSolLimit, cap] at own
      rw [← storedU64_of_slice_eq kept]
      exact le_of_checkCap own

private theorem processExecute_grossOutflow (success : processExecute dep fr accounts data m = .ok m') :
    ∃ payer wallet authority ixs len sessionKey authenticated progress,
      ExecuteRun dep fr accounts data m m' payer wallet authority ixs len sessionKey authenticated progress ∧
      ∀ loc balances gross net, executePolicy (m.data authority.key) = some loc →
        balances = vaultBalances dep fr accounts payer.key (vaultOf dep wallet.key) sessionKey authenticated ixs →
        gross = progress.grossOut →
        net = authenticated.lamports (vaultOf dep wallet.key) - progress.machine.lamports (vaultOf dep wallet.key) →
        (∀ balance ∈ balances, balance ≤ maxU64) →
        GrossCovers balances gross ∧ net ≤ gross ∧
          ∃ actions, parseActions (loc.slice (m.data authority.key)) = .ok actions ∧
            ∀ action ∈ actions, action.actionType = .solMaxPerTx → ∀ i j had has : ℕ, i ≤ j →
              balances[i]? = some had → balances[j]? = some has →
              had - has ≤ storedU64 (m.data authority.key) (loc.abs action.dataOffset) := by
  obtain ⟨payer, wallet, authority, ixs, len, sessionKey, authenticated, progress, run⟩ := processExecute_eq_ok success
  refine ⟨payer, wallet, authority, ixs, len, sessionKey, authenticated, progress, run, ?_⟩
  rintro loc _ _ _ found rfl rfl rfl small
  have sum := grossOut_eq (Nat.zero_le _) run.loop
  rw [Nat.zero_add] at sum
  have covers := GrossCovers.of_sum small sum
  obtain ⟨actions, parsed, caps⟩ := run.gross_le found
  obtain ⟨rest, balances⟩ := vaultBalances_eq_cons dep fr accounts payer.key (vaultOf dep wallet.key) sessionKey
    authenticated ixs
  refine ⟨covers, covers.net _ _ (by rw [balances]; rfl) (vaultBalances_getLast run.loop), actions, parsed, ?_⟩
  intro action member cap i j had has le first second
  exact (covers.falls i j had has le first second).trans (caps action member cap)

end Execute

/-- The gross outflow is the saturating sum of the falls and bounds the fall between any two points; a
per-transaction cap therefore bounds them all, and no net limit sees more than the gross outflow. -/
theorem gross_outflow (dep : Deployment) : GrossOutflow dep where
  sequence vaultKey m machines small := .of_sum small (by
    rw [foldl_trackOutflow vaultKey (Nat.zero_le _), Nat.zero_add])
  execute _ _ _ _ _ := processExecute_grossOutflow

namespace Sample

/-- An instruction takes as many lamports out of the vault as its data says; one without data brings 400 back. -/
def swing (ix : Instruction) (ledger : Ledger) : Option (List (Pubkey × Account)) :=
  if ix.data = [] then
    some [(vault, { ledger vault with lamports := (ledger vault).lamports + 400 }),
      (recipient, { ledger recipient with lamports := (ledger recipient).lamports - 400 })]
  else transfers ix.data.toNatLE ix ledger

/-- 1000 lamports leave, 400 come back and 300 leave. -/
def swings : List CompactInstruction := [⟨5, [3, 6], [232, 3]⟩, ⟨5, [3, 6], []⟩, ⟨5, [3, 6], [44, 1]⟩]

def swingBatch : Bytes := [3, 5, 2, 3, 6, 2, 0, 232, 3, 5, 2, 3, 6, 0, 0, 5, 2, 3, 6, 2, 0, 44, 1]

def swingFrame : Frame := { topLevel 1004 [] 0 (4 :: swingBatch) with invoke := swing }

def swingAccounts : List AccountInfo :=
  [payerInfo, readonly wallet, writable session, writable vault, signer sessionKey, readonly systemProgram,
    writable recipient]

/-- At most 1500 lamports per transaction. -/
def perTransaction : Bytes := [3, 8, 0] ++ List.replicate 8 0 ++ Bytes.ofNatLE 8 1500

def cappedLedger : Ledger :=
  (ledgerAt deployment .empty events 10).set session
    ⟨1800000, programId, newSessionBytes 255 wallet ⟨sessionKey, 2000, perTransaction, 0⟩⟩

def swung : Machine Approval :=
  (processExecute deployment swingFrame swingAccounts swingBatch (.start cappedLedger)).getD (.start cappedLedger)

/-- The machine after the session's approval, by evaluation. -/
def admitted : Machine Approval :=
  ((authenticateExecute deployment swingFrame swingAccounts swingBatch (.start cappedLedger) (readonly wallet)
    (writable session) swings 23).getD (.start cappedLedger, none)).1

def swingBalances : List ℕ :=
  vaultBalances deployment swingFrame swingAccounts payer vault (some sessionKey) admitted swings

end Sample

/-- The vault falls by 1300 lamports in all and ends 900 below its start, and the cap of 1500 holds for the first. -/
theorem gross_outflow_sample :
    Sample.swingBalances = [995000, 994000, 994400, 994100] ∧ GrossCovers Sample.swingBalances 1300 ∧
      ∀ i j had has : ℕ, i ≤ j → Sample.swingBalances[i]? = some had → Sample.swingBalances[j]? = some has →
        had - has ≤ 1500 := by
  have facts : (processExecute Sample.deployment Sample.swingFrame Sample.swingAccounts Sample.swingBatch
        (.start Sample.cappedLedger)).succeeded = true ∧
      sessionKeyOf (Sample.cappedLedger Sample.session).data = some Sample.sessionKey ∧
      executePolicy (Sample.cappedLedger Sample.session).data = some ⟨sessionHeaderSize⟩ ∧
      parseActions (PolicyLocation.slice ⟨sessionHeaderSize⟩ (Sample.cappedLedger Sample.session).data) =
        .ok [⟨.solMaxPerTx, 0, 11, 8⟩] ∧
      storedU64 (Sample.cappedLedger Sample.session).data (PolicyLocation.abs ⟨sessionHeaderSize⟩ 11) = 1500 ∧
      Sample.swingBalances = [995000, 994000, 994400, 994100] := by
    decide +kernel
  obtain ⟨success, isSession, policy, views, cap, balances⟩ := facts
  have parsed : parseCompactInstructionsRefWithLen Sample.swingBatch = .ok (Sample.swings, 23) := by decide +kernel
  have isVault : vaultOf Sample.deployment Sample.wallet = Sample.vault := by decide +kernel
  obtain ⟨payer, wallet, authority, ixs, len, sessionKey, authenticated, progress, run, covers⟩ :=
    (gross_outflow Sample.deployment).execute _ _ _ _ Sample.swung (Except.eq_ok_getD success)
  cases run.payerAt
  cases run.walletAt
  cases run.authorityAt
  cases parsed.symm.trans run.parsed
  cases run.session.trans isSession
  have isAdmitted : Sample.admitted = authenticated := by
    rw [Sample.admitted, run.authentication]
    rfl
  subst isAdmitted
  obtain ⟨sum, _, actions, found, caps⟩ := covers ⟨sessionHeaderSize⟩ Sample.swingBalances progress.grossOut _ policy
    (by rw [Sample.swingBalances, ← isVault]; rfl) rfl rfl (by rw [balances]; decide)
  cases views.symm.trans found
  have gross : progress.grossOut = 1300 := by
    rw [sum.sum, balances]
    rfl
  rw [gross] at sum
  refine ⟨balances, sum, fun i j had has le first second => ?_⟩
  have within := caps _ (List.mem_singleton_self _) rfl i j had has le first second
  exact within.trans_eq cap

end LazorKit
