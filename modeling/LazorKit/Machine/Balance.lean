import LazorKit.Machine.Spec
import LazorKit.ToMathlib.Balances

/-! # Lamports in a ledger

The balances of a ledger are what `Balances` speaks of. A System transfer moves an amount between two of them;
an inner instruction of another program conserves the lamports of the accounts it is handed, which is the
runtime's own check at every instruction boundary.
-/

namespace Solana

open Balances

/-- The lamports of every address. -/
def Ledger.balances (ledger : Ledger) : Pubkey → ℕ := fun key => (ledger key).lamports

/-- The addresses of an account list. -/
def keysOf (accounts : List AccountInfo) : Finset Pubkey := (accounts.map (·.key)).toFinset

theorem mem_keysOf {accounts : List AccountInfo} {acc : AccountInfo} (member : acc ∈ accounts) :
    acc.key ∈ keysOf accounts := List.mem_toFinset.mpr (List.mem_map_of_mem member)

theorem keysOf_subset {few many : List AccountInfo} (within : few ⊆ many) : keysOf few ⊆ keysOf many := by
  intro key member
  obtain ⟨acc, listed, rfl⟩ := List.mem_map.mp (List.mem_toFinset.mp member)
  exact mem_keysOf (within listed)

theorem pair_subset_keysOf {accounts : List AccountInfo} {first second : AccountInfo} (one : first ∈ accounts)
    (two : second ∈ accounts) : {first.key, second.key} ⊆ keysOf accounts := by
  intro key member
  rcases Finset.mem_insert.mp member with rfl | member
  · exact mem_keysOf one
  · cases Finset.mem_singleton.mp member
    exact mem_keysOf two

/-- The runtime's check of every inner instruction: the accounts it is handed hold as much as before. -/
def Frame.Balanced (rt : Runtime) (fr : Frame) : Prop :=
  ∀ ix ledger changes after, fr.invoke ix ledger = some changes →
    changes.foldlM (Machine.applyChange rt ix) ledger = .ok after →
      after.total (ix.accounts.map (·.pubkey)) = ledger.total (ix.accounts.map (·.pubkey))

/-- An inner instruction succeeds and takes one ledger to another. -/
def Frame.Performs (rt : Runtime) (fr : Frame) (ix : Instruction) (before after : Ledger) : Prop :=
  ∃ changes, fr.invoke ix before = some changes ∧ changes.foldlM (Machine.applyChange rt ix) before = .ok after

namespace Machine

variable {α : Type} {rt : Runtime} {fr : Frame} {m m' : Machine α}

theorem systemTransfer_transfers {source target : AccountInfo} {signs : Bool} {amount : ℕ}
    (success : systemTransfer m source target signs amount = .ok m') :
    Transfers m.ledger.balances m'.ledger.balances source.key target.key amount := by
  simp only [systemTransfer, Except.bind_eq_ok, Except.ensure_eq_ok, exists_const] at success
  obtain ⟨_, _, enough, _, _, result⟩ := success
  cases Except.ok.inj result
  have debit (key : Pubkey) : (m.setAccount source.key
      { m.ledger source.key with lamports := m.lamports source.key - amount }).lamports key =
        if key = source.key then m.lamports source.key - amount else m.lamports key := lamports_setAccount ..
  apply Transfers.of_steps enough debit
  intro key
  exact lamports_setAccount ..

/-- Only accounts an inner instruction was handed change. -/
theorem applyChanges_of_notMem {ix : Instruction} {changes : List (Pubkey × Account)} {before after : Ledger}
    (success : changes.foldlM (applyChange rt ix) before = .ok after) {key : Pubkey}
    (absent : key ∉ ix.accounts.map (·.pubkey)) : after key = before key := by
  refine Except.foldlM_preserves (R := fun (ledger ledger' : Ledger) => ledger' key = ledger key) (fun _ => rfl)
    (fun _ _ _ first second => second.trans first) ?_ success
  intro change _ ledger ledger' applied
  simp only [applyChange, Except.bind_eq_ok, Except.ensure_eq_ok, exists_const] at applied
  obtain ⟨⟨⟨acc, listed, same, _⟩, _⟩, result⟩ := applied
  cases Except.ok.inj result
  apply Ledger.set_of_ne
  rintro rfl
  exact absent (List.mem_map.mpr ⟨acc, listed, same⟩)

theorem applyChanges_eq {ix : Instruction} {changes : List (Pubkey × Account)} {before after : Ledger}
    (success : changes.foldlM (applyChange rt ix) before = .ok after) :
    after = changes.foldl (fun ledger change => ledger.set change.1 change.2) before := by
  induction changes generalizing before with
  | nil =>
    cases success
    rfl
  | cons change rest ih =>
    simp only [List.foldlM_cons, applyChange, Except.bind_eq_ok, Except.ensure_eq_ok, exists_const] at success
    obtain ⟨middle, ⟨_, result⟩, success⟩ := success
    cases Except.ok.inj result
    exact ih success

theorem invoke_performs {ix : Instruction} (success : invoke rt fr m ix = .ok m') :
    fr.Performs rt ix m.ledger m'.ledger := by
  simp only [invoke, Except.bind_eq_ok, Except.ofOption_eq_ok] at success
  obtain ⟨changes, invoked, ledger, applied, result⟩ := success
  cases Except.ok.inj result
  exact ⟨changes, invoked, applied⟩

theorem invoke_conserves {ix : Instruction} (balanced : fr.Balanced rt) (success : invoke rt fr m ix = .ok m') :
    Conserves (ix.accounts.map (·.pubkey)).toFinset m.ledger.balances m'.ledger.balances := by
  simp only [invoke, Except.bind_eq_ok, Except.ofOption_eq_ok] at success
  obtain ⟨changes, invoked, ledger, applied, result⟩ := success
  cases Except.ok.inj result
  apply Conserves.of_sum_eq
  · exact balanced ix m.ledger changes ledger invoked applied
  · intro key absent
    rw [List.mem_toFinset] at absent
    exact congrArg Account.lamports (applyChanges_of_notMem applied absent)

end Machine

end Solana
