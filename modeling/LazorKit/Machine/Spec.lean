import LazorKit.Machine.State

/-! # What each primitive does

One lemma per primitive of the runtime: what a success says about the accounts before, and what the
ledger is afterwards. `Unmoved` is the common frame of the primitives that only move lamports, and
`Respects` what every inner instruction of another program keeps.
-/

namespace Solana

namespace Machine

variable {α : Type} {rt : Runtime} {fr : Frame} {m m' m'' : Machine α}

@[simp] theorem ledger_setAccount (m : Machine α) (key : Pubkey) (account : Account) :
    (m.setAccount key account).ledger = m.ledger.set key account := rfl

@[simp] theorem approved_setAccount (m : Machine α) (key : Pubkey) (account : Account) :
    (m.setAccount key account).approved = m.approved := rfl

@[simp] theorem invoked_setAccount (m : Machine α) (key : Pubkey) (account : Account) :
    (m.setAccount key account).invoked = m.invoked := rfl

@[simp] theorem ledger_approve (m : Machine α) (a : α) : (m.approve a).ledger = m.ledger := rfl
@[simp] theorem approved_approve (m : Machine α) (a : α) : (m.approve a).approved = m.approved ++ [a] := rfl
@[simp] theorem invoked_approve (m : Machine α) (a : α) : (m.approve a).invoked = m.invoked := rfl

theorem data_setAccount (m : Machine α) (key other : Pubkey) (account : Account) :
    (m.setAccount key account).data other = if other = key then account.data else m.data other := by
  simp only [data, ledger_setAccount, Ledger.set_apply, apply_ite Account.data]

theorem owner_setAccount (m : Machine α) (key other : Pubkey) (account : Account) :
    (m.setAccount key account).owner other = if other = key then account.owner else m.owner other := by
  simp only [owner, ledger_setAccount, Ledger.set_apply, apply_ite Account.owner]

theorem lamports_setAccount (m : Machine α) (key other : Pubkey) (account : Account) :
    (m.setAccount key account).lamports other =
      if other = key then account.lamports else m.lamports other := by
  simp only [lamports, ledger_setAccount, Ledger.set_apply, apply_ite Account.lamports]

theorem setAccount_self (m : Machine α) (key : Pubkey) : m.setAccount key (m.ledger key) = m := by
  have same : m.ledger.set key (m.ledger key) = m.ledger := by
    funext other
    rw [Ledger.set_apply]
    split <;> simp_all
  rw [setAccount, same]

/-- A store of data replaces exactly that account's data, and unless it changes nothing the account
is this program's. -/
theorem writeData_eq_ok {acc : AccountInfo} {bytes : Bytes} (success : writeData rt m acc bytes = .ok m') :
    m' = m.setAccount acc.key { m.ledger acc.key with data := bytes } ∧
      (bytes = m.data acc.key ∨ m.owner acc.key = rt.programId) := by
  unfold writeData at success
  split at success
  · next same =>
    cases success
    refine ⟨?_, .inl same⟩
    rw [same]
    exact (setAccount_self m acc.key).symm
  · simp only [Except.bind_eq_ok, Except.ensure_eq_ok, exists_const] at success
    obtain ⟨_, owned, result⟩ := success
    exact ⟨(Except.ok.inj result).symm, .inr owned⟩

theorem writeLamports_eq_ok {acc : AccountInfo} {amount : ℕ}
    (success : writeLamports rt m acc amount = .ok m') :
    m' = m.setAccount acc.key { m.ledger acc.key with lamports := amount } := by
  unfold writeLamports at success
  split at success
  · next same =>
    cases success
    rw [same]
    exact (setAccount_self m acc.key).symm
  · simp only [Except.bind_eq_ok, Except.ensure_eq_ok, exists_const] at success
    obtain ⟨_, _, result⟩ := success
    exact (Except.ok.inj result).symm

/-- Owners, data and the logs are as they were; only lamports may differ. -/
structure Unmoved (m m' : Machine α) : Prop where
  data : ∀ key, m'.data key = m.data key
  owner : ∀ key, m'.owner key = m.owner key
  approved : m'.approved = m.approved
  invoked : m'.invoked = m.invoked

theorem Unmoved.refl (m : Machine α) : Unmoved m m := ⟨fun _ => rfl, fun _ => rfl, rfl, rfl⟩

theorem Unmoved.trans (first : Unmoved m m') (second : Unmoved m' m'') : Unmoved m m'' where
  data key := (second.data key).trans (first.data key)
  owner key := (second.owner key).trans (first.owner key)
  approved := second.approved.trans first.approved
  invoked := second.invoked.trans first.invoked

theorem unmoved_setLamports (m : Machine α) (key : Pubkey) (amount : ℕ) :
    Unmoved m (m.setAccount key { m.ledger key with lamports := amount }) where
  data other := by
    rw [data_setAccount]
    split <;> simp_all [data]
  owner other := by
    rw [owner_setAccount]
    split <;> simp_all [owner]
  approved := rfl
  invoked := rfl

theorem writeLamports_unmoved {acc : AccountInfo} {amount : ℕ}
    (success : writeLamports rt m acc amount = .ok m') : Unmoved m m' := by
  rw [writeLamports_eq_ok success]
  exact unmoved_setLamports m acc.key amount

/-- A transfer debits the source, which has no data, and credits the target. -/
theorem systemTransfer_eq_ok {source target : AccountInfo} {signs : Bool} {amount : ℕ}
    (success : systemTransfer m source target signs amount = .ok m') :
    m.data source.key = [] ∧ amount ≤ m.lamports source.key ∧ Unmoved m m' ∧
      (∀ key, key ≠ source.key → m.lamports key ≤ m'.lamports key) ∧ amount ≤ m'.lamports target.key := by
  simp only [systemTransfer, Except.bind_eq_ok, Except.ensure_eq_ok, exists_const] at success
  obtain ⟨_, empty, enough, _, _, result⟩ := success
  cases Except.ok.inj result
  refine ⟨empty, enough, (unmoved_setLamports ..).trans (unmoved_setLamports ..), ?_, ?_⟩
  · intro key other
    simp only [lamports_setAccount, if_neg other]
    split
    · next same =>
      subst same
      simp only [if_neg other, lamports]
      omega
    · exact Nat.le_refl _
  · simp [lamports_setAccount]

/-- What a transfer between two accounts does to every balance. -/
theorem systemTransfer_lamports {source target : AccountInfo} {signs : Bool} {amount : ℕ}
    (success : systemTransfer m source target signs amount = .ok m') (distinct : source.key ≠ target.key)
    (key : Pubkey) : m'.lamports key =
      if key = target.key then m.lamports target.key + amount
      else if key = source.key then m.lamports source.key - amount else m.lamports key := by
  simp only [systemTransfer, Except.bind_eq_ok, Except.ensure_eq_ok, exists_const] at success
  obtain ⟨_, _, _, _, _, result⟩ := success
  cases Except.ok.inj result
  simp only [lamports_setAccount, if_neg distinct.symm]

theorem systemAllocate_eq_ok {target : AccountInfo} {space : ℕ}
    (success : systemAllocate m target space = .ok m') :
    m.data target.key = [] ∧ m.owner target.key = systemProgram ∧
      m' = m.setAccount target.key { m.ledger target.key with data := List.replicate space 0 } := by
  simp only [systemAllocate, Except.bind_eq_ok, Except.ensure_eq_ok, exists_const] at success
  obtain ⟨_, ⟨empty, system⟩, result⟩ := success
  exact ⟨empty, system, (Except.ok.inj result).symm⟩

theorem systemAssign_eq_ok {target : AccountInfo} {owner : Pubkey}
    (success : systemAssign m target owner = .ok m') :
    m' = m.setAccount target.key { m.ledger target.key with owner := owner } := by
  unfold systemAssign at success
  split at success
  · next same =>
    cases success
    rw [← same]
    exact (setAccount_self m target.key).symm
  · simp only [Except.bind_eq_ok, Except.ensure_eq_ok, exists_const] at success
    obtain ⟨_, _, result⟩ := success
    exact (Except.ok.inj result).symm

/-- What the other programs leave of a ledger: an account of this program keeps owner and data and
loses no lamports, and one that becomes this program's is zeroed. -/
def Respects (rt : Runtime) (before after : Ledger) : Prop :=
  ∀ key, foreignChange rt (before key) (after key)

theorem foreignChange_of_owned {old new : Account} (change : foreignChange rt old new)
    (owned : old.owner = rt.programId) :
    new.owner = rt.programId ∧ new.data = old.data ∧ old.lamports ≤ new.lamports := by
  rw [foreignChange, if_pos owned] at change
  exact ⟨change.1.trans owned, change.2⟩

theorem foreignChange_of_not_owned {old new : Account} (change : foreignChange rt old new)
    (other : old.owner ≠ rt.programId) (owned : new.owner = rt.programId) : new.data.isZero = true := by
  rw [foreignChange, if_neg other] at change
  exact change owned

theorem foreignChange_refl (rt : Runtime) (account : Account) : foreignChange rt account account := by
  unfold foreignChange
  split
  · exact ⟨rfl, rfl, Nat.le_refl _⟩
  · next other => exact fun owned => absurd owned other

theorem foreignChange_trans {first second third : Account} (one : foreignChange rt first second)
    (two : foreignChange rt second third) : foreignChange rt first third := by
  by_cases owned : first.owner = rt.programId
  · obtain ⟨kept, same, more⟩ := foreignChange_of_owned one owned
    obtain ⟨kept', same', more'⟩ := foreignChange_of_owned two kept
    rw [foreignChange, if_pos owned]
    exact ⟨kept'.trans owned.symm, same'.trans same, more.trans more'⟩
  · rw [foreignChange, if_neg owned]
    intro late
    by_cases middle : second.owner = rt.programId
    · rw [(foreignChange_of_owned two middle).2.1]
      exact foreignChange_of_not_owned one owned middle
    · exact foreignChange_of_not_owned two middle late

theorem Respects.refl (rt : Runtime) (ledger : Ledger) : Respects rt ledger ledger :=
  fun key => foreignChange_refl rt (ledger key)

theorem Respects.trans {first second third : Ledger} (one : Respects rt first second)
    (two : Respects rt second third) : Respects rt first third :=
  fun key => foreignChange_trans (one key) (two key)

theorem Respects.set {ledger : Ledger} {key : Pubkey} {account : Account}
    (change : foreignChange rt (ledger key) account) : Respects rt ledger (ledger.set key account) := by
  intro other
  by_cases same : other = key
  · subst same
    rwa [Ledger.set_self]
  · rw [Ledger.set_of_ne same]
    exact foreignChange_refl rt _

theorem applyChanges_respects {ix : Instruction} {changes : List (Pubkey × Account)}
    {before after : Ledger} (success : changes.foldlM (applyChange rt ix) before = .ok after) :
    Respects rt before after := by
  refine Except.foldlM_preserves (Respects.refl rt) (fun _ _ _ => Respects.trans) ?_ success
  intro change _ ledger ledger' applied
  simp only [applyChange, Except.bind_eq_ok, Except.ensure_eq_ok, exists_const] at applied
  obtain ⟨⟨_, allowed⟩, result⟩ := applied
  cases Except.ok.inj result
  exact Respects.set allowed

theorem invoke_eq_ok {ix : Instruction} (success : invoke rt fr m ix = .ok m') :
    Respects rt m.ledger m'.ledger ∧ m'.approved = m.approved ∧ m'.invoked = m.invoked ++ [ix] := by
  simp only [invoke, Except.bind_eq_ok, Except.ofOption_eq_ok] at success
  obtain ⟨changes, _, ledger, applied, result⟩ := success
  cases Except.ok.inj result
  exact ⟨applyChanges_respects applied, rfl, rfl⟩

end Machine

/-- The rent schedule comes from the runtime. -/
theorem Rent.fromAccountInfo_eq_ok {rt : Runtime} {acc : AccountInfo} {rent : Rent}
    (success : Rent.fromAccountInfo rt acc = .ok rent) : rent = rt.rent := by
  simp only [Rent.fromAccountInfo, Except.bind_eq_ok, Except.ensure_eq_ok, exists_const] at success
  exact (Except.ok.inj success.2).symm

end Solana
