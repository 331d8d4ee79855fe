import LazorKit.Model.Kit.Execute
import LazorKit.Soundness.AccountsHash
import LazorKit.Soundness.CompactRoundTrip

/-! # What the kit's compact layout is

Indexes are assigned in one pass and flags merged in another. Whatever repeats among the fixed accounts and
the user's, an index in the compact instructions stands for the address the user wrote there, and the roles
the accounts hash is taken over are the union of the table's, with the fee payer a writable signer.
-/

namespace LazorKit.Kit

open Solana

private theorem decode_encodeAccountIndex {index : ℕ} {forwardSigner : Bool} {byte : UInt8}
    (success : encodeAccountIndex index forwardSigner = .ok byte) :
    (LazorKit.decodeAccountIndex byte).1 = index ∧ (forwardSigner = false → byte ≤ LazorKit.maxAccountIndex) := by
  simp only [encodeAccountIndex, Except.bind_eq_ok, Except.ensure_eq_ok, exists_const, Except.ok.injEq] at success
  obtain ⟨small, rfl⟩ := success
  have all : ∀ index : Fin 128,
      (LazorKit.decodeAccountIndex (UInt8.ofNat index ||| accountIndexForwardSigner)).1 = index ∧
      (LazorKit.decodeAccountIndex (UInt8.ofNat index)).1 = index ∧
      UInt8.ofNat index ≤ LazorKit.maxAccountIndex := by decide +kernel
  obtain ⟨forwarded, plain, low⟩ := all ⟨index, Nat.lt_succ_of_le small⟩
  cases forwardSigner with
  | true => exact ⟨forwarded, fun plain => absurd plain (by decide)⟩
  | false => exact ⟨plain, fun _ => low⟩

/-- The place the layout gives an address: it stands there in the table, at its last place if it is fixed. -/
structure Placed (fixed remaining : List Pubkey) (key : Pubkey) (index : ℕ) : Prop where
  stands : (fixed ++ remaining)[index]? = some key
  last : ∀ place : ℕ, fixed[place]? = some key → place ≤ index ∧ index < fixed.length

private theorem placed_assignIndexes {fixed remaining : List Pubkey} (apart : ∀ key ∈ remaining, key ∉ fixed)
    {key : Pubkey}
    {index : ℕ} (found : (assignIndexes (indexFixed fixed) fixed.length remaining).get? key = some index) :
    Placed fixed remaining key index := by
  refine OrderedMap.get?_foldl_set (P := Placed fixed remaining) (fun entry member => ?_)
    (fun key index here => ?_) found
  · obtain ⟨low, at_⟩ := List.mk_mem_zipIdx_iff_le_and_getElem?_sub.mp member
    refine ⟨?_, fun place fixedThere => ?_⟩
    · rw [List.getElem?_append_right low]
      exact at_
    · exact absurd (List.mem_of_getElem? fixedThere) (apart _ (List.mem_of_getElem? at_))
  · have at_ : fixed[index]? = some key := by
      refine OrderedMap.get?_foldl_set (P := fun key index => fixed[index]? = some key)
        (fun entry member => List.mk_mem_zipIdx_iff_getElem?.mp member) (fun _ _ none_ => ?_) here
      simp [OrderedMap.get?] at none_
    have low : index < fixed.length := (List.getElem?_eq_some_iff.mp at_).1
    refine ⟨?_, fun place fixedThere => ⟨?_, low⟩⟩
    · rw [List.getElem?_append_left low]
      exact at_
    · exact (Nat.zero_add place).symm.trans_le (OrderedMap.le_get?_foldl_zipIdx here fixedThere)

/-- The addresses an instruction names: its program and its accounts. -/
def UserInstruction.addresses (ix : UserInstruction) : List Pubkey := ix.programAddress :: ix.accounts.map (·.address)

/-- A user instruction names the key. -/
def Named (ixs : List UserInstruction) (key : Pubkey) : Prop := ∃ ix ∈ ixs, key ∈ ix.addresses

instance (ixs : List UserInstruction) (key : Pubkey) : Decidable (Named ixs key) :=
  inferInstanceAs (Decidable (∃ ix ∈ ixs, key ∈ ix.addresses))

section Collect

variable {indexMap : OrderedMap Pubkey ℕ} {remaining : OrderedMap Pubkey MutableMeta} {key : Pubkey}

private theorem has_collectProgram {program : Pubkey} : (collectProgram indexMap remaining program).has key = true ↔
    remaining.has key = true ∨ indexMap.has key = false ∧ key = program := by
  rw [collectProgram]
  split
  · next fresh =>
    rw [OrderedMap.has_set, Bool.or_eq_true, decide_eq_true_eq, or_comm]
    exact or_congr_right ⟨fun own => ⟨own ▸ fresh.1, own.symm⟩, fun own => own.2.symm⟩
  · next there =>
    refine ⟨.inl, fun named => named.elim id ?_⟩
    rintro ⟨free, rfl⟩
    exact Bool.eq_true_of_not_eq_false fun absent => there ⟨free, absent⟩

private theorem has_collectAccount {acc : RoleMeta} : (collectAccount indexMap remaining acc).has key = true ↔
    remaining.has key = true ∨ indexMap.has key = false ∧ key = acc.address := by
  simp only [collectAccount]
  split
  · next fixed =>
    refine ⟨.inl, fun named => named.elim id ?_⟩
    rintro ⟨free, rfl⟩
    rw [fixed] at free
    cases free
  · next free =>
    have added (flags : MutableMeta) : (remaining.set acc.address flags).has key = true ↔
        remaining.has key = true ∨ indexMap.has key = false ∧ key = acc.address := by
      rw [OrderedMap.has_set, Bool.or_eq_true, decide_eq_true_eq, or_comm]
      exact or_congr_right ⟨fun own => ⟨own ▸ Bool.eq_false_of_not_eq_true free, own.symm⟩, fun own => own.2.symm⟩
    split
    · exact added _
    · exact added _

private theorem has_foldl_collectAccount {accounts : List RoleMeta} :
    (accounts.foldl (collectAccount indexMap) remaining).has key = true ↔
      remaining.has key = true ∨ indexMap.has key = false ∧ key ∈ accounts.map (·.address) := by
  induction accounts generalizing remaining with
  | nil => simp
  | cons acc rest ih =>
    rw [List.foldl_cons, ih, has_collectAccount, List.map_cons, List.mem_cons]
    tauto

/-- The collected accounts are the addresses the user's instructions name outside the fixed prefix. -/
theorem has_foldl_collectInstruction {ixs : List UserInstruction} :
    (ixs.foldl (collectInstruction indexMap) remaining).has key = true ↔
      remaining.has key = true ∨ indexMap.has key = false ∧ ∃ ix ∈ ixs, key ∈ ix.addresses := by
  induction ixs generalizing remaining with
  | nil => simp
  | cons ix rest ih =>
    have named : key ∈ ix.addresses ↔ key = ix.programAddress ∨ key ∈ ix.accounts.map (·.address) := List.mem_cons
    rw [List.foldl_cons, ih, collectInstruction, has_foldl_collectAccount, has_collectProgram, List.exists_mem_cons_iff,
      named]
    tauto

end Collect

theorem has_indexFixed {fixed : List Pubkey} {key : Pubkey} : (indexFixed fixed).has key = true ↔ key ∈ fixed := by
  rw [indexFixed, OrderedMap.has_foldl_set, List.zipIdx_map_fst]
  simp [OrderedMap.has, OrderedMap.get?]

/-- A compact instruction stands for the user's: every index is a place of the address written there. -/
structure StandsFor (place : Pubkey → ℕ → Prop) (ix : UserInstruction) (compact : CompactInstruction) : Prop where
  inRange : compact.programIdIndex ≤ LazorKit.maxAccountIndex
  program : place ix.programAddress (LazorKit.decodeAccountIndex compact.programIdIndex).1
  accounts : List.Forall₂ (fun acc byte => place acc.address (LazorKit.decodeAccountIndex byte).1) ix.accounts
    compact.accounts
  data : compact.data = ix.data

/-- The index map a layout is made with. -/
def layoutIndexes (fixed : List Pubkey) (ixs : List UserInstruction) : OrderedMap Pubkey ℕ :=
  assignIndexes (indexFixed fixed) fixed.length (OrderedMap.keys (ixs.foldl (collectInstruction (indexFixed fixed)) []))

/-- The map has every address the user named, at its place. -/
theorem placed_layoutIndexes {fixed : List Pubkey} {ixs : List UserInstruction} {key : Pubkey} (named : Named ixs key) :
    Placed fixed (OrderedMap.keys (ixs.foldl (collectInstruction (indexFixed fixed)) [])) key
      (((layoutIndexes fixed ixs).get? key).getD 0) := by
  have apart : ∀ key ∈ OrderedMap.keys (ixs.foldl (collectInstruction (indexFixed fixed)) []), key ∉ fixed := by
    intro key listed
    rw [OrderedMap.mem_keys_iff, has_foldl_collectInstruction] at listed
    rw [← has_indexFixed, Bool.not_eq_true]
    exact (listed.resolve_left (by simp [OrderedMap.has, OrderedMap.get?])).1
  have set : (layoutIndexes fixed ixs).has key = true := OrderedMap.has_foldl_set.mpr (by
    rw [List.zipIdx_map_fst, OrderedMap.mem_keys_iff, has_foldl_collectInstruction]
    cases fixedThere : (indexFixed fixed).has key with
    | true => exact .inr rfl
    | false => exact .inl (.inr ⟨rfl, named⟩))
  obtain ⟨index, found⟩ := Option.isSome_iff_exists.mp set
  rw [found]
  exact placed_assignIndexes apart found

/-- Every index of the layout stands for the address the user wrote. -/
theorem buildCompactLayout_eq_ok {fixed : List Pubkey} {ixs : List UserInstruction} {payer : Pubkey}
    {layout : CompactLayout} (success : buildCompactLayout fixed ixs payer = .ok layout) :
    List.Forall₂ (StandsFor (Placed fixed (layout.remainingAccounts.map (·.address))))
      ixs layout.compactInstructions := by
  simp only [buildCompactLayout, Except.bind_eq_ok, Except.ok.injEq] at success
  obtain ⟨compact, compacted, rfl⟩ := success
  let remaining := ixs.foldl (collectInstruction (indexFixed fixed)) []
  have table :
      (remaining.map fun entry => (⟨entry.1, roleFromFlags entry.2.isSigner entry.2.isWritable⟩ : RoleMeta)).map
      (·.address) = remaining.keys := by
    rw [List.map_map]
    rfl
  have place {ix : UserInstruction} (member : ix ∈ ixs) {key : Pubkey} (named : key ∈ ix.addresses) :
      Placed fixed remaining.keys key (((layoutIndexes fixed ixs).get? key).getD 0) :=
    placed_layoutIndexes ⟨ix, member, named⟩
  rw [Except.mapM_eq_ok] at compacted
  rw [table]
  have each := (List.forall₂_and_left ixs compact).mpr ⟨fun ix member => member, compacted⟩
  apply each.imp
  rintro ix c ⟨member, one⟩
  simp only [compactInstruction, Except.bind_eq_ok, Except.mapM_eq_ok, Except.ok.injEq] at one
  obtain ⟨programIndex, program, accounts, indexes, rfl⟩ := one
  obtain ⟨decoded, low⟩ := decode_encodeAccountIndex program
  refine ⟨low rfl, ?_, ?_, rfl⟩
  · rw [decoded]
    exact place member (List.mem_cons_self ..)
  · refine ((List.forall₂_and_left ix.accounts accounts).mpr ⟨fun acc listed => listed, indexes⟩).imp ?_
    rintro acc byte ⟨listed, index⟩
    rw [(decode_encodeAccountIndex index).1]
    exact place member (List.mem_cons_of_mem _ (List.mem_map_of_mem listed))

theorem Placed.listed {fixed remaining : List RoleMeta} {key : Pubkey} {index : ℕ}
    (placed : Placed (fixed.map (·.address)) (remaining.map (·.address)) key index) :
    ((fixed ++ remaining).map (·.address))[index]? = some key := by
  rw [List.map_append]
  exact placed.stands

section StandsFor

variable {place : Pubkey → ℕ → Prop} {ix : UserInstruction} {compact : CompactInstruction}

/-- An index the layout hashes is the place of an address the user named. -/
theorem StandsFor.named (stands : StandsFor place ix compact) {index : ℕ} (hashed : index ∈ compact.hashedIndices) :
    ∃ key ∈ ix.addresses, place key index := by
  rw [CompactInstruction.hashedIndices, List.mem_cons] at hashed
  rcases hashed with rfl | account
  · exact ⟨_, List.mem_cons_self .., stands.program⟩
  · obtain ⟨byte, listed, rfl⟩ := List.mem_map.mp account
    obtain ⟨acc, member, at_⟩ := stands.accounts.exists_left listed
    exact ⟨_, List.mem_cons_of_mem _ (List.mem_map_of_mem member), at_⟩

/-- An address the user named is hashed at an index of the layout. -/
theorem StandsFor.hashed (stands : StandsFor place ix compact) {key : Pubkey} (named : key ∈ ix.addresses) :
    ∃ index ∈ compact.hashedIndices, place key index := by
  rw [UserInstruction.addresses, List.mem_cons] at named
  rcases named with rfl | account
  · exact ⟨_, List.mem_cons_self .., stands.program⟩
  · obtain ⟨acc, listed, rfl⟩ := List.mem_map.mp account
    obtain ⟨byte, member, at_⟩ := stands.accounts.flip.exists_left listed
    exact ⟨_, List.mem_cons_of_mem _ (List.mem_map_of_mem member), at_⟩

theorem named_of_hashed {ixs : List UserInstruction} {batch : List CompactInstruction}
    (stands : List.Forall₂ (StandsFor place) ixs batch) {index : ℕ}
    (hashed : index ∈ batch.flatMap CompactInstruction.hashedIndices) : ∃ key, Named ixs key ∧ place key index := by
  obtain ⟨compact, listed, here⟩ := List.mem_flatMap.mp hashed
  obtain ⟨ix, member, one⟩ := stands.exists_left listed
  obtain ⟨key, named, at_⟩ := one.named here
  exact ⟨key, ⟨ix, member, named⟩, at_⟩

theorem hashed_of_named {ixs : List UserInstruction} {batch : List CompactInstruction}
    (stands : List.Forall₂ (StandsFor place) ixs batch) {key : Pubkey} (named : Named ixs key) :
    ∃ index ∈ batch.flatMap CompactInstruction.hashedIndices, place key index := by
  obtain ⟨ix, member, here⟩ := named
  obtain ⟨compact, listed, one⟩ := stands.flip.exists_left member
  obtain ⟨index, hashed, at_⟩ := StandsFor.hashed one here
  exact ⟨index, List.mem_flatMap.mpr ⟨compact, listed, hashed⟩, at_⟩

end StandsFor

/-- The two privileges an account can have. -/
inductive Privilege where
  | signer
  | writable

namespace Privilege

def ofRole : Privilege → AccountRole → Bool
  | signer => (·.isSigner)
  | writable => (·.isWritable)

theorem ofRole_readonly (privilege : Privilege) : privilege.ofRole .readonly = false := by cases privilege <;> rfl

theorem ofRole_writableSigner (privilege : Privilege) : privilege.ofRole .writableSigner = true := by
  cases privilege <;> rfl

/-- What a collected entry grants. -/
def ofFlags (privilege : Privilege) (flags : MutableMeta) : Bool :=
  privilege.ofRole (roleFromFlags flags.isSigner flags.isWritable)

private theorem ofFlags_flagsFromRole (privilege : Privilege) (role : AccountRole) :
    privilege.ofFlags (flagsFromRole role) = privilege.ofRole role := by cases role <;> rfl

private theorem ofFlags_or (privilege : Privilege) (first second : MutableMeta) :
    privilege.ofFlags ⟨first.isSigner || second.isSigner, first.isWritable || second.isWritable⟩ =
      (privilege.ofFlags first || privilege.ofFlags second) := by
  obtain ⟨signer, writable⟩ := first
  obtain ⟨signer', writable'⟩ := second
  revert signer writable signer' writable'
  cases privilege <;> decide

end Privilege

/-- The table gives a key a privilege somewhere. -/
def grantedBy (metas : List RoleMeta) (privilege : AccountRole → Bool) (key : Pubkey) : Bool :=
  metas.any fun acc => decide (acc.address = key) && privilege acc.role

/-- The instructions of a user ask for a privilege of a key. -/
def declaredBy (ixs : List UserInstruction) (privilege : AccountRole → Bool) (key : Pubkey) : Bool :=
  ixs.any fun ix => grantedBy ix.accounts privilege key

section Collected

variable (indexMap : OrderedMap Pubkey ℕ) (privilege : Privilege)

/-- What the collected accounts grant a key. -/
def collected (remaining : OrderedMap Pubkey MutableMeta) (key : Pubkey) : Bool :=
  remaining.any fun entry => decide (entry.1 = key) && privilege.ofFlags entry.2

private theorem collected_collectProgram (remaining : OrderedMap Pubkey MutableMeta) (program key : Pubkey) :
    collected privilege (collectProgram indexMap remaining program) key = collected privilege remaining key := by
  rw [collectProgram]
  split
  · next fresh =>
    have absent : remaining.get? program = none :=
      Option.isNone_iff_eq_none.mp (by simpa [OrderedMap.has] using fresh.2)
    rw [collected, OrderedMap.any_set (by simp [absent])]
    simp [collected, Privilege.ofFlags, roleFromFlags, Privilege.ofRole_readonly]
  · rfl

private theorem collected_collectAccount (remaining : OrderedMap Pubkey MutableMeta) (acc : RoleMeta) (key : Pubkey) :
    collected privilege (collectAccount indexMap remaining acc) key =
      (collected privilege remaining key ||
        (!indexMap.has key && (decide (acc.address = key) && privilege.ofRole acc.role))) := by
  simp only [collectAccount]
  split
  · next fixed =>
    rcases eq_or_ne acc.address key with rfl | other
    · simp [fixed]
    · simp [other]
  · next free =>
    have added : (!indexMap.has key && (decide (acc.address = key) && privilege.ofRole acc.role)) =
        (decide (acc.address = key) && privilege.ofRole acc.role) := by
      rcases eq_or_ne acc.address key with rfl | other
      · simp [free]
      · simp [other]
    rw [added]
    split
    · next existing found =>
      have before : (decide (acc.address = key) && privilege.ofFlags existing) = true →
          collected privilege remaining key = true := by
        intro own
        rw [Bool.and_eq_true, decide_eq_true_eq] at own
        obtain ⟨rfl, flag⟩ := own
        exact List.any_eq_true.mpr ⟨_, OrderedMap.mem_of_get? found, by simp [flag]⟩
      rw [collected, OrderedMap.any_set (fun old here flag => ?_), Privilege.ofFlags_or,
        Privilege.ofFlags_flagsFromRole, Bool.and_or_distrib_left, ← Bool.or_assoc]
      · rw [← collected, Bool.or_eq_left_iff_imp.mpr before]
      · rw [found, Option.some.injEq] at here
        rw [Privilege.ofFlags_or, here, flag, Bool.true_or]
    · next absent => rw [collected, OrderedMap.any_set (by simp [absent]), Privilege.ofFlags_flagsFromRole, ← collected]

private theorem collected_foldl_collectAccount (remaining : OrderedMap Pubkey MutableMeta) (accounts : List RoleMeta)
    (key : Pubkey) :
    collected privilege (accounts.foldl (collectAccount indexMap) remaining) key =
      (collected privilege remaining key || (!indexMap.has key && grantedBy accounts privilege.ofRole key)) := by
  induction accounts generalizing remaining with
  | nil => simp [grantedBy]
  | cons acc rest ih =>
    rw [List.foldl_cons, ih, collected_collectAccount, Bool.or_assoc, ← Bool.and_or_distrib_left, grantedBy, grantedBy,
      List.any_cons]

private theorem collected_foldl_collectInstruction (remaining : OrderedMap Pubkey MutableMeta)
    (ixs : List UserInstruction) (key : Pubkey) :
    collected privilege (ixs.foldl (collectInstruction indexMap) remaining) key =
      (collected privilege remaining key || (!indexMap.has key && declaredBy ixs privilege.ofRole key)) := by
  induction ixs generalizing remaining with
  | nil => simp [declaredBy]
  | cons ix rest ih =>
    rw [List.foldl_cons, ih, collectInstruction, collected_foldl_collectAccount, collected_collectProgram,
      Bool.or_assoc, ← Bool.and_or_distrib_left, declaredBy, declaredBy, List.any_cons]

end Collected

/-- An account behind the fixed ones carries what the user's instructions ask for it. -/
theorem grantedBy_remainingAccounts {fixed : List Pubkey} {ixs : List UserInstruction} {payer : Pubkey}
    {layout : CompactLayout} (success : buildCompactLayout fixed ixs payer = .ok layout) (privilege : Privilege)
    (key : Pubkey) :
    grantedBy layout.remainingAccounts privilege.ofRole key =
      (decide (key ∉ fixed) && declaredBy ixs privilege.ofRole key) := by
  simp only [buildCompactLayout, Except.bind_eq_ok, Except.ok.injEq] at success
  obtain ⟨compact, _, rfl⟩ := success
  have indexed : (indexFixed fixed).has key = decide (key ∈ fixed) := by
    rw [Bool.eq_iff_iff, has_indexFixed, decide_eq_true_eq]
  have total := collected_foldl_collectInstruction (indexFixed fixed) privilege [] ixs key
  rw [indexed, ← decide_not, collected, collected, List.any_nil, Bool.false_or] at total
  rw [grantedBy, List.any_map]
  exact total

/-- The table and the fee payer give a key a privilege. -/
def foreseen (metas : List RoleMeta) (feePayer : Option Pubkey) (privilege : AccountRole → Bool) (key : Pubkey) :
    Bool :=
  grantedBy metas privilege key || decide (feePayer = some key)

private theorem get?_mergeRole (union : OrderedMap Pubkey ℕ) (acc : RoleMeta) (key : Pubkey) (bit : ℕ) :
    (((mergeRole union acc).get? key).getD 0).testBit bit =
      (((union.get? key).getD 0).testBit bit || (decide (acc.address = key) && acc.role.bits.testBit bit)) := by
  rw [mergeRole, OrderedMap.get?_set]
  split
  · next own => simp [own]
  · next other => simp [other]

private theorem get?_foldl_mergeRole (metas : List RoleMeta) (union : OrderedMap Pubkey ℕ) (key : Pubkey) (bit : ℕ) :
    (((metas.foldl mergeRole union).get? key).getD 0).testBit bit =
      (((union.get? key).getD 0).testBit bit ||
        metas.any fun acc => decide (acc.address = key) && acc.role.bits.testBit bit) := by
  induction metas generalizing union with
  | nil => simp
  | cons acc rest ih => rw [List.foldl_cons, ih, get?_mergeRole, List.any_cons, Bool.or_assoc]

private theorem AccountRole.bits_testBit (role : AccountRole) :
    role.bits.testBit 1 = role.isSigner ∧ role.bits.testBit 0 = role.isWritable ∧
      ∀ bit, 2 ≤ bit → role.bits.testBit bit = false := by
  refine ⟨by cases role <;> decide, by cases role <;> decide, fun bit high => ?_⟩
  have small : role.bits < 2 ^ bit := by
    have four : 2 ^ 2 ≤ 2 ^ bit := Nat.pow_le_pow_right (by decide) high
    have bound : role.bits < 4 := by cases role <;> decide
    omega
  exact Nat.testBit_lt_two_pow small

private theorem AccountRole.bits_ofBits {bits : ℕ} (small : bits < 4) : (AccountRole.ofBits bits).bits = bits := by
  match bits, small with
  | 0, _ | 1, _ | 2, _ | 3, _ => rfl

private theorem get?_unionRoles (metas : List RoleMeta) (feePayer : Option Pubkey) (key : Pubkey) (bit : ℕ) :
    (((unionRoles metas feePayer).get? key).getD 0).testBit bit =
      (grantedBy metas (fun role => role.bits.testBit bit) key ||
        (decide (feePayer = some key) && AccountRole.writableSigner.bits.testBit bit)) := by
  have table : (((metas.foldl mergeRole []).get? key).getD 0).testBit bit =
      grantedBy metas (fun role => role.bits.testBit bit) key := by
    rw [get?_foldl_mergeRole]
    simp [OrderedMap.get?, grantedBy]
  cases feePayer with
  | none => simp [unionRoles, table]
  | some feePayer =>
    rw [unionRoles, get?_mergeRole, table]
    simp only [Option.some.injEq]

/-- The roles the accounts hash is taken over. -/
theorem withRuntimeRoles_toInfo (metas : List RoleMeta) (feePayer : Option Pubkey) :
    (withRuntimeRoles metas feePayer).map (·.toInfo) = metas.map fun acc =>
      ⟨acc.address, foreseen metas feePayer (·.isSigner) acc.address,
        foreseen metas feePayer (·.isWritable) acc.address⟩ := by
  rw [withRuntimeRoles, List.map_map]
  apply List.map_congr_left
  intro acc _
  have bits := get?_unionRoles metas feePayer acc.address
  have small : ((unionRoles metas feePayer).get? acc.address).getD 0 < 2 ^ 2 := by
    apply Nat.lt_pow_two_of_testBit _
    intro bit high
    rw [bits, (AccountRole.bits_testBit .writableSigner).2.2 bit high, Bool.and_false, Bool.or_false, grantedBy,
      List.any_eq_false]
    intro other _
    rw [(AccountRole.bits_testBit other.role).2.2 bit high, Bool.and_false]
    exact Bool.false_ne_true
  have signs : AccountRole.writableSigner.isSigner = true := rfl
  have writes : AccountRole.writableSigner.isWritable = true := rfl
  simp only [Function.comp_apply, RoleMeta.toInfo, AccountRole.bits_ofBits small, bits]
  simp only [AccountRole.bits_testBit, signs, writes, Bool.and_true, foreseen]

end LazorKit.Kit
