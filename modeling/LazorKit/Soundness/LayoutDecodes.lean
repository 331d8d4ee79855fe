import LazorKit.Proofs.CompactLayout

/-! # The kit's layout decodes to the user's instructions

`buildCompactLayout` merges accounts in one pass and assigns indexes in another. What it returns, expanded by
the program over the fixed accounts and the remaining ones, is the user's instructions again: the program,
the accounts in order and the data of each. It throws exactly if an index it would use is above the ceiling.
-/

namespace LazorKit.Kit

open Solana

/-- Whether the layout asks for the signature of an account reference to be forwarded. -/
def forwarded (payer : Pubkey) (acc : RoleMeta) : Bool := acc.role.isSigner && (acc.address ≠ payer : Bool)

/-- What a compact instruction expands to over a table: the user's instruction, with its forward requests. -/
def ExpandsTo (payer : Pubkey) (accounts : List AccountInfo) (ix : UserInstruction) (compact : CompactInstruction) :
    Prop :=
  ∃ expanded, compact.decompress accounts = .ok expanded ∧ expanded.programId = ix.programAddress ∧
    expanded.accounts.map (fun acc => (acc.1.key, acc.2)) = ix.accounts.map
      (fun acc => (acc.address, forwarded payer acc)) ∧
    expanded.data = ix.data

/-- The addresses outside the fixed ones, in the order the user's instructions first name them. -/
def newcomers (fixed : List Pubkey) (ixs : List UserInstruction) : List Pubkey :=
  ((ixs.flatMap (·.addresses)).filter fun key => !fixed.contains key).eraseDups

/-- An address of the user stands at the index, with the newcomers behind the fixed accounts. -/
def UsesIndex (fixed : List Pubkey) (ixs : List UserInstruction) (index : ℕ) : Prop :=
  ∃ key, Named ixs key ∧ Placed fixed (newcomers fixed ixs) key index

/-- What a layout has to be. -/
structure Faithful (fixed : List Pubkey) (ixs : List UserInstruction) (payer : Pubkey) (layout : CompactLayout) :
    Prop where
  small : ∀ index, UsesIndex fixed ixs index → index ≤ maxAccountIndex
  listed : layout.remainingAccounts.map (·.address) = newcomers fixed ixs
  distinct : (layout.remainingAccounts.map (·.address)).Nodup
  apart : ∀ acc ∈ layout.remainingAccounts, acc.address ∉ fixed
  signer : ∀ acc ∈ layout.remainingAccounts, acc.role.isSigner = declaredBy ixs (·.isSigner) acc.address
  writable : ∀ acc ∈ layout.remainingAccounts, acc.role.isWritable = declaredBy ixs (·.isWritable) acc.address
  decoded : ∀ accounts : List AccountInfo,
    accounts.map (·.key) = fixed ++ layout.remainingAccounts.map (·.address) →
      List.Forall₂ (ExpandsTo payer accounts) ixs layout.compactInstructions

section Keys

variable (indexMap : OrderedMap Pubkey ℕ) {remaining : OrderedMap Pubkey MutableMeta}

private theorem nodup_collectProgram (nodup : remaining.keys.Nodup) (program : Pubkey) :
    (collectProgram indexMap remaining program).keys.Nodup := by
  rw [collectProgram]
  split
  · exact OrderedMap.nodup_keys_set nodup ..
  · exact nodup

private theorem nodup_collectAccount (nodup : remaining.keys.Nodup) (acc : RoleMeta) :
    (collectAccount indexMap remaining acc).keys.Nodup := by
  simp only [collectAccount]
  split
  · exact nodup
  · split
    · exact OrderedMap.nodup_keys_set nodup ..
    · exact OrderedMap.nodup_keys_set nodup ..

private theorem nodup_collectInstruction (nodup : remaining.keys.Nodup) (ix : UserInstruction) :
    (collectInstruction indexMap remaining ix).keys.Nodup := by
  rw [collectInstruction]
  have start := nodup_collectProgram indexMap nodup ix.programAddress
  generalize collectProgram indexMap remaining ix.programAddress = map at start
  induction ix.accounts generalizing map with
  | nil => exact start
  | cons acc rest ih => exact ih _ (nodup_collectAccount indexMap start acc)

private theorem nodup_collect (nodup : remaining.keys.Nodup) (ixs : List UserInstruction) :
    (ixs.foldl (collectInstruction indexMap) remaining).keys.Nodup := by
  induction ixs generalizing remaining with
  | nil => exact nodup
  | cons ix rest ih => exact ih (nodup_collectInstruction indexMap nodup ix)

end Keys

/-- In a table that lists no address twice, a key has the privileges of its entry. -/
theorem grantedBy_of_nodup {metas : List RoleMeta} (distinct : (metas.map (·.address)).Nodup) {acc : RoleMeta}
    (listed : acc ∈ metas) (privilege : AccountRole → Bool) :
      grantedBy metas privilege acc.address = privilege acc.role := by
  rw [Bool.eq_iff_iff, grantedBy, List.any_eq_true]
  constructor
  · rintro ⟨other, member, found⟩
    rw [Bool.and_eq_true, decide_eq_true_eq] at found
    obtain rfl := List.inj_on_of_nodup_map distinct member listed found.1
    exact found.2
  · intro own
    exact ⟨acc, listed, by rw [own, decide_eq_true rfl, Bool.and_self]⟩

private theorem decodeAccountIndex_forward {index : ℕ} {forwardSigner : Bool} {byte : UInt8}
    (success : encodeAccountIndex index forwardSigner = .ok byte) :
    (LazorKit.decodeAccountIndex byte).2 = forwardSigner := by
  simp only [encodeAccountIndex, Except.bind_eq_ok, Except.ensure_eq_ok, exists_const, Except.ok.injEq] at success
  obtain ⟨small, rfl⟩ := success
  have all : ∀ index : Fin 128,
      (LazorKit.decodeAccountIndex (UInt8.ofNat index ||| accountIndexForwardSigner)).2 = true ∧
      (LazorKit.decodeAccountIndex (UInt8.ofNat index)).2 = false := by decide +kernel
  obtain ⟨set, unset⟩ := all ⟨index, Nat.lt_succ_of_le small⟩
  cases forwardSigner with
  | true => exact set
  | false => exact unset

/-- The forward bits of a layout. -/
theorem forwards_of_layout {fixed : List Pubkey} {ixs : List UserInstruction} {payer : Pubkey} {layout : CompactLayout}
    (success : buildCompactLayout fixed ixs payer = .ok layout) :
    List.Forall₂ (fun ix compact => List.Forall₂
      (fun acc byte => (LazorKit.decodeAccountIndex byte).2 = forwarded payer acc) ix.accounts compact.accounts)
      ixs layout.compactInstructions := by
  simp only [buildCompactLayout, Except.bind_eq_ok, Except.ok.injEq] at success
  obtain ⟨compact, compacted, rfl⟩ := success
  rw [Except.mapM_eq_ok] at compacted
  apply compacted.imp
  intro ix c one
  simp only [compactInstruction, Except.bind_eq_ok, Except.mapM_eq_ok, Except.ok.injEq] at one
  obtain ⟨_, _, accounts, indexes, rfl⟩ := one
  apply indexes.imp
  intro acc byte index
  rw [decodeAccountIndex_forward index, forwarded]
  cases acc.role <;> rfl

/-- Looking the accounts of an instruction up in the table. -/
theorem resolve_accounts {payer : Pubkey} {accounts : List AccountInfo} {metas : List RoleMeta} {bytes : Bytes}
    (each : List.Forall₂ (fun acc byte =>
      (accounts.map (·.key))[(LazorKit.decodeAccountIndex byte).1]? = some acc.address ∧
      (LazorKit.decodeAccountIndex byte).2 = forwarded payer acc) metas bytes) :
    ∃ resolved, bytes.mapM (resolveAccount accounts) = .ok resolved ∧
      resolved.map (fun acc => (acc.1.key, acc.2)) = metas.map fun acc => (acc.address, forwarded payer acc) := by
  induction each with
  | nil => exact ⟨[], rfl, rfl⟩
  | @cons acc byte metas bytes head _ ih =>
    obtain ⟨resolved, later, same⟩ := ih
    obtain ⟨stands, forward⟩ := head
    rw [List.getElem?_map, Option.map_eq_some_iff] at stands
    obtain ⟨info, found, key⟩ := stands
    have one : resolveAccount accounts byte = .ok (info, forwarded payer acc) := by
      rw [resolveAccount, accountByIndex, found, forward]
      rfl
    refine ⟨(info, forwarded payer acc) :: resolved, ?_, ?_⟩
    · rw [List.mapM_cons, one, later]
      rfl
    · rw [List.map_cons, List.map_cons, same, key]

/-- An instruction of the layout expands to the user's. -/
theorem expandsTo_of_stands {fixed remaining : List Pubkey} {payer : Pubkey} {ix : UserInstruction}
    {compact : CompactInstruction} (stands : StandsFor (Placed fixed remaining) ix compact)
    (forwards : List.Forall₂ (fun acc byte => (LazorKit.decodeAccountIndex byte).2 = forwarded payer acc) ix.accounts
      compact.accounts) {accounts : List AccountInfo} (keys : accounts.map (·.key) = fixed ++ remaining) :
    ExpandsTo payer accounts ix compact := by
  have program := stands.program.stands
  rw [decodeAccountIndex_of_le stands.inRange, ← keys, List.getElem?_map, Option.map_eq_some_iff] at program
  obtain ⟨info, found, key⟩ := program
  obtain ⟨resolved, looked, same⟩ := resolve_accounts (List.Forall₂.mp
    (fun acc byte (placed : Placed ..) forward => ⟨keys ▸ placed.stands, forward⟩) stands.accounts forwards)
  refine ⟨⟨info.key, resolved, compact.data⟩, ?_, key, same, stands.data⟩
  rw [CompactInstruction.decompress, accountByIndex, found, looked]
  rfl

/-- Take note of an address, unless it is fixed or known. -/
def visit (fixed seen : List Pubkey) (key : Pubkey) : List Pubkey :=
  if fixed.contains key || seen.contains key then seen else seen ++ [key]

private theorem visit_eq_self {fixed seen : List Pubkey} {key : Pubkey} (there : key ∈ fixed ∨ key ∈ seen) :
    visit fixed seen key = seen := if_pos (by simpa using there)

private theorem visit_eq_append {fixed seen : List Pubkey} {key : Pubkey} (free : key ∉ fixed) (new : key ∉ seen) :
    visit fixed seen key = seen ++ [key] := if_neg (by simp [free, new])

section Visits

variable {fixed : List Pubkey} (remaining : OrderedMap Pubkey MutableMeta)

private theorem keys_collectProgram (program : Pubkey) :
    (collectProgram (indexFixed fixed) remaining program).keys = visit fixed remaining.keys program := by
  rw [collectProgram]
  split
  · next fresh =>
    have free : program ∉ fixed := by rw [← has_indexFixed, fresh.1]; exact Bool.false_ne_true
    have new : program ∉ remaining.keys := by rw [OrderedMap.mem_keys_iff, fresh.2]; exact Bool.false_ne_true
    rw [OrderedMap.keys_set, if_neg (by simp [fresh.2]), visit_eq_append free new]
  · next there =>
    rw [visit_eq_self]
    rw [not_and_or, Bool.not_eq_false, Bool.not_eq_false] at there
    exact there.imp has_indexFixed.mp OrderedMap.mem_keys_iff.mpr

private theorem keys_collectAccount (acc : RoleMeta) :
    (collectAccount (indexFixed fixed) remaining acc).keys = visit fixed remaining.keys acc.address := by
  have added (flags : MutableMeta) (free : acc.address ∉ fixed) :
      (remaining.set acc.address flags).keys = visit fixed remaining.keys acc.address := by
    rw [OrderedMap.keys_set]
    split
    · next known => rw [visit_eq_self (.inr (OrderedMap.mem_keys_iff.mpr known))]
    · next new => rw [visit_eq_append free (OrderedMap.mem_keys_iff.not.mpr new)]
  simp only [collectAccount]
  split
  · next there => rw [visit_eq_self (.inl (has_indexFixed.mp there))]
  · next free =>
    split
    · exact added _ (has_indexFixed.not.mp free)
    · exact added _ (has_indexFixed.not.mp free)

private theorem keys_collectInstruction (ix : UserInstruction) :
    (collectInstruction (indexFixed fixed) remaining ix).keys = ix.addresses.foldl (visit fixed) remaining.keys := by
  rw [collectInstruction, UserInstruction.addresses, List.foldl_cons, ← keys_collectProgram]
  generalize collectProgram (indexFixed fixed) remaining ix.programAddress = map
  induction ix.accounts generalizing map with
  | nil => rfl
  | cons acc rest ih => rw [List.foldl_cons, ih, keys_collectAccount, List.map_cons, List.foldl_cons]

private theorem keys_collect (ixs : List UserInstruction) :
    OrderedMap.keys (ixs.foldl (collectInstruction (indexFixed fixed)) remaining) =
      (ixs.flatMap (·.addresses)).foldl (visit fixed) remaining.keys := by
  induction ixs generalizing remaining with
  | nil => rfl
  | cons ix rest ih => rw [List.foldl_cons, ih, keys_collectInstruction, List.flatMap_cons, List.foldl_append]

end Visits

/-- Visiting addresses one by one keeps the first of each that is not fixed. -/
theorem foldl_visit (fixed keys : List Pubkey) :
    keys.foldl (visit fixed) [] = (keys.filter fun key => !fixed.contains key).eraseDups := by
  induction keys using List.reverseRecOn with
  | nil => rfl
  | append_singleton keys key ih =>
    rw [List.foldl_append, ih, List.foldl_cons, List.foldl_nil, List.filter_append, List.eraseDups_append]
    by_cases there : key ∈ fixed
    · rw [visit_eq_self (.inl there)]
      simp [there, List.removeAll]
    · by_cases known : key ∈ keys
      · rw [visit_eq_self (.inr (by simp [there, known]))]
        simp [there, known, List.removeAll]
      · rw [visit_eq_append there (by simp [known])]
        simp [there, known, List.removeAll, List.eraseDups_cons]

/-- The accounts behind the fixed ones, in order. -/
theorem keys_eq_newcomers (fixed : List Pubkey) (ixs : List UserInstruction) :
    OrderedMap.keys (ixs.foldl (collectInstruction (indexFixed fixed)) []) = newcomers fixed ixs :=
  (keys_collect [] ixs).trans (foldl_visit fixed _)

/-- The places of an address in a table whose new part lists it at most once. -/
theorem Placed.unique {fixed remaining : List Pubkey} (distinct : remaining.Nodup) {key : Pubkey} {first second : ℕ}
    (one : Placed fixed remaining key first) (two : Placed fixed remaining key second) : first = second := by
  by_cases there : key ∈ fixed
  · obtain ⟨place, here⟩ := List.mem_iff_getElem?.mp there
    have front {index : ℕ} (placed : Placed fixed remaining key index) : fixed[index]? = some key := by
      rw [← List.getElem?_append_left (placed.last place here).2]
      exact placed.stands
    exact le_antisymm (two.last first (front one)).1 (one.last second (front two)).1
  · have behind {index : ℕ} (placed : Placed fixed remaining key index) :
        fixed.length ≤ index ∧ remaining[index - fixed.length]? = some key := by
      have stands := placed.stands
      rcases Nat.lt_or_ge index fixed.length with low | high
      · rw [List.getElem?_append_left low] at stands
        exact absurd (List.mem_of_getElem? stands) there
      · rw [List.getElem?_append_right high] at stands
        exact ⟨high, stands⟩
    obtain ⟨low, here⟩ := behind one
    obtain ⟨low', here'⟩ := behind two
    have bound := (List.getElem?_eq_some_iff.mp here).1
    have same := (List.getElem?_inj bound distinct).mp (here.trans here'.symm)
    omega

private theorem encodeAccountIndex_eq_error {index : ℕ} {forwardSigner : Bool} {e : Error}
    (failed : encodeAccountIndex index forwardSigner = .error e) : maxAccountIndex < index := by
  simp only [encodeAccountIndex, Except.bind_eq_error, Except.ensure_eq_error] at failed
  rcases failed with ⟨large, _⟩ | ⟨_, _, failed⟩
  · exact Nat.lt_of_not_le large
  · exact absurd failed Except.ok_ne_error

/-- The error of an index above the ceiling which the layout would use. -/
def IndexTooLarge (fixed : List Pubkey) (ixs : List UserInstruction) (e : Error) : Prop :=
  ∃ index forwardSigner, UsesIndex fixed ixs index ∧ maxAccountIndex < index ∧
    encodeAccountIndex index forwardSigner = .error e

section Outcome

variable {fixed : List Pubkey} {ixs : List UserInstruction} {payer : Pubkey}

private theorem usesIndex_layoutIndexes {key : Pubkey} (named : Named ixs key) :
    UsesIndex fixed ixs (((layoutIndexes fixed ixs).get? key).getD 0) :=
  ⟨key, named, keys_eq_newcomers fixed ixs ▸ placed_layoutIndexes named⟩

private theorem buildCompactLayout_eq_error {e : Error} (failed : buildCompactLayout fixed ixs payer = .error e) :
    IndexTooLarge fixed ixs e := by
  have named {key : Pubkey} {forwardSigner : Bool} (here : Named ixs key)
      (failed : encodeAccountIndex (((layoutIndexes fixed ixs).get? key).getD 0) forwardSigner = .error e) :
      IndexTooLarge fixed ixs e :=
    ⟨_, forwardSigner, usesIndex_layoutIndexes here, encodeAccountIndex_eq_error failed, failed⟩
  simp only [buildCompactLayout, Except.bind_eq_error] at failed
  rcases failed with failed | ⟨_, _, failed⟩
  · obtain ⟨ix, member, failed⟩ := Except.exists_error_of_mapM failed
    simp only [compactInstruction, Except.bind_eq_error] at failed
    rcases failed with program | ⟨_, _, failed | ⟨_, _, failed⟩⟩
    · exact named ⟨ix, member, List.mem_cons_self ..⟩ program
    · obtain ⟨acc, listed, account⟩ := Except.exists_error_of_mapM failed
      exact named ⟨ix, member, List.mem_cons_of_mem _ (List.mem_map_of_mem listed)⟩ account
    · exact absurd failed Except.ok_ne_error
  · exact absurd failed Except.ok_ne_error

/-- A layout that is returned uses no index above the ceiling. -/
theorem small_of_layout {layout : CompactLayout} (built : buildCompactLayout fixed ixs payer = .ok layout) {index : ℕ}
    (used : UsesIndex fixed ixs index) : index ≤ maxAccountIndex := by
  obtain ⟨key, named, placed⟩ := used
  have distinct : (newcomers fixed ixs).Nodup := by
    have none : OrderedMap.keys ([] : OrderedMap Pubkey MutableMeta) = [] := rfl
    rw [← keys_eq_newcomers]
    exact nodup_collect _ (none ▸ List.nodup_nil) ixs
  have own : Placed fixed (newcomers fixed ixs) key (((layoutIndexes fixed ixs).get? key).getD 0) := by
    rw [← keys_eq_newcomers]
    exact placed_layoutIndexes named
  rw [placed.unique distinct own]
  simp only [buildCompactLayout, Except.bind_eq_ok, Except.ok.injEq] at built
  obtain ⟨compact, compacted, rfl⟩ := built
  rw [Except.mapM_eq_ok] at compacted
  obtain ⟨ix, member, here⟩ := named
  obtain ⟨c, _, one⟩ := compacted.flip.exists_left member
  simp only [compactInstruction, Except.bind_eq_ok, Except.mapM_eq_ok] at one
  obtain ⟨_, program, _, indexes, _⟩ := one
  have low {forwardSigner : Bool} {byte : UInt8}
      (success : encodeAccountIndex (((layoutIndexes fixed ixs).get? key).getD 0) forwardSigner = .ok byte) :
      ((layoutIndexes fixed ixs).get? key).getD 0 ≤ maxAccountIndex := by
    simp only [encodeAccountIndex, Except.bind_eq_ok, Except.ensure_eq_ok, exists_const] at success
    exact success.1
  rw [UserInstruction.addresses, List.mem_cons] at here
  rcases here with rfl | account
  · exact low program
  · obtain ⟨acc, listed, rfl⟩ := List.mem_map.mp account
    obtain ⟨byte, _, index⟩ := indexes.flip.exists_left listed
    exact low index

/-- The kit's layout throws for an index above the ceiling which it would use, or there is none and it decodes to the
user's instructions. -/
theorem compact_layout (fixed : List Pubkey) (ixs : List UserInstruction) (payer : Pubkey) :
    (∃ e, buildCompactLayout fixed ixs payer = .error e ∧ IndexTooLarge fixed ixs e) ∨
      ∃ layout, buildCompactLayout fixed ixs payer = .ok layout ∧ Faithful fixed ixs payer layout := by
  cases built : buildCompactLayout fixed ixs payer with
  | error e => exact .inl ⟨e, rfl, buildCompactLayout_eq_error built⟩
  | ok layout =>
    have granted := grantedBy_remainingAccounts built
    have addresses : layout.remainingAccounts.map (·.address) =
        (ixs.foldl (collectInstruction (indexFixed fixed)) []).keys := by
      simp only [buildCompactLayout, Except.bind_eq_ok, Except.ok.injEq] at built
      obtain ⟨_, _, rfl⟩ := built
      rw [List.map_map]
      rfl
    have distinct : (layout.remainingAccounts.map (·.address)).Nodup := by
      have none : OrderedMap.keys ([] : OrderedMap Pubkey MutableMeta) = [] := rfl
      rw [addresses]
      exact nodup_collect _ (none ▸ List.nodup_nil) ixs
    have apart : ∀ acc ∈ layout.remainingAccounts, acc.address ∉ fixed := by
      intro acc listed
      have key : acc.address ∈ layout.remainingAccounts.map (·.address) := List.mem_map_of_mem listed
      rw [addresses, OrderedMap.mem_keys_iff, has_foldl_collectInstruction] at key
      rw [← has_indexFixed, Bool.not_eq_true]
      exact (key.resolve_left (by simp [OrderedMap.has, OrderedMap.get?])).1
    have role (privilege : Privilege) {acc : RoleMeta} (listed : acc ∈ layout.remainingAccounts) :
        privilege.ofRole acc.role = declaredBy ixs privilege.ofRole acc.address := by
      rw [← grantedBy_of_nodup distinct listed privilege.ofRole, granted, decide_eq_true (apart acc listed),
        Bool.true_and]
    refine .inr ⟨layout, rfl, fun _ => small_of_layout built, addresses.trans (keys_eq_newcomers fixed ixs), distinct,
      apart, fun _ => role .signer, fun _ => role .writable, fun accounts keys => ?_⟩
    exact List.Forall₂.mp (fun ix compact stands forwards => expandsTo_of_stands stands forwards keys)
      (buildCompactLayout_eq_ok built) (forwards_of_layout built)

end Outcome

namespace Sample

/-- An outer instruction that lists its first account twice. -/
def outer : List Pubkey := [.fill 1, .fill 2, .fill 3, .fill 1]

/-- Names fixed accounts, newcomers more than once with different roles, and the payer as a signer. -/
def mixed : List UserInstruction := [
  ⟨.fill 9, [⟨.fill 3, .writable⟩, ⟨.fill 7, .readonly⟩, ⟨.fill 1, .writableSigner⟩], [5]⟩,
  ⟨.fill 7, [⟨.fill 7, .writable⟩, ⟨.fill 8, .readonlySigner⟩, ⟨.fill 9, .readonly⟩], []⟩]

/-- As many fixed accounts as indexes. -/
def crowded : List Pubkey := (List.range 128).map fun n => .fill (byteOf n)

end Sample

theorem compact_layout_sample :
    (∃ layout, buildCompactLayout Sample.outer Sample.mixed (.fill 1) = .ok layout ∧
      layout.compactInstructions = [⟨4, [2, 5, 3], [5]⟩, ⟨5, [5, 6 ||| accountIndexForwardSigner, 4], []⟩] ∧
      layout.remainingAccounts = [⟨.fill 9, .readonly⟩, ⟨.fill 7, .writable⟩, ⟨.fill 8, .readonlySigner⟩] ∧
      Faithful Sample.outer Sample.mixed (.fill 1) layout) ∧
    ∃ e, buildCompactLayout Sample.crowded [⟨.fill 200, [], []⟩] (.fill 1) = .error e ∧
      IndexTooLarge Sample.crowded [⟨.fill 200, [], []⟩] e := by
  constructor
  · have shape : (buildCompactLayout Sample.outer Sample.mixed (.fill 1)).toOption.map
        (fun layout => (layout.compactInstructions, layout.remainingAccounts)) =
        some ([⟨4, [2, 5, 3], [5]⟩, ⟨5, [5, 6 ||| accountIndexForwardSigner, 4], []⟩],
          [⟨.fill 9, .readonly⟩, ⟨.fill 7, .writable⟩, ⟨.fill 8, .readonlySigner⟩]) := by decide +kernel
    rcases compact_layout Sample.outer Sample.mixed (.fill 1) with ⟨e, failed, _⟩ | ⟨layout, built, faithful⟩
    · rw [failed] at shape
      cases shape
    · rw [built] at shape
      simp only [Except.toOption, Option.map_some, Option.some.injEq, Prod.mk.injEq] at shape
      exact ⟨layout, built, shape.1, shape.2, faithful⟩
  · have refused : (buildCompactLayout Sample.crowded [⟨.fill 200, [], []⟩] (.fill 1)).succeeded = false := by
      decide +kernel
    apply (compact_layout _ _ _).resolve_right
    rintro ⟨layout, built, _⟩
    rw [built] at refused
    cases refused

end LazorKit.Kit
