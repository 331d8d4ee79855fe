import LazorKit.Model.Kit.Packing
import LazorKit.Model.Legacy.Packing
import LazorKit.Proofs.InnerInstructions

/-! # Three accounts hashes

The program and both client libraries walk the accounts a list of compact instructions names, and hash each
one's key and privileges. The program reads the runtime's flags, the kit a role, the legacy library two flags
of its own. Over the same keys and privileges all three walk the same accounts in the same order, and all
three fail exactly when a masked index is out of range; the forward-signer bits play no role.
-/

namespace LazorKit

open Solana

/-- The account a table holds at an index. -/
def FoundAt {α : Type*} (table : List α) (index : ℕ) (found : α) : Prop := table[index]? = some found

/-- Looking up in a table that was mapped. -/
theorem forall₂_foundAt_map {α β : Type*} {f : α → β} {table : List α} {indices : List ℕ} {found : List β} :
    List.Forall₂ (FoundAt (table.map f)) indices found ↔
      ∃ originals, List.Forall₂ (FoundAt table) indices originals ∧ found = originals.map f := by
  induction indices generalizing found with
  | nil => simp
  | cons index rest ih =>
    simp only [List.forall₂_cons_left_iff, ih, FoundAt, List.getElem?_map, Option.map_eq_some_iff]
    constructor
    · rintro ⟨_, _, ⟨original, at_, rfl⟩, ⟨originals, others, rfl⟩, rfl⟩
      exact ⟨original :: originals, ⟨original, originals, at_, others, rfl⟩, rfl⟩
    · rintro ⟨_, ⟨original, originals, at_, others, rfl⟩, rfl⟩
      exact ⟨_, _, ⟨original, at_, rfl⟩, ⟨originals, others, rfl⟩, rfl⟩

/-- Every index is found exactly when every index is in range. -/
theorem exists_foundAt_iff {α : Type*} {table : List α} {indices : List ℕ} :
    (∃ found, List.Forall₂ (FoundAt table) indices found) ↔ ∀ index ∈ indices, index < table.length := by
  induction indices with
  | nil => simp
  | cons index rest ih =>
    simp only [List.forall₂_cons_left_iff, List.forall_mem_cons, ← ih]
    constructor
    · rintro ⟨_, original, originals, at_, others, rfl⟩
      exact ⟨(List.getElem?_eq_some_iff.mp at_).1, originals, others⟩
    · rintro ⟨inside, originals, others⟩
      exact ⟨_, table[index], originals, List.getElem?_eq_getElem inside, others, rfl⟩

/-- What the program hashes: the accounts found, each with its flags. -/
theorem accountsHashPreimage_iff {accounts : List AccountInfo} {ixs : List CompactInstruction} {preimage : Bytes} :
    accountsHashPreimage accounts ixs = .ok preimage ↔
      ∃ found, List.Forall₂ (FoundAt accounts) (ixs.flatMap CompactInstruction.hashedIndices) found ∧
        preimage = found.flatMap fun acc => acc.key.bytes ++ [accountFlags acc.isSigner acc.isWritable] := by
  have entry (index : ℕ) (bytes : Bytes) : accountsHashEntry accounts index = .ok bytes ↔
      FoundAt (accounts.map fun acc => acc.key.bytes ++ [accountFlags acc.isSigner acc.isWritable]) index bytes := by
    rw [accountsHashEntry_eq_ok, FoundAt, List.getElem?_map, Option.map_eq_some_iff]
    simp only [eq_comm]
  simp only [accountsHashPreimage, Except.bind_eq_ok, Except.mapM_eq_ok, Except.ok.injEq, entry, forall₂_foundAt_map]
  constructor
  · rintro ⟨_, ⟨found, walk, rfl⟩, rfl⟩
    exact ⟨found, walk, List.flatMap_def.symm⟩
  · rintro ⟨found, walk, rfl⟩
    exact ⟨_, ⟨found, walk, rfl⟩, List.flatMap_def.symm⟩

/-- A round that looks up one index, in a loop over the bytes of an instruction. -/
theorem collect_bytes {α : Type*} {table : List α} {part : α → List Bytes} {decode : UInt8 → ℕ}
    {f : List Bytes → UInt8 → Except Kit.Error (List Bytes)}
    (round : ∀ init byte result, f init byte = .ok result ↔
      ∃ found, table[decode byte]? = some found ∧ result = init ++ part found)
    {bytes : Bytes} {init result : List Bytes} :
    bytes.foldlM f init = .ok result ↔
      ∃ found, List.Forall₂ (FoundAt table) (bytes.map decode) found ∧ result = init ++ found.flatMap part := by
  rw [← List.flatMap_singleton' (bytes.map decode), List.flatMap_map]
  apply Except.foldlM_collect
  intro init byte result
  simp only [round, List.forall₂_cons_left_iff, List.forall₂_nil_left_iff]
  constructor
  · rintro ⟨found, at_, rfl⟩
    exact ⟨_, ⟨found, [], at_, rfl, rfl⟩, by simp⟩
  · rintro ⟨_, ⟨found, _, at_, rfl, rfl⟩, rfl⟩
    exact ⟨found, at_, by simp⟩

/-- The program of an instruction in front of its accounts. -/
theorem collect_instruction {α : Type*} {table : List α} {part : α → List Bytes}
    {f : List Bytes → UInt8 → Except Kit.Error (List Bytes)}
    (round : ∀ init byte result, f init byte = .ok result ↔
      ∃ found, table[(decodeAccountIndex byte).1]? = some found ∧ result = init ++ part found)
    {ix : CompactInstruction} {init result : List Bytes} :
    (∃ program, table[(decodeAccountIndex ix.programIdIndex).1]? = some program ∧
        ix.accounts.foldlM f (init ++ part program) = .ok result) ↔
      ∃ found, List.Forall₂ (FoundAt table) ix.hashedIndices found ∧ result = init ++ found.flatMap part := by
  simp only [collect_bytes round, CompactInstruction.hashedIndices, List.forall₂_cons_left_iff]
  constructor
  · rintro ⟨program, at_, found, rest, rfl⟩
    exact ⟨program :: found, ⟨program, found, at_, rest, rfl⟩, by rw [List.flatMap_cons, List.append_assoc]⟩
  · rintro ⟨_, ⟨program, found, at_, rest, rfl⟩, rfl⟩
    exact ⟨program, at_, found, rest, by rw [List.flatMap_cons, List.append_assoc]⟩

private theorem Kit.pushInstructionParts_eq_ok (metas : List Kit.RoleMeta) (parts : List Bytes)
    (ix : CompactInstruction) (result : List Bytes) :
    Kit.pushInstructionParts metas parts ix = .ok result ↔
      ∃ found, List.Forall₂ (FoundAt metas) ix.hashedIndices found ∧
        result = parts ++ found.flatMap Kit.accountParts := by
  rw [← collect_instruction (f := Kit.pushAccountParts metas)]
  · simp only [Kit.pushInstructionParts, Except.bind_eq_ok, Except.ofOption_eq_ok]
    rfl
  · intro init byte result
    simp only [Kit.pushAccountParts, Except.bind_eq_ok, Except.ofOption_eq_ok, Except.ok.injEq, @eq_comm _ result]
    rfl

private theorem Legacy.pushInstruction_eq_ok (metas : List AccountMeta) (parts : List Bytes) (ix : CompactInstruction)
    (result : List Bytes) :
    Legacy.pushInstruction metas parts ix = .ok result ↔
      ∃ found, List.Forall₂ (FoundAt metas) ix.hashedIndices found ∧
        result = parts ++ found.flatMap fun acc =>
          [acc.pubkey.bytes, [Legacy.accountFlags acc.isSigner acc.isWritable]] := by
  rw [← collect_instruction (f := Legacy.pushIndexed metas)]
  · simp only [Legacy.pushInstruction, Legacy.pushAccount, Except.bind_eq_ok, Except.ofOption_eq_ok, Except.ok.injEq]
    constructor
    · rintro ⟨_, ⟨program, at_, rfl⟩, rest⟩
      exact ⟨program, at_, rest⟩
    · rintro ⟨program, at_, rest⟩
      exact ⟨_, ⟨program, at_, rfl⟩, rest⟩
  · intro init byte result
    simp only [Legacy.pushIndexed, Legacy.pushAccount, Except.bind_eq_ok, Except.ofOption_eq_ok, Except.ok.injEq,
      @eq_comm _ result]
    rfl

/-- Hashing the parts a loop over the instructions collected. -/
theorem hash_collect {α : Type*} {table : List α} {part : α → List Bytes} {sha256 : Bytes → Bytes32}
    {f : List Bytes → CompactInstruction → Except Kit.Error (List Bytes)}
    (round : ∀ init ix result, f init ix = .ok result ↔
      ∃ found, List.Forall₂ (FoundAt table) ix.hashedIndices found ∧ result = init ++ found.flatMap part)
    {ixs : List CompactInstruction} {hash : Bytes32} :
    (do let parts ← ixs.foldlM f []
        .ok (sha256 (Kit.concatBytes parts)) : Except Kit.Error Bytes32) = .ok hash ↔
      ∃ found, List.Forall₂ (FoundAt table) (ixs.flatMap CompactInstruction.hashedIndices) found ∧
        hash = sha256 (found.flatMap fun acc => (part acc).flatten) := by
  have parts (found : List α) : Kit.concatBytes (found.flatMap part) = found.flatMap fun acc => (part acc).flatten := by
    induction found with
    | nil => rfl
    | cons acc rest ih =>
      rw [Kit.concatBytes] at ih ⊢
      rw [List.flatMap_cons, List.flatten_append, ih, List.flatMap_cons]
  simp only [Except.bind_eq_ok, Except.foldlM_collect round, List.nil_append, Except.ok.injEq]
  constructor
  · rintro ⟨_, ⟨found, walk, rfl⟩, rfl⟩
    exact ⟨found, walk, by rw [parts]⟩
  · rintro ⟨found, walk, rfl⟩
    exact ⟨_, ⟨found, walk, rfl⟩, by rw [parts]⟩

theorem Kit.computeAccountsHash_eq_ok {sha256 : Bytes → Bytes32} {metas : List Kit.RoleMeta}
    {ixs : List CompactInstruction} {hash : Bytes32} :
    Kit.computeAccountsHash sha256 metas ixs = .ok hash ↔
      ∃ found, List.Forall₂ (FoundAt metas) (ixs.flatMap CompactInstruction.hashedIndices) found ∧
        hash = sha256 (found.flatMap fun acc => acc.address.bytes ++ [Kit.flagsOf acc]) :=
  hash_collect (Kit.pushInstructionParts_eq_ok metas)

theorem Legacy.computeAccountsHash_eq_ok {sha256 : Bytes → Bytes32} {metas : List AccountMeta}
    {ixs : List CompactInstruction} {hash : Bytes32} :
    Legacy.computeAccountsHash sha256 metas ixs = .ok hash ↔
      ∃ found, List.Forall₂ (FoundAt metas) (ixs.flatMap CompactInstruction.hashedIndices) found ∧
        hash = sha256 (found.flatMap fun acc =>
          acc.pubkey.bytes ++ [Legacy.accountFlags acc.isSigner acc.isWritable]) :=
  hash_collect (Legacy.pushInstruction_eq_ok metas)

namespace Kit.RoleMeta

/-- The role's bits as the runtime's flags: bit 1 signer, bit 0 writable. -/
def toInfo (acc : RoleMeta) : AccountInfo := ⟨acc.address, acc.role.bits.testBit 1, acc.role.bits.testBit 0⟩

/-- The same account in the legacy library. -/
def toLegacy (acc : RoleMeta) : AccountMeta := ⟨acc.address, acc.role.bits.testBit 1, acc.role.bits.testBit 0⟩

theorem flagsOf_eq (acc : RoleMeta) :
    flagsOf acc = LazorKit.accountFlags (acc.role.bits.testBit 1) (acc.role.bits.testBit 0) := by
  rw [flagsOf]
  cases acc.role <;> decide

end Kit.RoleMeta

/-- A compact instruction without its forward-signer bits. -/
def CompactInstruction.clearForward (ix : CompactInstruction) : CompactInstruction :=
  ⟨ix.programIdIndex &&& 0x7f, ix.accounts.map (· &&& 0x7f), ix.data⟩

private theorem decodeAccountIndex_clear (byte : UInt8) :
    (decodeAccountIndex (byte &&& 0x7f)).1 = (decodeAccountIndex byte).1 := by
  rw [decodeAccountIndex, decodeAccountIndex, UInt8.and_assoc]
  rfl

private theorem hashedIndices_clearForward (ix : CompactInstruction) :
    ix.clearForward.hashedIndices = ix.hashedIndices := by
  simp only [CompactInstruction.hashedIndices, CompactInstruction.clearForward, decodeAccountIndex_clear, List.map_map]
  congr 1
  exact List.map_congr_left fun byte _ => decodeAccountIndex_clear byte

/-- The three hashes over one table of keys and privileges. -/
structure AccountsHashAgree (rt : Runtime) (metas : List Kit.RoleMeta) (ixs : List CompactInstruction) : Prop where
  program : ∀ hash, Kit.computeAccountsHash rt.sha256 metas ixs = .ok hash ↔
    ∃ preimage, accountsHashPreimage (metas.map (·.toInfo)) ixs = .ok preimage ∧ hash = rt.sha256 preimage
  legacy : ∀ hash, Kit.computeAccountsHash rt.sha256 metas ixs = .ok hash ↔
    Legacy.computeAccountsHash rt.sha256 (metas.map (·.toLegacy)) ixs = .ok hash
  succeeds : (∃ hash, Kit.computeAccountsHash rt.sha256 metas ixs = .ok hash) ↔
    ∀ ix ∈ ixs, ∀ index ∈ ix.hashedIndices, index < metas.length
  forward : ∀ hash, Kit.computeAccountsHash rt.sha256 metas ixs = .ok hash ↔
    Kit.computeAccountsHash rt.sha256 metas (ixs.map (·.clearForward)) = .ok hash

/-- The three accounts hashes are equal, fail together, and do not look at the forward-signer bits. -/
theorem accounts_hash_agree (rt : Runtime) (metas : List Kit.RoleMeta) (ixs : List CompactInstruction) :
    AccountsHashAgree rt metas ixs where
  program hash := by
    simp only [Kit.computeAccountsHash_eq_ok, accountsHashPreimage_iff, forall₂_foundAt_map]
    constructor
    · rintro ⟨found, walk, rfl⟩
      refine ⟨_, ⟨_, ⟨found, walk, rfl⟩, rfl⟩, ?_⟩
      simp only [List.flatMap_map, Kit.RoleMeta.flagsOf_eq, Kit.RoleMeta.toInfo]
    · rintro ⟨_, ⟨_, ⟨found, walk, rfl⟩, rfl⟩, rfl⟩
      refine ⟨found, walk, ?_⟩
      simp only [List.flatMap_map, Kit.RoleMeta.flagsOf_eq, Kit.RoleMeta.toInfo]
  legacy hash := by
    simp only [Kit.computeAccountsHash_eq_ok, Legacy.computeAccountsHash_eq_ok, forall₂_foundAt_map]
    constructor
    · rintro ⟨found, walk, rfl⟩
      refine ⟨_, ⟨found, walk, rfl⟩, ?_⟩
      simp only [List.flatMap_map, Kit.RoleMeta.flagsOf_eq, Kit.RoleMeta.toLegacy]
      rfl
    · rintro ⟨_, ⟨found, walk, rfl⟩, rfl⟩
      refine ⟨found, walk, ?_⟩
      simp only [List.flatMap_map, Kit.RoleMeta.flagsOf_eq, Kit.RoleMeta.toLegacy]
      rfl
  succeeds := by
    have range : (∀ ix ∈ ixs, ∀ index ∈ ix.hashedIndices, index < metas.length) ↔
        ∀ index ∈ ixs.flatMap CompactInstruction.hashedIndices, index < metas.length := by
      simp only [List.mem_flatMap]
      exact ⟨fun each index ⟨ix, member, here⟩ => each ix member index here,
        fun each ix member index here => each index ⟨ix, member, here⟩⟩
    rw [range, ← exists_foundAt_iff]
    simp only [Kit.computeAccountsHash_eq_ok]
    exact ⟨fun ⟨_, found, walk, _⟩ => ⟨found, walk⟩, fun ⟨found, walk⟩ => ⟨_, found, walk, rfl⟩⟩
  forward hash := by
    simp only [Kit.computeAccountsHash_eq_ok, List.flatMap_map, hashedIndices_clearForward]

end LazorKit
