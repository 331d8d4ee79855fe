import LazorKit.Proofs.InnerInstructions
import LazorKit.Proofs.RunRefine
import LazorKit.Soundness.KitExecutes

/-! # The kit's deferred execution under the program

An Authorize signs the accounts hash of a second transaction whose sender may change. What the hash says about
a key depends on who sends that transaction in two cases only: the key is the executor the hash was computed
for, or it is the sender. The client refuses another sender when an inner instruction names the payer slot or
the refund slot. That is not enough: a sender that an inner instruction names behind the fixed accounts becomes
a signer there, and the program then computes another hash than the one it stored.
-/

namespace LazorKit

open Solana

namespace Kit

section Slots

variable {executor walletPda vaultPda deferredExecPda payer key : Pubkey} {remaining : List Pubkey} {index : ℕ}

private theorem Placed.refundSlot_iff (placed : Placed [executor, walletPda, vaultPda, deferredExecPda, payer]
    remaining key index) :
    index = 4 ↔ key = payer := by
  constructor
  · rintro rfl
    exact (Option.some.inj placed.stands).symm
  · rintro rfl
    obtain ⟨low, high⟩ := placed.last 4 rfl
    rw [List.length_cons] at high
    exact Nat.le_antisymm (Nat.le_of_lt_succ high) low

/-- The payer's slot is named only for an executor that is none of the other fixed accounts. -/
theorem Placed.payerSlot_iff (placed : Placed [executor, walletPda, vaultPda, deferredExecPda, payer]
    remaining key index) :
    index = 0 ↔ key = executor ∧ executor ∉ [walletPda, vaultPda, deferredExecPda] ∧ executor ≠ payer := by
  constructor
  · rintro rfl
    have own : executor = key := Option.some.inj placed.stands
    subst own
    refine ⟨rfl, fun listed => ?_, fun same => ?_⟩
    · obtain ⟨place, here⟩ := List.getElem?_of_mem listed
      have low := (placed.last (place + 1) ?_).1
      · cases low
      · rw [List.getElem?_cons_succ]
        exact List.getElem?_append_left (List.getElem?_eq_some_iff.mp here).1 ▸ here
    · cases (placed.last 4 (congrArg some same.symm)).1
  · rintro ⟨rfl, other, apart⟩
    simp only [List.mem_cons, List.not_mem_nil, or_false, not_or] at other
    obtain ⟨-, high⟩ := placed.last 0 rfl
    have stands := placed.stands
    match index, high with
    | 0, _ => rfl
    | 1, _ => exact absurd (Option.some.inj stands).symm other.1
    | 2, _ => exact absurd (Option.some.inj stands).symm other.2.1
    | 3, _ => exact absurd (Option.some.inj stands).symm other.2.2
    | 4, _ => exact absurd (Option.some.inj stands).symm apart

end Slots

private theorem namesDeferredPayerSlot_eq_true {compact : List CompactInstruction} :
    namesDeferredPayerSlot compact = true ↔
      ∃ index ∈ compact.flatMap CompactInstruction.hashedIndices, index = 0 ∨ index = 4 := by
  have slot (byte : UInt8) : (decodeAccountIndex byte).1 = (LazorKit.decodeAccountIndex byte).1 := rfl
  simp only [namesDeferredPayerSlot, List.any_eq_true, Bool.or_eq_true, decide_eq_true_eq, List.mem_flatMap,
    CompactInstruction.hashedIndices, slot]
  constructor
  · rintro ⟨ix, member, program | ⟨byte, listed, account⟩⟩
    · exact ⟨_, ⟨ix, member, List.mem_cons_self ..⟩, program⟩
    · exact ⟨_, ⟨ix, member, List.mem_cons_of_mem _ (List.mem_map_of_mem listed)⟩, account⟩
  · rintro ⟨index, ⟨ix, member, listed⟩, named⟩
    rcases List.mem_cons.mp listed with rfl | account
    · exact ⟨ix, member, .inl named⟩
    · obtain ⟨byte, own, rfl⟩ := List.mem_map.mp account
      exact ⟨ix, member, .inr ⟨byte, own, named⟩⟩

/-- What the guard refuses, in the user's words. -/
theorem namesDeferredPayerSlot_iff {executor walletPda vaultPda deferredExecPda payer : Pubkey}
    {remaining : List Pubkey} {ixs : List UserInstruction} {compact : List CompactInstruction}
    (stands : List.Forall₂ (StandsFor (Placed [executor, walletPda, vaultPda, deferredExecPda, payer] remaining))
      ixs compact) :
    namesDeferredPayerSlot compact = true ↔
      Named ixs payer ∨ Named ixs executor ∧ executor ∉ [walletPda, vaultPda, deferredExecPda] := by
  rw [namesDeferredPayerSlot_eq_true]
  constructor
  · rintro ⟨index, hashed, slot⟩
    obtain ⟨key, named, placed⟩ := named_of_hashed stands hashed
    rcases slot with payerSlot | refundSlot
    · obtain ⟨rfl, other, -⟩ := placed.payerSlot_iff.mp payerSlot
      exact .inr ⟨named, other⟩
    · exact .inl (placed.refundSlot_iff.mp refundSlot ▸ named)
  · rintro (named | ⟨named, other⟩)
    · obtain ⟨index, hashed, placed⟩ := hashed_of_named stands named
      exact ⟨index, hashed, .inr (placed.refundSlot_iff.mpr rfl)⟩
    · obtain ⟨index, hashed, placed⟩ := hashed_of_named stands named
      refine ⟨index, hashed, ?_⟩
      rcases eq_or_ne executor payer with same | apart
      · exact .inr (placed.refundSlot_iff.mpr same)
      · exact .inl (placed.payerSlot_iff.mpr ⟨rfl, other, apart⟩)

/-- The accounts of tx2 when a key sends it. -/
def deferredTable (vaultPda refundDest : Pubkey) (payload : DeferredPayload) (sender : Pubkey) : List RoleMeta :=
  deferredFixedAccounts sender payload.walletPda vaultPda payload.deferredExecPda refundDest ++
    payload.remainingAccounts

/-- What all senders have in common. -/
def deferredTail (vaultPda refundDest : Pubkey) (payload : DeferredPayload) : List RoleMeta :=
  (deferredTable vaultPda refundDest payload refundDest).tail

section Senders

variable {vaultPda refundDest : Pubkey} {payload : DeferredPayload} {executor sender : Pubkey}

private theorem foreseen_deferredTable (privilege : Privilege) (key : Pubkey) :
    foreseen (deferredTable vaultPda refundDest payload sender) none privilege.ofRole key =
      (decide (sender = key) || grantedBy (deferredTail vaultPda refundDest payload) privilege.ofRole key) := by
  simp [foreseen, grantedBy, deferredTable, deferredTail, deferredFixedAccounts, privilege.ofRole_writableSigner]

/-- Whether another sender leaves a key's privileges as they were. -/
theorem foreseen_deferredTable_congr_iff (other : sender ≠ executor) {key : Pubkey} :
    (∀ privilege : Privilege, foreseen (deferredTable vaultPda refundDest payload sender) none privilege.ofRole key =
        foreseen (deferredTable vaultPda refundDest payload executor) none privilege.ofRole key) ↔
      (key = sender ∨ key = executor → ∀ privilege : Privilege,
        grantedBy (deferredTail vaultPda refundDest payload) privilege.ofRole key = true) := by
  simp only [foreseen_deferredTable]
  constructor
  · rintro same (rfl | rfl) privilege
    · simpa [other.symm] using (same privilege).symm
    · simpa [other] using same privilege
  · intro full privilege
    by_cases involved : key = sender ∨ key = executor
    · rw [full involved privilege, Bool.or_true, Bool.or_true]
    · rw [not_or] at involved
      simp [Ne.symm involved.1, Ne.symm involved.2]

private theorem deferredTable_getElem? (sender executor : Pubkey) {index : ℕ} (behind : index ≠ 0) :
    (deferredTable vaultPda refundDest payload sender)[index]? =
      (deferredTable vaultPda refundDest payload executor)[index]? := by
  cases index with
  | zero => exact absurd rfl behind
  | succ index => rfl

/-- The accounts of tx2 as the runtime reports them when a key sends it. -/
def sentAccounts (vaultPda refundDest : Pubkey) (payload : DeferredPayload) (sender : Pubkey) : List AccountInfo :=
  let metas := deferredTable vaultPda refundDest payload sender
  tableInfos metas (foreseen metas none (·.isSigner)) (foreseen metas none (·.isWritable))

/-- Two senders lead to the same hashed accounts if the keys the user named keep their privileges, and only then. -/
theorem sentAccounts_congr_iff {place : Pubkey → ℕ → Prop} {ixs : List UserInstruction}
    {batch : List CompactInstruction} (stands : List.Forall₂ (StandsFor place) ixs batch)
    (table : ∀ index ∈ batch.flatMap CompactInstruction.hashedIndices, ∀ key, place key index →
      ((deferredTable vaultPda refundDest payload executor).map (·.address))[index]? = some key ∧ index ≠ 0) :
    (∀ index ∈ batch.flatMap CompactInstruction.hashedIndices,
        (sentAccounts vaultPda refundDest payload sender)[index]? =
          (sentAccounts vaultPda refundDest payload executor)[index]?) ↔
      ∀ key, Named ixs key → ∀ privilege : Privilege,
        foreseen (deferredTable vaultPda refundDest payload sender) none privilege.ofRole key =
          foreseen (deferredTable vaultPda refundDest payload executor) none privilege.ofRole key := by
  have entry {key : Pubkey} {index : ℕ} (hashed : index ∈ batch.flatMap CompactInstruction.hashedIndices)
      (placed : place key index) :
      (sentAccounts vaultPda refundDest payload sender)[index]? =
          (sentAccounts vaultPda refundDest payload executor)[index]? ↔
        ∀ privilege : Privilege, foreseen (deferredTable vaultPda refundDest payload sender) none privilege.ofRole key =
          foreseen (deferredTable vaultPda refundDest payload executor) none privilege.ofRole key := by
    obtain ⟨at_, behind⟩ := table index hashed key placed
    rw [List.getElem?_map, Option.map_eq_some_iff] at at_
    obtain ⟨acc, found, rfl⟩ := at_
    simp only [sentAccounts, tableInfos, List.getElem?_map, found, deferredTable_getElem? sender executor behind,
      Option.map_some, Option.some.injEq, AccountInfo.mk.injEq, true_and]
    constructor
    · rintro ⟨signs, writes⟩ privilege
      cases privilege with
      | signer => exact signs
      | writable => exact writes
    · intro same
      exact ⟨same .signer, same .writable⟩
  constructor
  · intro same key named
    obtain ⟨index, hashed, placed⟩ := hashed_of_named stands named
    exact (entry hashed placed).mp (same index hashed)
  · intro same index hashed
    obtain ⟨key, named, placed⟩ := named_of_hashed stands hashed
    exact (entry hashed placed).mpr (same key named)

/-- The accounts behind the sender give a key both privileges only where the user's instructions ask for both. -/
theorem grantedBy_deferredTail_iff {ixs : List UserInstruction} {batch : List CompactInstruction}
    (built :
      buildCompactLayout [executor, payload.walletPda, vaultPda, payload.deferredExecPda, refundDest] ixs executor =
      .ok ⟨batch, payload.remainingAccounts⟩) {key : Pubkey} :
    (∀ privilege : Privilege, grantedBy (deferredTail vaultPda refundDest payload) privilege.ofRole key = true) ↔
      key ∉ [executor, payload.walletPda, vaultPda, payload.deferredExecPda, refundDest] ∧
        ∀ privilege : Privilege, declaredBy ixs privilege.ofRole key = true := by
  have behind (privilege : Privilege) := grantedBy_remainingAccounts built privilege key
  have split (privilege : Privilege) : grantedBy (deferredTail vaultPda refundDest payload) privilege.ofRole key =
      (grantedBy [⟨vaultPda, .writable⟩, ⟨payload.deferredExecPda, .writable⟩, ⟨refundDest, .writable⟩] privilege.ofRole
        key || grantedBy payload.remainingAccounts privilege.ofRole key) := by
    simp [grantedBy, deferredTail, deferredTable, deferredFixedAccounts, privilege.ofRole_readonly, Bool.or_assoc]
  constructor
  · intro full
    have signs := full .signer
    rw [split, behind, Bool.or_eq_true, Bool.and_eq_true, decide_eq_true_eq] at signs
    have apart := (signs.resolve_left (by simp [grantedBy, Privilege.ofRole, AccountRole.isSigner])).1
    refine ⟨apart, fun privilege => ?_⟩
    have granted := full privilege
    rw [split, behind, Bool.or_eq_true, Bool.and_eq_true] at granted
    refine (granted.resolve_left fun fixed => apart ?_).2
    simp only [grantedBy, List.any_cons, List.any_nil, Bool.or_false, Bool.or_eq_true, Bool.and_eq_true,
      decide_eq_true_eq] at fixed
    simp only [List.mem_cons, List.not_mem_nil, or_false]
    rcases fixed with ⟨rfl, -⟩ | ⟨rfl, -⟩ | ⟨rfl, -⟩
    · exact .inr (.inr (.inl rfl))
    · exact .inr (.inr (.inr (.inl rfl)))
    · exact .inr (.inr (.inr (.inr rfl)))
  · rintro ⟨apart, declared⟩ privilege
    rw [split, behind, declared privilege, decide_eq_true apart, Bool.and_self, Bool.or_true]

end Senders

/-- The hashes ExecuteDeferred compares with the stored ones. -/
def deferredHashes (rt : Runtime) (accounts : List AccountInfo) (data : Bytes) :
    Except ProgramError (Bytes32 × Bytes32) := do
  let parsed ← parseCompactInstructionsRefWithLen data
  let accountsHash ← LazorKit.computeAccountsHash rt accounts parsed.1
  .ok (rt.sha256 (data.take parsed.2), accountsHash)

/-- A transaction from the payload, sent by this payer, has the program compute these hashes over the accounts in
front of the fee accounts, unless the client refuses to build it. -/
def HashesMatch (dep : Deployment) (fees : FeeReads) (sender : Pubkey) (payload : DeferredPayload)
    (instructionsHash accountsHash : Bytes32) : Prop :=
  ∀ instructions, executeDeferredFromPayload dep.toRuntime fees sender payload none = .ok instructions →
    ∃ before ix data, instructions = before ++ [ix] ∧ ix.programId = dep.programId ∧
      ix.data = discExecuteDeferred :: data ∧
      let accounts := Transaction.accountsOf ⟨instructions, sender⟩ ix
      deferredHashes dep.toRuntime (accounts.take (accounts.length - 4)) data = .ok (instructionsHash, accountsHash)

/-- When a payer can send tx2: it is the executor, or the client refuses, or no inner instruction names the
executor and one that names the payer leaves its privileges as they are. -/
def Sendable (dep : Deployment) (fees : FeeReads) (params : PrepareAuthorizeParams) (deferredExecPda sender : Pubkey) :
    Prop :=
  let executor := params.executor.getD params.payer
  let own := [params.walletPda, findVault dep.toRuntime params.walletPda, deferredExecPda]
  sender = executor ∨
    (∃ error, resolveProtocolFeeWithRegister dep.toRuntime fees sender = .error error) ∨
    Named params.instructions params.payer ∨
    Named params.instructions executor ∧ executor ∉ own ∨
    ¬Named params.instructions executor ∧ (Named params.instructions sender → sender ∉ own ∧
      ∀ privilege : Privilege, declaredBy params.instructions privilege.ofRole sender = true)

private theorem foretold_deferred {rt : Runtime} {payload : DeferredPayload} {vaultPda refundDest sender : Pubkey}
    {packed : Bytes}
    {fee : ProtocolFeeAccounts} {register : Option Instruction} (attached : FeeAttached rt sender fee register)
    (privilege : Privilege) :
    Foretold ⟨register.toList ++ [createExecuteDeferredIx ⟨sender, payload.walletPda, vaultPda, payload.deferredExecPda,
        refundDest, packed, payload.remainingAccounts, some fee, rt.programId⟩], sender⟩
      (createExecuteDeferredIx ⟨sender, payload.walletPda, vaultPda, payload.deferredExecPda, refundDest, packed,
        payload.remainingAccounts, some fee, rt.programId⟩)
      (deferredTable vaultPda refundDest payload sender) fee none privilege where
  last := by
    refine ⟨register.toList, rfl, fun other member acc listed granted => ?_⟩
    apply (attached.harmless privilege member listed granted).imp id
    intro payer
    rw [payer]
    exact foreseen_head ..
  accounts := rfl
  paid := foreseen_head ..
  declared := nofun

/-- Tx2 as the client builds it, and when it does. -/
theorem executeDeferredFromPayload_eq_ok {rt : Runtime} {fees : FeeReads} {sender executor payer : Pubkey}
    {payload : DeferredPayload} {instructions : List Instruction} (layered : fees.protocolFees = true)
    (signedFor : payload.executor = some executor) (refund : payload.refundDestination = some payer) :
    executeDeferredFromPayload rt fees sender payload none = .ok instructions ↔
      (sender = executor ∨ namesDeferredPayerSlot payload.compactInstructions = false) ∧
        ∃ fee register, resolveProtocolFeeWithRegister rt fees sender = .ok (some (fee, register)) ∧
          instructions = register.toList ++ [createExecuteDeferredIx ⟨sender, payload.walletPda,
            findVault rt payload.walletPda, payload.deferredExecPda, payer,
            packCompactInstructions payload.compactInstructions, payload.remainingAccounts, some fee,
              rt.programId⟩] := by
  simp only [executeDeferredFromPayload, Except.bind_eq_ok, Except.ensure_eq_ok, exists_const, signedFor, refund,
    Option.none_or, Option.getD_some, Except.ok.injEq]
  refine and_congr ?_ ⟨?_, ?_⟩
  · cases namesDeferredPayerSlot payload.compactInstructions <;> simp [eq_comm]
  · rintro ⟨result, resolved, rfl⟩
    obtain ⟨fee, register, rfl, _⟩ := resolveProtocolFeeWithRegister_eq_ok layered resolved
    exact ⟨fee, register, resolved, rfl⟩
  · rintro ⟨fee, register, resolved, rfl⟩
    exact ⟨_, resolved, rfl⟩

/-- The two hashes of tx2. -/
theorem deferredHashes_eq_ok {rt : Runtime} {payload : DeferredPayload} {vaultPda refundDest sender : Pubkey}
    {fee : ProtocolFeeAccounts} {register : Option Instruction} {place : Pubkey → ℕ → Prop} {ixs : List UserInstruction}
    {ix : Instruction} (attached : FeeAttached rt sender fee register) (wire : WithinWire ixs)
    (stands : List.Forall₂ (StandsFor place) ixs payload.compactInstructions)
    (table : ∀ index ∈ payload.compactInstructions.flatMap CompactInstruction.hashedIndices, ∀ key, place key index →
      ((deferredTable vaultPda refundDest payload sender).map (·.address))[index]? = some key)
    (plain : ∀ key, Named ixs key → key ∉ fee.keys)
    (made : ix = createExecuteDeferredIx ⟨sender, payload.walletPda, vaultPda, payload.deferredExecPda, refundDest,
      packCompactInstructions payload.compactInstructions, payload.remainingAccounts, some fee, rt.programId⟩)
    {instructionsHash accountsHash : Bytes32} :
    deferredHashes rt
        ((Transaction.accountsOf ⟨register.toList ++ [ix], sender⟩ ix).take
          ((Transaction.accountsOf ⟨register.toList ++ [ix], sender⟩ ix).length - 4))
        (packCompactInstructions payload.compactInstructions) = .ok (instructionsHash, accountsHash) ↔
      computeInstructionsHash rt.sha256 payload.compactInstructions = instructionsHash ∧
        LazorKit.computeAccountsHash rt (sentAccounts vaultPda refundDest payload sender) payload.compactInstructions =
          .ok accountsHash := by
  have foretold (privilege : Privilege) := made ▸ foretold_deferred attached privilege
  have parsed := parse_packCompactInstructions wire stands []
  rw [List.append_nil] at parsed
  have hash := Foretold.computeAccountsHash_eq rt foretold stands table plain
  have front : (Transaction.accountsOf ⟨register.toList ++ [ix], sender⟩ ix).take
      ((Transaction.accountsOf ⟨register.toList ++ [ix], sender⟩ ix).length - 4) = tableInfos
        (deferredTable vaultPda refundDest payload sender)
        (Transaction.grants ⟨register.toList ++ [ix], sender⟩ (·.isSigner))
        (Transaction.grants ⟨register.toList ++ [ix], sender⟩ (·.isWritable)) := by
    rw [(foretold .signer).accountsOf_eq, List.length_append, List.length_map]
    exact List.take_left
  rw [front, deferredHashes, parsed]
  simp only [Except.bind_eq_ok, Except.ok.injEq, Prod.mk.injEq]
  constructor
  · rintro ⟨_, rfl, computed, digest, rfl, rfl⟩
    rw [List.take_length]
    exact ⟨rfl, hash.symm.trans digest⟩
  · rintro ⟨rfl, digest⟩
    refine ⟨_, rfl, _, hash.trans digest, ?_, rfl⟩
    rw [List.take_length]
    rfl

/-- What an Authorize with this data leaves in the deferred account. -/
def Stores (dep : Deployment) (data : Bytes) (instructionsHash accountsHash : Bytes32) : Prop :=
  ∀ fr accounts m m', processAuthorize dep fr accounts data m = .ok m' →
    ∃ deferredPda, accounts[3]? = some deferredPda ∧
    (DeferredExecAccount.read (m'.data deferredPda.key)).instructionsHash = instructionsHash ∧
    (DeferredExecAccount.read (m'.data deferredPda.key)).accountsHash = accountsHash

private theorem stores_readKey (dep : Deployment) (data : Bytes) :
    Stores dep data (readKey data 0) (readKey data 32) := by
  intro fr accounts m m' success
  simp only [processAuthorize, Except.bind_eq_ok, Except.ensure_eq_ok, exists_const, accountAt_eq_ok] at success
  obtain ⟨_, _, _, _, _, _, deferredPda, there, _, _, _, _, _, _, _, _, _, _, _, _, _, _, _, _, _, _, _, bound, _, made,
    creation, store⟩ := success
  have created := initializePdaAccount_eq_ok creation (dep.rent.minimumBalance_pos _)
  obtain ⟨stored, -, -⟩ := writeData_eq_ok store
  rw [created.data_self, splice_whole (by simp)] at stored
  refine ⟨deferredPda, there, ?_⟩
  rw [stored.data_self, DeferredExecAccount.read_toBytes _ bound]
  exact ⟨rfl, rfl⟩

private theorem stores_append (dep : Deployment) (instructionsHash accountsHash : Bytes32) (rest : Bytes) :
    Stores dep (instructionsHash.bytes ++ (accountsHash.bytes ++ rest)) instructionsHash accountsHash := by
  have stores := stores_readKey dep (instructionsHash.bytes ++ (accountsHash.bytes ++ rest))
  have first : readKey (instructionsHash.bytes ++ (accountsHash.bytes ++ rest)) 0 = instructionsHash :=
    readKey_of_slice (List.take_left' instructionsHash.length_bytes)
  have second : readKey (instructionsHash.bytes ++ (accountsHash.bytes ++ rest)) 32 = accountsHash := by
    apply readKey_of_slice
    rw [Bytes.slice, List.drop_left' instructionsHash.length_bytes]
    exact List.take_left' accountsHash.length_bytes
  rwa [first, second] at stores

/-- A payload that was authorized with this hash. -/
structure Authorized (rt : Runtime) (ixs : List UserInstruction) (executor payer : Pubkey) (payload : DeferredPayload)
    (accountsHash : Bytes32) : Prop where
  signedFor : payload.executor = some executor
  refund : payload.refundDestination = some payer
  built : buildCompactLayout
    [executor, payload.walletPda, findVault rt payload.walletPda, payload.deferredExecPda, payer] ixs executor =
      .ok ⟨payload.compactInstructions, payload.remainingAccounts⟩
  hashed : LazorKit.computeAccountsHash rt (sentAccounts (findVault rt payload.walletPda) payer payload executor)
    payload.compactInstructions = .ok accountsHash

namespace Authorized

variable {rt : Runtime} {ixs : List UserInstruction} {executor payer sender : Pubkey} {payload : DeferredPayload}
  {accountsHash : Bytes32}

theorem stands (authorized : Authorized rt ixs executor payer payload accountsHash) :
    List.Forall₂ (StandsFor (Placed [executor, payload.walletPda, findVault rt payload.walletPda,
      payload.deferredExecPda, payer] (payload.remainingAccounts.map (·.address)))) ixs payload.compactInstructions :=
  buildCompactLayout_eq_ok authorized.built

theorem behind (unnamed : namesDeferredPayerSlot payload.compactInstructions = false) {index : ℕ}
    (hashed : index ∈ payload.compactInstructions.flatMap CompactInstruction.hashedIndices) : index ≠ 0 := by
  rintro rfl
  rw [namesDeferredPayerSlot_eq_true.mpr ⟨0, hashed, .inl rfl⟩] at unnamed
  cases unnamed

/-- An index the client let through stands for one address, whoever sends tx2. -/
theorem table (allowed : sender = executor ∨ namesDeferredPayerSlot payload.compactInstructions = false) {index : ℕ}
    (hashed : index ∈ payload.compactInstructions.flatMap CompactInstruction.hashedIndices) {key : Pubkey}
    (placed : Placed [executor, payload.walletPda, findVault rt payload.walletPda, payload.deferredExecPda, payer]
      (payload.remainingAccounts.map (·.address)) key index) :
    ((deferredTable (findVault rt payload.walletPda) payer payload sender).map (·.address))[index]? = some key := by
  have listed : ((deferredTable (findVault rt payload.walletPda) payer payload executor).map (·.address))[index]? =
      some key := by
    rw [deferredTable, List.map_append]
    exact placed.stands
  rcases allowed with rfl | unnamed
  · exact listed
  · rw [List.getElem?_map, deferredTable_getElem? sender executor (behind unnamed hashed), ← List.getElem?_map]
    exact listed

/-- The privileges of another sender's transaction, at the keys the user named. -/
theorem congr_iff (authorized : Authorized rt ixs executor payer payload accountsHash)
    (unnamed : namesDeferredPayerSlot payload.compactInstructions = false) (other : sender ≠ executor) :
    (∀ index ∈ payload.compactInstructions.flatMap CompactInstruction.hashedIndices,
        (sentAccounts (findVault rt payload.walletPda) payer payload sender)[index]? =
          (sentAccounts (findVault rt payload.walletPda) payer payload executor)[index]?) ↔
      ¬Named ixs executor ∧ (Named ixs sender →
        sender ∉ [payload.walletPda, findVault rt payload.walletPda, payload.deferredExecPda] ∧
        ∀ privilege : Privilege, declaredBy ixs privilege.ofRole sender = true) := by
  have notRefund : ¬Named ixs payer := fun named =>
    Bool.false_ne_true (unnamed.symm.trans ((namesDeferredPayerSlot_iff authorized.stands).mpr (.inl named)))
  rw [sentAccounts_congr_iff authorized.stands fun index hashed key placed =>
    ⟨table (.inl rfl) hashed placed, behind unnamed hashed⟩]
  simp only [foreseen_deferredTable_congr_iff other]
  constructor
  · intro full
    refine ⟨fun named => ?_, fun named => ?_⟩
    · exact ((grantedBy_deferredTail_iff authorized.built).mp (full executor named (.inr rfl))).1
        (List.mem_cons_self ..)
    · obtain ⟨apart, declared⟩ := (grantedBy_deferredTail_iff authorized.built).mp (full sender named (.inl rfl))
      refine ⟨fun listed => apart ?_, declared⟩
      exact List.mem_cons_of_mem _ (List.mem_append_left [payer] listed)
  · rintro ⟨notExecutor, mine⟩ key named (rfl | rfl)
    · obtain ⟨apart, declared⟩ := mine named
      refine (grantedBy_deferredTail_iff authorized.built).mpr ⟨fun listed => ?_, declared⟩
      rcases List.mem_cons.mp listed with same | listed
      · exact other same
      · rcases List.mem_append.mp (show key ∈ [payload.walletPda, findVault rt payload.walletPda,
            payload.deferredExecPda] ++ [payer] from listed) with own | refund
        · exact apart own
        · exact notRefund (List.mem_singleton.mp refund ▸ named)
    · exact absurd named notExecutor

section Match

variable {dep : Deployment} {fees : FeeReads} {params : PrepareAuthorizeParams}
  (authorized : Authorized dep.toRuntime params.instructions (params.executor.getD params.payer) params.payer payload
    accountsHash)
  (layered : fees.protocolFees = true) (wire : WithinWire params.instructions)
  (plain : ∀ fee register, resolveProtocolFeeWithRegister dep.toRuntime fees sender = .ok (some (fee, register)) →
    ∀ key, Named params.instructions key → key ∉ fee.keys)

include authorized layered wire plain

/-- What the program computes over tx2 comes down to its accounts hash. -/
theorem hashesMatch_iff : HashesMatch dep fees sender payload
      (computeInstructionsHash dep.sha256 payload.compactInstructions) accountsHash ↔
    (sender = params.executor.getD params.payer ∨ namesDeferredPayerSlot payload.compactInstructions = false →
      (∃ result, resolveProtocolFeeWithRegister dep.toRuntime fees sender = .ok result) →
      LazorKit.computeAccountsHash dep.toRuntime
        (sentAccounts (findVault dep.toRuntime payload.walletPda) params.payer payload sender)
        payload.compactInstructions = .ok accountsHash) := by
  constructor
  · rintro hashes allowed ⟨result, resolved⟩
    obtain ⟨fee, register, rfl, attached⟩ := resolveProtocolFeeWithRegister_eq_ok layered resolved
    obtain ⟨before, ix, data, same, -, wrote, computed⟩ := hashes _
      ((executeDeferredFromPayload_eq_ok layered authorized.signedFor authorized.refund).mpr
        ⟨allowed, fee, register, resolved, rfl⟩)
    obtain ⟨-, made⟩ := List.append_inj' same rfl
    have here := (List.singleton_inj.mp made).symm
    have packed : data = packCompactInstructions payload.compactInstructions := by
      rw [here] at wrote
      exact (List.cons.inj wrote).2.symm.trans (by simp)
    rw [← here] at computed
    subst packed
    exact ((deferredHashes_eq_ok attached wire authorized.stands (fun _ hashed _ placed => table allowed hashed placed)
      (plain fee register resolved) here).mp computed).2
  · intro matching instructions success
    obtain ⟨allowed, fee, register, resolved, rfl⟩ :=
      (executeDeferredFromPayload_eq_ok layered authorized.signedFor authorized.refund).mp success
    obtain ⟨_, _, same, attached⟩ := resolveProtocolFeeWithRegister_eq_ok layered resolved
    cases same
    refine ⟨register.toList, _, packCompactInstructions payload.compactInstructions, rfl, rfl, by
      simp [createExecuteDeferredIx, concatBytes], ?_⟩
    exact (deferredHashes_eq_ok attached wire authorized.stands (fun _ hashed _ placed => table allowed hashed placed)
      (plain fee register resolved) rfl).mpr ⟨rfl, matching allowed ⟨_, resolved⟩⟩

private theorem matches_of_sendable (own : payload.walletPda = params.walletPda)
    (sendable : Sendable dep fees params payload.deferredExecPda sender) :
    HashesMatch dep fees sender payload (computeInstructionsHash dep.sha256 payload.compactInstructions)
      accountsHash := by
  rw [hashesMatch_iff authorized layered wire plain]
  rintro allowed ⟨result, resolved⟩
  by_cases same : sender = params.executor.getD params.payer
  · rw [same]
    exact authorized.hashed
  · have unnamed := allowed.resolve_left same
    have refused := mt (namesDeferredPayerSlot_iff authorized.stands).mpr (Bool.eq_false_iff.mp unnamed)
    rw [not_or] at refused
    rw [Sendable, ← own] at sendable
    rcases sendable with executor | ⟨error, failed⟩ | refund | executor | free
    · exact absurd executor same
    · rw [resolved] at failed
      cases failed
    · exact absurd refund refused.1
    · exact absurd executor refused.2
    · rw [computeAccountsHash_congr dep.toRuntime ((authorized.congr_iff unnamed same).mpr free)]
      exact authorized.hashed

private theorem sendable_of_matches (own : payload.walletPda = params.walletPda)
    (apart : Set.InjOn dep.sha256 {preimage | ∃ key ∈ [params.executor.getD params.payer, sender], accountsHashPreimage
      (sentAccounts (findVault dep.toRuntime payload.walletPda) params.payer payload key) payload.compactInstructions =
        .ok preimage})
    (matching : HashesMatch dep fees sender payload (computeInstructionsHash dep.sha256 payload.compactInstructions)
      accountsHash) :
    Sendable dep fees params payload.deferredExecPda sender := by
  rw [hashesMatch_iff authorized layered wire plain] at matching
  rw [Sendable, ← own, or_iff_not_imp_left]
  intro other
  cases resolved : resolveProtocolFeeWithRegister dep.toRuntime fees sender with
  | error error => exact .inl ⟨error, rfl⟩
  | ok result =>
    right
    cases unnamed : namesDeferredPayerSlot payload.compactInstructions with
    | true =>
      rcases (namesDeferredPayerSlot_iff authorized.stands).mp unnamed with refund | executor
      · exact .inl refund
      · exact .inr (.inl executor)
    | false =>
      refine .inr (.inr ((authorized.congr_iff unnamed other).mp ?_))
      have mine := matching (.inr unnamed) ⟨result, resolved⟩
      have signed := authorized.hashed
      simp only [LazorKit.computeAccountsHash, Except.bind_eq_ok, Except.ok.injEq] at mine signed
      obtain ⟨sent, sentIs, digest⟩ := mine
      obtain ⟨preimage, preimageIs, rfl⟩ := signed
      have same := apart ⟨_, by simp, sentIs⟩ ⟨_, by simp, preimageIs⟩ digest
      rw [same] at sentIs
      exact accountsHashPreimage_injective sentIs preimageIs

end Match

end Authorized

/-- Whoever may send tx2 by this condition builds one that the program finds unchanged. Nobody else does, unless
the hash collides on the accounts of the two senders. -/
theorem deferred_hashes_match (dep : Deployment) (reads : ChallengeReads) (fees : FeeReads)
    (params : PrepareAuthorizeParams)
    (inputs : ChallengeInputs) (prepared : PreparedAuthorize) (response : WebAuthnResponse) (tx1 : List Instruction)
    (payload : DeferredPayload) (sender : Pubkey) (layered : fees.protocolFees = true) (shared : params.feePayer = none)
    (resolves : resolveSecp256r1 dep.toRuntime reads params.walletPda params.secp256r1 = .ok inputs)
    (prepares : prepareAuthorize dep.toRuntime reads params = .ok prepared)
    (finalizes : finalizeAuthorize prepared response = .ok (tx1, payload)) (wire : WithinWire params.instructions)
    (plain : ∀ fee register, resolveProtocolFeeWithRegister dep.toRuntime fees sender = .ok (some (fee, register)) →
      ∀ key, Named params.instructions key → key ∉ fee.keys) :
    (∃ precompile authorizeIx data, tx1 = [precompile, authorizeIx] ∧ authorizeIx.data = discAuthorize :: data ∧
      Stores dep data prepared.instructionsHash prepared.accountsHash) ∧
    (Sendable dep fees params (findDeferredExec dep.toRuntime params.walletPda inputs.authorityPda inputs.counter)
      sender →
      HashesMatch dep fees sender payload prepared.instructionsHash prepared.accountsHash) ∧
    (Set.InjOn dep.sha256 {preimage | ∃ key ∈ [params.executor.getD params.payer, sender],
        accountsHashPreimage (sentAccounts (findVault dep.toRuntime params.walletPda) params.payer payload key)
          payload.compactInstructions = .ok preimage} →
      HashesMatch dep fees sender payload prepared.instructionsHash prepared.accountsHash →
      Sendable dep fees params (findDeferredExec dep.toRuntime params.walletPda inputs.authorityPda inputs.counter)
        sender) := by
  simp only [prepareAuthorize, resolves, shared, Except.bind_eq_ok, Except.ok.injEq, exists_eq_left'] at prepares
  obtain ⟨layout, laidOut, rfl⟩ := prepares
  simp only [finalizeAuthorize, Except.bind_eq_ok, Except.ok.injEq, Prod.mk.injEq] at finalizes
  obtain ⟨⟨authPayload, precompile⟩, signed, rfl, made⟩ := finalizes
  have authorized : Authorized dep.toRuntime params.instructions (params.executor.getD params.payer) params.payer
      payload layout.accountsHash := by
    have built := buildCompactLayoutAndHash_layout laidOut
    have hashed := (buildCompactLayoutAndHash_eq_ok laidOut).2
    subst made
    refine ⟨rfl, rfl, built, ?_⟩
    simp only [sentAccounts, deferredTable]
    exact hashed
  subst made
  refine ⟨?_, authorized.matches_of_sendable layered wire plain rfl,
    authorized.sendable_of_matches layered wire plain rfl⟩
  exact ⟨precompile, _, _, rfl, by simp [createAuthorizeIx, concatBytes],
    stores_append dep _ _ (u16LE (params.expiryOffset.getD 300) ++ authPayload)⟩

namespace Sample

open LazorKit.Sample

/-- The vault pays the recipient; the payer is to send tx2 as well. -/
def authorize : PrepareAuthorizeParams := ⟨payer, wallet, passkeyA, [vaultPays recipient 5000], none, none, none⟩

/-- The accounts hash where the recipient signs. -/
def signerHash : Bytes32 := bytes32 0xde8c084a3a21ce8818f24343ee496e5f235dc76194f25400599c143ec4ca8724

def deferring : Deployment :=
  { spending with
    findProgramAddress := lookup (derived ++ [([Seeds.treasuryShard, [0]], shard, 255),
      ([Seeds.deferred, wallet.bytes, authorityA.bytes, [2, 0, 0, 0]],
        bytes32 0x9ccb4189552e88dcc89aedcd3debfb36fa541a891a30e66802417db5232ec337, 254),
      ([Seeds.feeRecord, recipient.bytes],
        bytes32 0x5ecdceb0921d2819dad361c08290959593d2695a6d902491a8f176ef0b86367a, 255),
      ([Seeds.feeRecord, delegateKey.bytes],
        bytes32 0xbd2e63d007bb039abd9c3e9c633f65920b461470154cd065b04cc5e89145949c, 254)])
    sha256 := lookup (digests ++ [(transferPreimage recipient 3, signerHash),
      (secp256r1ChallengeInput [6] (buildAuthPayloadPrefix 1010 2 6) (instructionsHash.bytes ++ accountsHash.bytes ++
        u16LE 300) payer wallet 2 programId,
        bytes32 0xd8a314e3f87d9c886f18143d1adf959268610ecc9d8dde7aa9bf2fed0f944848)]) }

/-- The authorization, and tx2 sent by a key. -/
def sent (sender : Pubkey) : Except Error (PreparedAuthorize × DeferredPayload × List Instruction) := do
  let prepared ← prepareAuthorize deferring.toRuntime reads authorize
  let authorized ← finalizeAuthorize prepared response
  let instructions ← executeDeferredFromPayload deferring.toRuntime fees sender authorized.2 none
  .ok (prepared, authorized.2, instructions)

/-- What the program computes in the last instruction of tx2. -/
def lastHashes (instructions : List Instruction) (sender : Pubkey) : Option (Bytes32 × Bytes32) :=
  instructions.getLast?.bind fun ix =>
    let accounts := Transaction.accountsOf ⟨instructions, sender⟩ ix
    (deferredHashes deferring.toRuntime (accounts.take (accounts.length - 4)) (ix.data.drop 1)).toOption

/-- None of the fee accounts of a sender is named. -/
theorem plain {sender : Pubkey} (apart : ((resolveProtocolFeeWithRegister deferring.toRuntime fees sender).toOption.all
      fun result => result.all fun attached => attached.1.keys.all fun key =>
        decide (¬Named authorize.instructions key)) = true)
    (fee : ProtocolFeeAccounts) (register : Option Instruction)
    (resolved : resolveProtocolFeeWithRegister deferring.toRuntime fees sender = .ok (some (fee, register)))
    (key : Pubkey) (named : Named authorize.instructions key) : key ∉ fee.keys := by
  intro listed
  rw [resolved] at apart
  have unnamed := List.all_eq_true.mp apart key listed
  exact (of_decide_eq_true unnamed) named

end Sample

/-- A bystander sends tx2. -/
theorem deferred_hashes_match_sample :
    ∃ prepared tx1 payload, prepareAuthorize Sample.deferring.toRuntime Sample.reads Sample.authorize = .ok prepared ∧
      finalizeAuthorize prepared Sample.response = .ok (tx1, payload) ∧
      (executeDeferredFromPayload Sample.deferring.toRuntime Sample.fees LazorKit.Sample.delegateKey payload
        none).succeeded = true ∧
      HashesMatch Sample.deferring Sample.fees LazorKit.Sample.delegateKey payload prepared.instructionsHash
        prepared.accountsHash := by
  obtain ⟨result, success⟩ := Except.exists_of_succeeded
    (show (Sample.sent LazorKit.Sample.delegateKey).succeeded = true by decide +kernel)
  simp only [Sample.sent, Except.bind_eq_ok] at success
  obtain ⟨prepared, prepares, ⟨tx1, payload⟩, finalizes, instructions, executes, -⟩ := success
  obtain ⟨inputs, resolves⟩ :=
    Except.exists_of_succeeded (show (resolveSecp256r1 Sample.deferring.toRuntime Sample.reads
    Sample.authorize.walletPda Sample.authorize.secp256r1).succeeded = true by decide +kernel)
  refine ⟨prepared, tx1, payload, prepares, finalizes, by rw [executes]; rfl, ?_⟩
  refine (deferred_hashes_match _ _ Sample.fees Sample.authorize inputs prepared Sample.response tx1 payload _ rfl rfl
    resolves prepares finalizes ⟨by decide, by decide, by decide⟩ ?_).2.1 (.inr (.inr (.inr (.inr ⟨?_, ?_⟩))))
  · exact Sample.plain (by decide +kernel)
  · decide +kernel
  · exact fun named => absurd named (by decide +kernel)

/-- The recipient sends tx2, and signs where the hash has it only written to. -/
theorem deferred_hashes_differ :
    ∃ prepared tx1 payload, prepareAuthorize Sample.deferring.toRuntime Sample.reads Sample.authorize = .ok prepared ∧
      finalizeAuthorize prepared Sample.response = .ok (tx1, payload) ∧ Sample.authorize.feePayer = none ∧
      (∀ fee register, resolveProtocolFeeWithRegister Sample.deferring.toRuntime Sample.fees LazorKit.Sample.recipient =
        .ok (some (fee, register)) → ∀ key, Named Sample.authorize.instructions key → key ∉ fee.keys) ∧
      (executeDeferredFromPayload Sample.deferring.toRuntime Sample.fees LazorKit.Sample.recipient payload
        none).succeeded = true ∧
      ¬HashesMatch Sample.deferring Sample.fees LazorKit.Sample.recipient payload prepared.instructionsHash
        prepared.accountsHash := by
  obtain ⟨result, success⟩ := Except.exists_of_succeeded
    (show (Sample.sent LazorKit.Sample.recipient).succeeded = true by decide +kernel)
  have stored : (Sample.sent LazorKit.Sample.recipient).toOption.map (fun result => result.1.accountsHash) =
      some LazorKit.Sample.accountsHash := by decide +kernel
  have other : (Sample.sent LazorKit.Sample.recipient).toOption.bind
      (fun result => Sample.lastHashes result.2.2 LazorKit.Sample.recipient) =
      some (LazorKit.Sample.instructionsHash, Sample.signerHash) := by decide +kernel
  rw [success] at stored other
  simp only [Sample.sent, Except.bind_eq_ok, Except.ok.injEq] at success
  obtain ⟨prepared, prepares, ⟨tx1, payload⟩, finalizes, instructions, executes, rfl⟩ := success
  refine ⟨prepared, tx1, payload, prepares, finalizes, rfl, Sample.plain (by decide +kernel), by rw [executes]; rfl,
    fun matching => ?_⟩
  obtain ⟨before, ix, data, rfl, -, wrote, computed⟩ := matching instructions executes
  have same : Sample.lastHashes (before ++ [ix]) LazorKit.Sample.recipient =
      some (prepared.instructionsHash, prepared.accountsHash) := by
    rw [Sample.lastHashes, List.getLast?_concat, Option.bind_some, wrote, List.drop_one, List.tail_cons]
    exact congrArg Except.toOption computed
  have differ : LazorKit.Sample.accountsHash ≠ Sample.signerHash := by decide +kernel
  have first : prepared.accountsHash = LazorKit.Sample.accountsHash := Option.some.inj stored
  have second : (prepared.instructionsHash, prepared.accountsHash) =
      (LazorKit.Sample.instructionsHash, Sample.signerHash) := Option.some.inj (same.symm.trans other)
  exact differ (first.symm.trans (Prod.mk.inj second).2)

end Kit

end LazorKit
