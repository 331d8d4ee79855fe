import LazorKit.Machine.Transaction
import LazorKit.Proofs.CompactLayout
import LazorKit.Proofs.ProtocolRefine

/-! # The kit's transactions under the runtime

The client hashes the accounts of a transaction that does not exist yet. Here the transaction exists: its
instructions are the ones the client returned, and the runtime reports each key's privileges as their union.
For a key that is no protocol-fee account that union is the one the client foresaw.
-/

namespace LazorKit.Kit

open Solana

/-- The user's instructions fit the wire format. -/
structure WithinWire (ixs : List UserInstruction) : Prop where
  count : ixs.length ≤ maxCompactInstructions
  accounts : ∀ ix ∈ ixs, ix.accounts.length ≤ 255
  data : ∀ ix ∈ ixs, ix.data.length ≤ 65535

namespace RawCompactInstruction

/-- What the packers keep of an instruction. -/
def truncate (ix : RawCompactInstruction) : CompactInstruction :=
  ⟨ix.programIdIndex.toUint8, ix.accountIndexes.map (·.toUint8), ix.data⟩

@[simp] theorem truncate_ofBytes (ix : CompactInstruction) : (ofBytes ix).truncate = ix := by
  simp [truncate, ofBytes, Function.comp_def]

@[simp] theorem map_truncate (ixs : List CompactInstruction) :
    (ixs : List RawCompactInstruction).map truncate = ixs := by
  simp [Function.comp_def]

end RawCompactInstruction

theorem packCompactInstructions_eq (ixs : List RawCompactInstruction) :
    packCompactInstructions ixs =
      UInt8.ofNat ixs.length :: (ixs.map (·.truncate)).flatMap CompactInstruction.toBytes := by
  have one (ix : RawCompactInstruction) : packCompactInstruction ix = ix.truncate.toBytes := by
    simp only [packCompactInstruction, RawCompactInstruction.truncate, CompactInstruction.toBytes, concatBytes,
      List.flatten_cons, List.flatten_nil, List.append_nil, List.append_assoc, byteOf_natCast, Bytes.ofNatLE,
      List.length_map]
  rw [packCompactInstructions, concatBytes, List.flatten_cons, byteOf_natCast, List.flatMap_map, List.flatMap_def,
    funext one]
  rfl

/-- The program parses what the client packed, whatever follows. -/
theorem parse_packCompactInstructions {place : Pubkey → ℕ → Prop} {ixs : List UserInstruction}
    {compact : List CompactInstruction} (wire : WithinWire ixs) (stands : List.Forall₂ (StandsFor place) ixs compact)
    (suffix : Bytes) :
    parseCompactInstructionsRefWithLen (packCompactInstructions compact ++ suffix) =
      .ok (compact, (packCompactInstructions compact).length) := by
  have few : compact.length ≤ maxCompactInstructions := stands.length_eq ▸ wire.count
  have packable : ∀ c ∈ compact, c.Packable := by
    intro c member
    obtain ⟨ix, listed, here⟩ := stands.exists_left member
    refine ⟨here.inRange, ?_, ?_⟩
    · rw [← here.accounts.length_eq]
      exact wire.accounts ix listed
    · rw [here.data]
      exact wire.data ix listed
  obtain ⟨bytes, written, parses⟩ := parse_serializeCompactInstructions few packable
  simp only [serializeCompactInstructions, Except.bind_eq_ok, Except.ensure_eq_ok, exists_const,
    Except.ok.injEq] at written
  obtain ⟨_, _, _, rfl⟩ := written
  rw [packCompactInstructions_eq, RawCompactInstruction.map_truncate, List.length_map]
  exact parses suffix

/-- The accounts only the fee layer writes. -/
def ProtocolFeeAccounts.keys (fee : ProtocolFeeAccounts) : List Pubkey :=
  [fee.protocolConfigPda, fee.feeRecordPda, fee.treasuryShardPda]

namespace Privilege

/-- A privilege among the flags of a built instruction. -/
def ofMeta : Privilege → AccountMeta → Bool
  | signer => (·.isSigner)
  | writable => (·.isWritable)

private theorem ofMeta_toMeta (privilege : Privilege) (acc : RoleMeta) :
    privilege.ofMeta acc.toMeta = privilege.ofRole acc.role := by
  cases privilege <;> rfl

private theorem ofMeta_readonlyMeta (privilege : Privilege) (key : Pubkey) :
    privilege.ofMeta (readonlyMeta key) = false := by
  cases privilege <;> rfl

end Privilege

/-- A transaction whose last instruction lists a table of accounts and the fee accounts behind it, and the
client's guess at who pays for it. -/
structure Foretold (tx : Transaction) (ix : Instruction) (metas : List RoleMeta) (fee : ProtocolFeeAccounts)
    (feePayer : Option Pubkey) (privilege : Privilege) : Prop where
  last : ∃ before, tx.instructions = before ++ [ix] ∧ ∀ other ∈ before, ∀ acc ∈ other.accounts,
    privilege.ofMeta acc = true → acc.pubkey ∈ fee.keys ∨ foreseen metas feePayer privilege.ofRole acc.pubkey = true
  accounts : ix.accounts = appendProtocolFeeAccounts (metas.map (·.toMeta)) fee
  paid : foreseen metas feePayer privilege.ofRole tx.feePayer = true
  declared : ∀ key, feePayer = some key → key = tx.feePayer

/-- The runtime reports what the client foresaw. -/
theorem Foretold.grants_eq {tx : Transaction} {ix : Instruction} {metas : List RoleMeta} {fee : ProtocolFeeAccounts}
    {feePayer : Option Pubkey} {privilege : Privilege} (foretold : Foretold tx ix metas fee feePayer privilege)
    {key : Pubkey} (plain : key ∉ fee.keys) :
    tx.grants privilege.ofMeta key = foreseen metas feePayer privilege.ofRole key := by
  obtain ⟨⟨before, instructions, harmless⟩, accounts, paid, declared⟩ := foretold
  rw [Bool.eq_iff_iff, Transaction.grants, decide_eq_true_eq, instructions]
  constructor
  · rintro (rfl | ⟨other, member, acc, listed, rfl, granted⟩)
    · exact paid
    · rcases List.mem_append.mp member with early | late
      · exact (harmless other early acc listed granted).resolve_left plain
      · cases List.mem_singleton.mp late
        rw [accounts, appendProtocolFeeAccounts, List.mem_append] at listed
        rcases listed with own | suffix
        · obtain ⟨role, listed, rfl⟩ := List.mem_map.mp own
          rw [privilege.ofMeta_toMeta] at granted
          rw [foreseen, grantedBy, Bool.or_eq_true, List.any_eq_true]
          exact .inl ⟨role, listed, by simp [RoleMeta.toMeta, granted]⟩
        · simp only [List.mem_cons, List.not_mem_nil, or_false] at suffix
          rcases suffix with rfl | rfl | rfl | rfl
          · rw [privilege.ofMeta_readonlyMeta] at granted
            cases granted
          · exact absurd (by simp [ProtocolFeeAccounts.keys, writableMeta]) plain
          · exact absurd (by simp [ProtocolFeeAccounts.keys, writableMeta]) plain
          · rw [privilege.ofMeta_readonlyMeta] at granted
            cases granted
  · intro seen
    rw [foreseen, Bool.or_eq_true, grantedBy, List.any_eq_true, decide_eq_true_eq] at seen
    rcases seen with ⟨acc, listed, named⟩ | payer
    · rw [Bool.and_eq_true, decide_eq_true_eq] at named
      refine .inr ⟨ix, by simp, acc.toMeta, ?_, named.1, ?_⟩
      · rw [accounts, appendProtocolFeeAccounts]
        exact List.mem_append_left _ (List.mem_map_of_mem listed)
      · rw [privilege.ofMeta_toMeta]
        exact named.2
    · exact .inl (declared key payer)

theorem computeAccountsHash_congr (rt : Runtime) {accounts accounts' : List AccountInfo} {ixs : List CompactInstruction}
    (same : ∀ index ∈ ixs.flatMap CompactInstruction.hashedIndices, accounts[index]? = accounts'[index]?) :
    LazorKit.computeAccountsHash rt accounts ixs = LazorKit.computeAccountsHash rt accounts' ixs := by
  have entries : (ixs.flatMap CompactInstruction.hashedIndices).mapM (accountsHashEntry accounts) =
      (ixs.flatMap CompactInstruction.hashedIndices).mapM (accountsHashEntry accounts') := by
    apply Except.mapM_congr
    intro index member
    rw [accountsHashEntry, accountsHashEntry, accountByIndex, accountByIndex, same index member]
  rw [LazorKit.computeAccountsHash, LazorKit.computeAccountsHash, accountsHashPreimage, accountsHashPreimage, entries]

/-- The accounts of a table with the privileges a transaction gives them. -/
def tableInfos (metas : List RoleMeta) (signer writable : Pubkey → Bool) : List AccountInfo :=
  metas.map fun acc => ⟨acc.address, signer acc.address, writable acc.address⟩

/-- The client's layout and hash, in the program's words. -/
theorem buildCompactLayoutAndHash_eq_ok {rt : Runtime} {fixed : List RoleMeta} {ixs : List UserInstruction}
    {payer : Pubkey} {feePayer : Option Pubkey} {layout : HashedLayout}
    (success : buildCompactLayoutAndHash rt.sha256 fixed ixs payer feePayer = .ok layout) :
    List.Forall₂ (StandsFor (Placed (fixed.map (·.address)) (layout.remainingAccounts.map (·.address)))) ixs
        layout.compactInstructions ∧
      LazorKit.computeAccountsHash rt (tableInfos (fixed ++ layout.remainingAccounts)
          (foreseen (fixed ++ layout.remainingAccounts) feePayer (·.isSigner))
          (foreseen (fixed ++ layout.remainingAccounts) feePayer (·.isWritable)))
        layout.compactInstructions = .ok layout.accountsHash := by
  simp only [buildCompactLayoutAndHash, Except.bind_eq_ok, Except.ok.injEq] at success
  obtain ⟨compacted, built, hash, hashed, rfl⟩ := success
  refine ⟨?_, ?_⟩
  · exact buildCompactLayout_eq_ok built
  · obtain ⟨found, walk, digest⟩ := computeAccountsHash_eq_ok.mp hashed
    rw [tableInfos, ← withRuntimeRoles_toInfo]
    simp only [LazorKit.computeAccountsHash, Except.bind_eq_ok, accountsHashPreimage_iff, forall₂_foundAt_map,
      Except.ok.injEq]
    refine ⟨_, ⟨_, ⟨found, walk, rfl⟩, rfl⟩, ?_⟩
    rw [digest]
    simp only [List.flatMap_map, RoleMeta.flagsOf_eq, RoleMeta.toInfo]

theorem buildCompactLayoutAndHash_layout {sha256 : Bytes → Bytes32} {fixed : List RoleMeta} {ixs : List UserInstruction}
    {payer : Pubkey} {feePayer : Option Pubkey} {layout : HashedLayout}
    (success : buildCompactLayoutAndHash sha256 fixed ixs payer feePayer = .ok layout) :
    buildCompactLayout (fixed.map (·.address)) ixs payer =
      .ok ⟨layout.compactInstructions, layout.remainingAccounts⟩ := by
  simp only [buildCompactLayoutAndHash, Except.bind_eq_ok, Except.ok.injEq] at success
  obtain ⟨compacted, built, _, _, rfl⟩ := success
  exact built

/-- Two ways to give privileges that agree on the addresses the user named lead to one hash. -/
theorem computeAccountsHash_named (rt : Runtime) {metas : List RoleMeta} {place : Pubkey → ℕ → Prop}
    {ixs : List UserInstruction} {compact : List CompactInstruction}
    (stands : List.Forall₂ (StandsFor place) ixs compact)
    (table : ∀ index ∈ compact.flatMap CompactInstruction.hashedIndices, ∀ key, place key index →
      (metas.map (·.address))[index]? = some key)
    {signer signer' writable writable' : Pubkey → Bool}
    (same : ∀ key, Named ixs key → signer key = signer' key ∧ writable key = writable' key) :
    LazorKit.computeAccountsHash rt (tableInfos metas signer writable) compact =
      LazorKit.computeAccountsHash rt (tableInfos metas signer' writable') compact := by
  apply computeAccountsHash_congr rt
  intro index member
  obtain ⟨key, named, at_⟩ := named_of_hashed stands member
  obtain ⟨signs, writes⟩ := same key named
  have entry := table index member key at_
  rw [List.getElem?_map, Option.map_eq_some_iff] at entry
  obtain ⟨acc, found, rfl⟩ := entry
  rw [tableInfos, tableInfos, List.getElem?_map, List.getElem?_map, found, Option.map_some, Option.map_some,
    signs, writes]

/-- The program computes the hash the client foresaw. -/
theorem Foretold.computeAccountsHash_eq (rt : Runtime) {tx : Transaction} {ix : Instruction} {metas : List RoleMeta}
    {fee : ProtocolFeeAccounts} {feePayer : Option Pubkey} {place : Pubkey → ℕ → Prop} {ixs : List UserInstruction}
    {compact : List CompactInstruction} (foretold : ∀ privilege, Foretold tx ix metas fee feePayer privilege)
    (stands : List.Forall₂ (StandsFor place) ixs compact)
    (table : ∀ index ∈ compact.flatMap CompactInstruction.hashedIndices, ∀ key, place key index →
      (metas.map (·.address))[index]? = some key)
    (plain : ∀ key, Named ixs key → key ∉ fee.keys) :
    LazorKit.computeAccountsHash rt (tableInfos metas (tx.grants (·.isSigner)) (tx.grants (·.isWritable))) compact =
      LazorKit.computeAccountsHash rt (tableInfos metas (foreseen metas feePayer (·.isSigner))
        (foreseen metas feePayer (·.isWritable))) compact := by
  apply computeAccountsHash_named rt stands table
  intro key named
  have other := plain key named
  exact ⟨(foretold .signer).grants_eq other, (foretold .writable).grants_eq other⟩

/-- What the program sees in the last instruction: the table, and the fee accounts behind it. -/
theorem Foretold.accountsOf_eq {tx : Transaction} {ix : Instruction} {metas : List RoleMeta} {fee : ProtocolFeeAccounts}
    {feePayer : Option Pubkey} {privilege : Privilege} (foretold : Foretold tx ix metas fee feePayer privilege) :
    tx.accountsOf ix = tableInfos metas (tx.grants (·.isSigner)) (tx.grants (·.isWritable)) ++
      [fee.protocolConfigPda, fee.feeRecordPda, fee.treasuryShardPda, systemProgram].map fun key =>
        ⟨key, tx.grants (·.isSigner) key, tx.grants (·.isWritable) key⟩ := by
  rw [Transaction.accountsOf, foretold.accounts, appendProtocolFeeAccounts, List.map_append, List.map_map, tableInfos]
  rfl

/-- What a client with the fee layer attaches. -/
structure FeeAttached (rt : Runtime) (payer : Pubkey) (fee : ProtocolFeeAccounts) (register : Option Instruction) :
    Prop where
  config : fee.protocolConfigPda = (rt.findProgramAddress [Seeds.protocolConfig]).1
  record : fee.feeRecordPda = (rt.findProgramAddress [Seeds.feeRecord, payer.bytes]).1
  register : ∀ ix ∈ register, ix = createRegisterPayerIx payer fee.feeRecordPda rt.programId

theorem resolveProtocolFeeWithRegister_eq_ok {rt : Runtime} {fees : FeeReads} {payer : Pubkey}
    {result : Option (ProtocolFeeAccounts × Option Instruction)} (layered : fees.protocolFees = true)
    (success : resolveProtocolFeeWithRegister rt fees payer = .ok result) :
    ∃ fee register, result = some (fee, register) ∧ FeeAttached rt payer fee register := by
  simp only [resolveProtocolFeeWithRegister, resolveProtocolFee, layered, Bool.true_eq_false, if_false,
    Except.bind_eq_ok, Except.ok.injEq] at success
  obtain ⟨_, ⟨config, _, rfl⟩, success⟩ := success
  simp only [Except.bind_eq_ok] at success
  obtain ⟨again, _, success⟩ := success
  have plain {fee : ProtocolFeeAccounts}
      (own : fee.protocolConfigPda = (rt.findProgramAddress [Seeds.protocolConfig]).1)
      (record : fee.feeRecordPda = (rt.findProgramAddress [Seeds.feeRecord, payer.bytes]).1) :
      FeeAttached rt payer fee none := ⟨own, record, nofun⟩
  split at success
  · cases success
    exact ⟨_, _, rfl, plain rfl rfl⟩
  · split at success
    · cases success
      exact ⟨_, _, rfl, plain rfl rfl⟩
    · simp only [Except.bind_eq_ok] at success
      obtain ⟨info, _, success⟩ := success
      split at success
      · cases success
        exact ⟨_, _, rfl, plain rfl rfl⟩
      · cases success
        refine ⟨_, _, rfl, rfl, rfl, fun ix here => ?_⟩
        cases here
        rfl

/-- The payer's registration gives no privilege to a key that is neither the payer nor a fee account. -/
theorem FeeAttached.harmless {rt : Runtime} {payer : Pubkey} {fee : ProtocolFeeAccounts} {register : Option Instruction}
    (attached : FeeAttached rt payer fee register) (privilege : Privilege) {other : Instruction}
    (member : other ∈ register.toList) {acc : AccountMeta} (listed : acc ∈ other.accounts)
    (granted : privilege.ofMeta acc = true) : acc.pubkey ∈ fee.keys ∨ acc.pubkey = payer := by
  cases attached.register other (Option.mem_toList.mp member)
  simp only [createRegisterPayerIx, List.mem_cons, List.not_mem_nil, or_false] at listed
  rcases listed with rfl | rfl | rfl | rfl
  · exact .inr rfl
  · exact .inl (by simp [ProtocolFeeAccounts.keys, writableMeta])
  · rw [privilege.ofMeta_readonlyMeta] at granted
    cases granted
  · rw [privilege.ofMeta_readonlyMeta] at granted
    cases granted

theorem finalizeSecp256r1_accounts {prepared : PreparedSecp256r1} {response : WebAuthnResponse}
    {signed : Bytes × Instruction} (success : finalizeSecp256r1 prepared response = .ok signed) :
    signed.2.accounts = [] := by
  simp only [finalizeSecp256r1, buildSecp256r1PrecompileIx, Except.bind_eq_ok, Except.ensure_eq_ok, exists_const,
    Except.ok.injEq] at success
  obtain ⟨_, _, precompile, ⟨_, _, _, rfl⟩, rfl⟩ := success
  rfl

/-- The payer at the head of a table is foreseen with every privilege. -/
theorem foreseen_head (payer : Pubkey) (rest : List RoleMeta) (feePayer : Option Pubkey) (privilege : Privilege) :
    foreseen (⟨payer, .writableSigner⟩ :: rest) feePayer privilege.ofRole payer = true := by
  simp [foreseen, grantedBy, privilege.ofRole_writableSigner]

/-- The processor is handed what stands in front of the fee accounts. -/
theorem tryCollectFee_hands {dep : Deployment} {fr : Frame} {discriminator : UInt8}
    {handed suffix given : List AccountInfo} {m m' : Machine Approval} (four : suffix.length = 4)
    (success : tryCollectFee dep fr discriminator (handed ++ suffix) m = .ok (m', given)) : given = handed := by
  rw [(tryCollectFee_eq_ok success).2, List.length_append, four, Nat.add_sub_cancel, List.take_left]

/-- Where no fee is due the suffix is stripped and nothing else happens. -/
theorem tryCollectFee_free {dep : Deployment} {discriminator : UInt8} {handed : List AccountInfo}
    {config record shard system : AccountInfo} {m : Machine Approval} (fr : Frame) (some_ : handed ≠ [])
    (address : config.key = (dep.findProgramAddress [Seeds.protocolConfig]).1) (own : system.key = systemProgram)
    (free : resolveFee dep m config discriminator = 0) :
    tryCollectFee dep fr discriminator (handed ++ [config, record, shard, system]) m = .ok (m, handed) := by
  have long : 0 < handed.length := List.length_pos_iff.mpr some_
  have length : (handed ++ [config, record, shard, system]).length = handed.length + 4 := by simp
  have at_ (offset : ℕ) (acc : AccountInfo) (here : [config, record, shard, system][offset]? = some acc) :
      accountAt (handed ++ [config, record, shard, system]) (handed.length + offset) = .ok acc := by
    rw [accountAt_eq_ok, List.getElem?_append_right (Nat.le_add_right ..), Nat.add_sub_cancel_left]
    exact here
  simp only [tryCollectFee, length, Except.bind_eq_ok, Except.ensure_eq_ok, exists_const]
  refine ⟨by omega, config, ?_, record, ?_, shard, ?_, system, ?_, own, address, ?_⟩
  · exact at_ 0 config rfl
  · exact at_ 1 record rfl
  · exact at_ 2 shard rfl
  · exact at_ 3 system rfl
  · rw [if_pos free, Nat.add_sub_cancel, List.take_left]

end LazorKit.Kit
