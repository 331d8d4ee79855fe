import LazorKit.Proofs.KitTransactions
import LazorKit.Proofs.SignedArguments
import LazorKit.Soundness.KitRequests

/-! # The kit's Execute under the program

A passkey signs an Execute before its transaction exists. Once it does, in a transaction of exactly the
instructions the client returned, the program strips the fee accounts, parses the compact instructions the
client packed, and rebuilds the payload the passkey signed: the packed bytes and the accounts hash over the
privileges the runtime reports, however the keys repeat.
-/

namespace LazorKit

open Solana

namespace Kit

/-- What the program makes of an Execute the client built. `handed` are the accounts in front of the fee
accounts and `data` what follows the discriminator, with the auth payload at its end. -/
structure ExecuteAgrees (dep : Deployment) (params : PrepareExecuteParams) (prepared : PreparedExecute)
    (tx : Transaction) (ix : Instruction) (layout : HashedLayout) (inputs : ChallengeInputs) (fee : ProtocolFeeAccounts)
    (handed : List AccountInfo) (data authPayload : Bytes) : Prop where
  laidOut : buildCompactLayoutAndHash dep.sha256
    (executeFixedAccounts params.payer params.walletPda inputs.authorityPda (findVault dep.toRuntime params.walletPda))
    params.instructions params.payer params.feePayer = .ok layout
  challenged : prepared.signing = buildPasskeySigning dep.toRuntime discExecute sysvarIxIndexExecute
    (packCompactInstructions layout.compactInstructions ++ layout.accountsHash.bytes)
      inputs params.payer params.walletPda
  called : ix.programId = dep.programId ∧ ix.data = discExecute :: data
  carried : data = packCompactInstructions layout.compactInstructions ++ authPayload
  /-- The challenge given to the passkey hashes the preimage that the program rebuilds. -/
  alike : SignedAlike dep.toRuntime handed discExecute authPayload
    (packCompactInstructions layout.compactInstructions ++ layout.accountsHash.bytes)
      prepared.challenge prepared.signing
    (prepared.signing.challengeInput dep.toRuntime discExecute
      (packCompactInstructions layout.compactInstructions ++ layout.accountsHash.bytes) params.payer params.walletPda)
    params.walletPda
  suffixed : tx.accountsOf ix = handed ++
    [fee.protocolConfigPda, fee.feeRecordPda, fee.treasuryShardPda, systemProgram].map fun key =>
      ⟨key, tx.grants (·.isSigner) key, tx.grants (·.isWritable) key⟩
  stripped : ∀ fr m m' given,
    tryCollectFee dep fr discExecute (tx.accountsOf ix) m = .ok (m', given) → given = handed
  free : ∀ fr m, (∀ config, config.key = fee.protocolConfigPda → resolveFee dep m config discExecute = 0) →
    tryCollectFee dep fr discExecute (tx.accountsOf ix) m = .ok (m, handed)
  parsed : parseCompactInstructionsRefWithLen data =
    .ok (layout.compactInstructions, (packCompactInstructions layout.compactInstructions).length)
  signed : signedArguments dep.toRuntime discExecute handed data =
    .ok (.execute (packCompactInstructions layout.compactInstructions) layout.compactInstructions layout.accountsHash,
      packCompactInstructions layout.compactInstructions ++ layout.accountsHash.bytes)

/-- The privileges of an Execute's transaction are the ones the client hashed. -/
theorem foretold_execute {rt : Runtime} {params : PrepareExecuteParams} {authorityPda vaultPda : Pubkey}
    {remaining : List RoleMeta} {fee : ProtocolFeeAccounts} {register : Option Instruction} {precompile : Instruction}
    {packed authPayload : Bytes} (attached : FeeAttached rt params.payer fee register)
    (bare : precompile.accounts = []) (privilege : Privilege) :
    Foretold ⟨register.toList ++ [precompile, createExecuteIx ⟨params.payer, params.walletPda, authorityPda, vaultPda,
        packed, some authPayload, none, remaining, some fee, rt.programId⟩], params.feePayer.getD params.payer⟩
      (createExecuteIx ⟨params.payer, params.walletPda, authorityPda, vaultPda, packed, some authPayload, none,
        remaining, some fee, rt.programId⟩)
      (executeFixedAccounts params.payer params.walletPda authorityPda vaultPda ++ remaining) fee params.feePayer
      privilege where
  last := by
    refine ⟨register.toList ++ [precompile], by simp, fun other member acc listed granted => ?_⟩
    rcases List.mem_append.mp member with early | late
    · apply (attached.harmless privilege early listed granted).imp id
      intro payer
      rw [payer]
      exact foreseen_head ..
    · rw [List.mem_singleton.mp late, bare] at listed
      cases listed
  accounts := rfl
  paid := by
    cases given : params.feePayer with
    | none => exact foreseen_head ..
    | some feePayer => simp [foreseen]
  declared key here := by
    rw [here]
    rfl

/-- For every payer, fee payer and batch, the program rebuilds from the finished transaction what the passkey
signed before it existed. -/
theorem kit_execute_agrees (dep : Deployment) (reads : ChallengeReads) (fees : FeeReads) (params : PrepareExecuteParams)
    (prepared : PreparedExecute) (response : WebAuthnResponse) (instructions : List Instruction)
    (layered : fees.protocolFees = true) (prepares : prepareExecute dep.toRuntime reads fees params = .ok prepared)
    (finalizes : finalizeExecute prepared response = .ok instructions) (wire : WithinWire params.instructions)
    (plain : ∀ fee ∈ prepared.protocolFee, ∀ key, Named params.instructions key → key ∉ fee.keys) :
    ∃ before ix layout inputs fee handed data authPayload, instructions = before ++ [ix] ∧
      ExecuteAgrees dep params prepared ⟨instructions, params.feePayer.getD params.payer⟩ ix layout inputs fee handed
        data authPayload := by
  simp only [prepareExecute, Except.bind_eq_ok, Except.ok.injEq] at prepares
  obtain ⟨inputs, _, result, resolved, layout, laidOut, rfl⟩ := prepares
  obtain ⟨fee, register, rfl, attached⟩ := resolveProtocolFeeWithRegister_eq_ok layered resolved
  simp only [finalizeExecute, Except.bind_eq_ok, Except.ok.injEq, Option.map_some, Option.bind_some] at finalizes
  obtain ⟨⟨authPayload, precompile⟩, signed, rfl⟩ := finalizes
  have bare : precompile.accounts = [] := finalizeSecp256r1_accounts signed
  have named := plain fee rfl
  obtain ⟨stands, hashed⟩ := buildCompactLayoutAndHash_eq_ok laidOut
  obtain ⟨ix, built⟩ : ∃ ix, ix = createExecuteIx ⟨params.payer, params.walletPda, inputs.authorityPda,
    findVault dep.toRuntime params.walletPda, packCompactInstructions layout.compactInstructions, some authPayload,
    none, layout.remainingAccounts, some fee, dep.programId⟩ := ⟨_, rfl⟩
  have foretold (privilege : Privilege) := built ▸ foretold_execute attached bare privilege
  have parsed := parse_packCompactInstructions wire stands authPayload
  have suffixed := (foretold .signer).accountsOf_eq
  rw [← Foretold.computeAccountsHash_eq dep.toRuntime foretold stands (fun _ _ _ => Placed.listed) named] at hashed
  rw [← built]
  have payload : concatBytes [packCompactInstructions layout.compactInstructions, layout.accountsHash.bytes] =
      packCompactInstructions layout.compactInstructions ++ layout.accountsHash.bytes := by simp [concatBytes]
  rw [payload] at signed
  refine ⟨register.toList ++ [precompile], ix, layout, inputs, fee, _,
    packCompactInstructions layout.compactInstructions ++ authPayload, authPayload, by simp, laidOut, ?_, ?_, rfl, ?_,
    suffixed, ?_, ?_, parsed, ?_⟩
  · rw [payload]
  · rw [built]
    exact ⟨rfl, by simp [createExecuteIx, concatBytes]⟩
  · rw [payload]
    exact signedAlike signed (by decide) ⟨_, rfl, rfl⟩ ⟨_, rfl, rfl⟩
  · intro fr m m' given success
    rw [suffixed] at success
    exact tryCollectFee_hands rfl success
  · intro fr m free
    rw [suffixed]
    exact tryCollectFee_free fr (by simp [tableInfos, executeFixedAccounts]) attached.config rfl (free _ rfl)
  · simp only [signedArguments, discExecute, parsed, Except.bind_eq_ok, Except.ok.injEq, Prod.mk.injEq]
    refine ⟨_, rfl, _, hashed, ?_⟩
    simp

namespace Sample

open LazorKit.Sample

/-- Lamports out of the vault. -/
def vaultPays (target : Pubkey) (amount : ℕ) : UserInstruction where
  programAddress := systemProgram
  accounts := [⟨vault, .writable⟩, ⟨target, .writable⟩]
  data := Bytes.ofNatLE 4 2 ++ Bytes.ofNatLE 8 amount

/-- The payer is paid back, and the other recipient pays for the transaction. -/
def execute : PrepareExecuteParams :=
  ⟨payer, wallet, passkeyA, [vaultPays payer 5000, vaultPays recipient 10], some recipient⟩

/-- The fee is on and the payer has no record yet. -/
def fees : FeeReads where
  protocolFees := true
  configAccount := .ok (some ([0x25, 1, 254, 1, 1] ++ List.replicate 83 0))
  random := 7
  recordAccount := .ok none
  registeredPayers := []

def executePacked : Bytes :=
  [2] ++ (transferBatch 5 3 0 5000).drop 1 ++ (transferBatch 5 3 6 10).drop 1

/-- The System program, the vault and who is paid, with the flags the runtime reports. -/
def transferPreimage (target : Pubkey) (flags : UInt8) : Bytes :=
  systemProgram.bytes ++ [0] ++ vault.bytes ++ [2] ++ target.bytes ++ [flags]

def executeAccountsHash : Bytes32 := bytes32 0x7e53175aea1d4a0adb4826962aa0bd1e9a1b1d6c61067e23b551d681cab1d975

def spending : Deployment :=
  { configured with
    sha256 := lookup (digests ++ [(transferPreimage payer 3 ++ transferPreimage recipient 3, executeAccountsHash),
      (secp256r1ChallengeInput [4] (buildAuthPayloadPrefix 1010 2 4) (executePacked ++ executeAccountsHash.bytes) payer
        wallet 2 programId, bytes32 0xaeec40d3cddc883081e4ef655071cc16d2ea81328b20547d4a38e2fac4b249e7)]) }

end Sample

/-- The vault pays back the payer and pays whoever pays for the transaction. -/
theorem kit_execute_agrees_sample :
    ∃ prepared instructions, prepareExecute Sample.spending.toRuntime Sample.reads Sample.fees Sample.execute =
        .ok prepared ∧ finalizeExecute prepared Sample.response = .ok instructions ∧
      ∃ before ix layout inputs fee handed data authPayload, instructions = before ++ [ix] ∧
        ExecuteAgrees Sample.spending Sample.execute prepared ⟨instructions, LazorKit.Sample.recipient⟩ ix layout inputs
          fee handed data authPayload := by
  obtain ⟨instructions, success⟩ := Except.exists_of_succeeded
    (show (prepareExecute Sample.spending.toRuntime Sample.reads Sample.fees Sample.execute >>= fun prepared =>
      finalizeExecute prepared Sample.response).succeeded = true by decide +kernel)
  obtain ⟨prepared, prepares, finalizes⟩ := Except.bind_eq_ok.mp success
  have wire : WithinWire Sample.execute.instructions := ⟨by decide, by decide, by decide⟩
  have attached : ((prepareExecute Sample.spending.toRuntime Sample.reads Sample.fees Sample.execute).toOption.bind
      (·.protocolFee)).map ProtocolFeeAccounts.keys =
      some [LazorKit.Sample.config, LazorKit.Sample.feeRecord, LazorKit.Sample.shard] := by decide +kernel
  refine ⟨prepared, instructions, prepares, finalizes,
    kit_execute_agrees _ _ _ _ _ _ _ rfl prepares finalizes wire fun fee given => ?_⟩
  rw [prepares] at attached
  have keys : fee.keys = [LazorKit.Sample.config, LazorKit.Sample.feeRecord, LazorKit.Sample.shard] := by
    simpa [Except.toOption, Option.mem_def.mp given] using attached
  rintro key ⟨ix, listed, named⟩
  rw [keys]
  have apart : ∀ ix ∈ Sample.execute.instructions, ∀ key ∈ ix.addresses,
      key ∉ [LazorKit.Sample.config, LazorKit.Sample.feeRecord, LazorKit.Sample.shard] := by decide +kernel
  exact apart ix listed key named

end Kit

end LazorKit
