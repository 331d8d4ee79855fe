import LazorKit.Proofs.ConcreteRun
import LazorKit.Proofs.InnerInstructions
import LazorKit.Soundness.SignatureScope

/-! # Which inner instructions a signature allows

Whoever sends the transaction chooses the account list. Two lists with one accounts-hash preimage
make Execute issue the same inner instructions, whatever else they hold and wherever it stands. A
deferred batch is sent by anyone, so there the sequences may differ in one thing only: the sender's
own signature is never passed on.
-/

namespace LazorKit

open Solana

namespace Call

/-- The bytes of the compact instructions at the front of the data. -/
def compactBytes (call : Call) : Except ProgramError Bytes := do
  let parsed ← parseCompactInstructionsRefWithLen call.arguments
  .ok (call.arguments.take parsed.2)

/-- The preimage of the accounts hash over the call's account list. -/
def accountsPreimage (call : Call) : Except ProgramError Bytes := do
  let parsed ← parseCompactInstructionsRefWithLen call.arguments
  accountsHashPreimage call.processorAccounts parsed.1

end Call

/-- Two calls name the same account at a position. -/
def SameKeyAt (first second : Call) (i : ℕ) : Prop :=
  ∃ key, KeyAt first.processorAccounts i key ∧ KeyAt second.processorAccounts i key

/-- The vault of a wallet. -/
def vaultOf (dep : Deployment) (wallet : Pubkey) : Pubkey := (dep.findProgramAddress [Seeds.vault, wallet.bytes]).1

/-- An inner instruction without the sender's signature; only the vault always signs. -/
def withoutSender (sender vault : Pubkey) (ix : Instruction) : Instruction :=
  { ix with accounts := ix.accounts.map fun acc =>
      { acc with isSigner := acc.isSigner && (acc.pubkey ≠ sender || acc.pubkey = vault : Bool) } }

/-- What a compact instruction expands to when no signature is withheld. -/
def unmaskedInstruction (vault : Pubkey) (ix : DecompressedInstruction) : Instruction where
  programId := ix.programId
  accounts := ix.accounts.map fun acc =>
    ⟨acc.1.key, acc.2 && acc.1.isSigner || (acc.1.key = vault : Bool), acc.1.isWritable⟩
  data := ix.data

private theorem innerInstruction_eq_withoutSender (sender vault : Pubkey) (ix : DecompressedInstruction) :
    innerInstruction sender vault none ix = withoutSender sender vault (unmaskedInstruction vault ix) := by
  simp only [innerInstruction, withoutSender, unmaskedInstruction, List.map_map, Instruction.mk.injEq, true_and,
    and_true]
  apply List.map_congr_left
  intro acc _
  simp only [innerMeta, Function.comp_apply, AccountMeta.mk.injEq, true_and, and_true, Bool.and_true]
  by_cases isVault : acc.1.key = vault
  · simp [isVault]
  · by_cases isSender : acc.1.key = sender
    · have other : sender ≠ vault := isSender ▸ isVault
      simp [isSender, other]
    · simp [isVault, isSender]

/-- The sequence a batch expands to is the unmasked one without the sender's signature. -/
theorem innerInstructions_eq_withoutSender {accounts : List AccountInfo} {sender vault : Pubkey}
    {ixs : List CompactInstruction} {issued : List Instruction}
    (expanded : innerInstructions accounts sender vault none ixs = .ok issued) :
    ∃ decompressed, ixs.mapM (·.decompress accounts) = .ok decompressed ∧
      issued = (decompressed.map (unmaskedInstruction vault)).map (withoutSender sender vault) := by
  rw [innerInstructions, Except.mapM_eq_ok] at expanded
  induction expanded with
  | nil => exact ⟨[], rfl, rfl⟩
  | cons head _ ih =>
    obtain ⟨first, decompressed, rfl⟩ := Except.map_eq_ok.mp head
    obtain ⟨others, rest, rfl⟩ := ih
    refine ⟨first :: others, ?_, by simp [innerInstruction_eq_withoutSender]⟩
    rw [Except.mapM_eq_ok] at rest ⊢
    exact .cons decompressed rest

/-- What a call issued, and from what. -/
structure Issues (dep : Deployment) (call : Call) (issued : List Instruction) (payer wallet : Pubkey)
    (ixs : List CompactInstruction) (len : ℕ) : Prop where
  payerAt : KeyAt call.processorAccounts 0 payer
  walletAt : KeyAt call.processorAccounts 1 wallet
  parsed : parseCompactInstructionsRefWithLen call.arguments = .ok (ixs, len)
  expanded : innerInstructions call.processorAccounts payer (vaultOf dep wallet) none ixs = .ok issued

variable {dep : Deployment} {ledger : Ledger}

theorem Collected.invoked {call : Call} {collected : Machine Approval}
    (start : Collected dep call (Machine.start ledger) collected) : collected.invoked = [] := by
  unfold Collected at start
  split at start
  · exact tryCollectFee_invoked start
  · rw [start]
    rfl

private theorem AssertedCall.issues (asserted : AssertedCall dep ledger) (which : asserted.call.discriminator = 4) :
    ∃ payer wallet ixs len, Issues dep asserted.call asserted.result.invoked payer wallet ixs len := by
  obtain ⟨collected, start, dispatched⟩ := Call.execute_eq_ok asserted.success
  rw [which] at dispatched
  obtain ⟨payer, wallet, ixs, len, issued, payerAt, walletAt, parsed, expanded, invoked⟩ :=
    processExecute_invoked dispatched start.quiet.approved asserted.approved
  rw [start.invoked, List.nil_append] at invoked
  exact ⟨payer, wallet, ixs, len, payerAt, walletAt, parsed, invoked ▸ expanded⟩

private theorem AssertedCall.accountsPreimage_eq_ok (asserted : AssertedCall dep ledger)
    (which : asserted.call.discriminator = 4) : ∃ preimage, asserted.call.accountsPreimage = .ok preimage := by
  obtain ⟨args, signed⟩ := asserted.arguments_eq_ok
  rw [AssertedCall.arguments, which] at signed
  simp only [signedArguments, computeAccountsHash, Except.bind_eq_ok] at signed
  obtain ⟨_, parsed, _, ⟨preimage, hashed, _⟩, _⟩ := signed
  exact ⟨preimage, by rw [Call.accountsPreimage, parsed]; exact hashed⟩

/-- Calls with one compact byte string and one accounts-hash preimage carry one batch, and their lists
agree wherever it looks. -/
theorem Issues.agree {first second : Call} {issued₁ issued₂ : List Instruction}
    {payer₁ wallet₁ payer₂ wallet₂ : Pubkey} {ixs₁ ixs₂ : List CompactInstruction} {len₁ len₂ : ℕ}
    {compact preimage : Bytes} (one : Issues dep first issued₁ payer₁ wallet₁ ixs₁ len₁)
    (two : Issues dep second issued₂ payer₂ wallet₂ ixs₂ len₂)
    (compact₁ : first.compactBytes = .ok compact) (compact₂ : second.compactBytes = .ok compact)
    (preimage₁ : first.accountsPreimage = .ok preimage) (preimage₂ : second.accountsPreimage = .ok preimage) :
    ixs₁ = ixs₂ ∧ ∀ index ∈ ixs₁.flatMap CompactInstruction.hashedIndices,
      first.processorAccounts[index]? = second.processorAccounts[index]? := by
  simp only [Call.compactBytes, one.parsed, two.parsed, Except.bind_eq_ok, Except.ok.injEq,
    exists_eq_left'] at compact₁ compact₂
  simp only [Call.accountsPreimage, one.parsed, two.parsed, Except.bind_eq_ok, Except.ok.injEq,
    exists_eq_left'] at preimage₁ preimage₂
  have batch : ixs₁ = ixs₂ :=
    parseCompactInstructionsRefWithLen_inj one.parsed two.parsed (compact₁.trans compact₂.symm)
  subst batch
  exact ⟨rfl, accountsHashPreimage_injective preimage₁ preimage₂⟩

/-- A successful ExecuteDeferred and the deferred account it consumed. -/
structure DeferredCall (dep : Deployment) (ledger : Ledger) where
  call : Call
  result : Machine Approval
  deferred : Pubkey
  which : call.discriminator = 7
  listed : KeyAt call.processorAccounts 3 deferred
  success : call.execute dep ledger = .ok result

namespace DeferredCall

/-- The authorization the call was checked against. -/
def stored (executed : DeferredCall dep ledger) : DeferredExecAccount :=
  DeferredExecAccount.read (ledger executed.deferred).data

/-- The two byte strings a deferred call hashes. -/
def hashed (executed : DeferredCall dep ledger) : Set Bytes :=
  {bytes | executed.call.compactBytes = .ok bytes ∨ executed.call.accountsPreimage = .ok bytes}

private theorem issues (executed : DeferredCall dep ledger) :
    ∃ payer wallet ixs len, Issues dep executed.call executed.result.invoked payer wallet ixs len := by
  obtain ⟨collected, start, dispatched⟩ := Call.execute_eq_ok executed.success
  rw [executed.which] at dispatched
  obtain ⟨payer, wallet, ixs, len, issued, payerAt, walletAt, parsed, expanded, invoked⟩ :=
    processExecuteDeferred_invoked dispatched
  rw [start.invoked, List.nil_append] at invoked
  exact ⟨payer, wallet, ixs, len, payerAt, walletAt, parsed, invoked ▸ expanded⟩

theorem hashes (executed : DeferredCall dep ledger) :
    ∃ compact preimage, executed.call.compactBytes = .ok compact ∧ executed.call.accountsPreimage = .ok preimage ∧
      dep.sha256 compact = executed.stored.instructionsHash ∧ dep.sha256 preimage = executed.stored.accountsHash := by
  have transition := (Call.execute_refines executed.success).1
  have listed := executed.listed
  rw [executed.which] at transition
  generalize executed.result.approved = approvals, registry dep executed.result.ledger = after at transition
  cases transition with
  | protocol layer => exact absurd layer (by decide)
  | executeDeferred _ _ deferredAt recorded _ _ _ _ parsed instructions hashed =>
    cases deferredAt.unique listed
    obtain ⟨_, rfl, _⟩ := registry_eq_some.mp recorded
    simp only [computeAccountsHash, Except.bind_eq_ok] at hashed
    obtain ⟨preimage, entries, result⟩ := hashed
    refine ⟨_, preimage, ?_, ?_, instructions, Except.ok.inj result⟩
    · rw [Call.compactBytes, parsed]
      rfl
    · rw [Call.accountsPreimage, parsed]
      exact entries

end DeferredCall

section TwoCalls

variable {ledger₁ ledger₂ : Ledger}

/-- One compact byte string, one accounts-hash preimage, one payer and one wallet: one sequence. -/
theorem execute_issues_eq (first : AssertedCall dep ledger₁) (second : AssertedCall dep ledger₂)
    (which₁ : first.call.discriminator = 4) (which₂ : second.call.discriminator = 4)
    (compact : first.call.compactBytes = second.call.compactBytes)
    (preimage : first.call.accountsPreimage = second.call.accountsPreimage)
    (payer : SameKeyAt first.call second.call 0) (wallet : SameKeyAt first.call second.call 1) :
    first.result.invoked = second.result.invoked := by
  obtain ⟨payer₁, wallet₁, ixs₁, len₁, issues₁⟩ := first.issues which₁
  obtain ⟨payer₂, wallet₂, ixs₂, len₂, issues₂⟩ := second.issues which₂
  obtain ⟨_, payerAt₁, payerAt₂⟩ := payer
  obtain ⟨_, walletAt₁, walletAt₂⟩ := wallet
  cases issues₁.payerAt.unique payerAt₁
  cases issues₂.payerAt.unique payerAt₂
  cases issues₁.walletAt.unique walletAt₁
  cases issues₂.walletAt.unique walletAt₂
  obtain ⟨bytes, hashed⟩ := first.accountsPreimage_eq_ok which₁
  have compact₁ : first.call.compactBytes = .ok (first.call.arguments.take len₁) := by
    rw [Call.compactBytes, issues₁.parsed]
    rfl
  obtain ⟨batch, agree⟩ := issues₁.agree issues₂ compact₁ (compact ▸ compact₁) hashed (preimage ▸ hashed)
  have expanded := issues₂.expanded
  rw [← batch, ← innerInstructions_congr (parseCompactInstructionsRefWithLen_inRange issues₁.parsed) agree,
    issues₁.expanded] at expanded
  exact Except.ok.inj expanded

/-- Equal stored hashes and one wallet: one sequence up to the senders' own signatures. -/
theorem executeDeferred_issues_eq (first : DeferredCall dep ledger₁) (second : DeferredCall dep ledger₂)
    (injective : Set.InjOn dep.sha256 (first.hashed ∪ second.hashed))
    (instructions : first.stored.instructionsHash = second.stored.instructionsHash)
    (accounts : first.stored.accountsHash = second.stored.accountsHash) {wallet sender₁ sender₂ : Pubkey}
    (walletAt₁ : KeyAt first.call.processorAccounts 1 wallet)
    (walletAt₂ : KeyAt second.call.processorAccounts 1 wallet)
    (senderAt₁ : KeyAt first.call.processorAccounts 0 sender₁)
    (senderAt₂ : KeyAt second.call.processorAccounts 0 sender₂) :
    ∃ base : List Instruction, first.result.invoked = base.map (withoutSender sender₁ (vaultOf dep wallet)) ∧
      second.result.invoked = base.map (withoutSender sender₂ (vaultOf dep wallet)) := by
  obtain ⟨_, _, ixs₁, len₁, issues₁⟩ := first.issues
  obtain ⟨_, _, ixs₂, len₂, issues₂⟩ := second.issues
  cases issues₁.payerAt.unique senderAt₁
  cases issues₂.payerAt.unique senderAt₂
  cases issues₁.walletAt.unique walletAt₁
  cases issues₂.walletAt.unique walletAt₂
  obtain ⟨compact₁, preimage₁, isCompact₁, isPreimage₁, compactHash₁, accountsHash₁⟩ := first.hashes
  obtain ⟨compact₂, preimage₂, isCompact₂, isPreimage₂, compactHash₂, accountsHash₂⟩ := second.hashes
  have compacts : compact₁ = compact₂ := injective (.inl (.inl isCompact₁)) (.inr (.inl isCompact₂))
    (by rw [compactHash₁, compactHash₂, instructions])
  have preimages : preimage₁ = preimage₂ := injective (.inl (.inr isPreimage₁)) (.inr (.inr isPreimage₂))
    (by rw [accountsHash₁, accountsHash₂, accounts])
  subst compacts preimages
  obtain ⟨rfl, agree⟩ := issues₁.agree issues₂ isCompact₁ isCompact₂ isPreimage₁ isPreimage₂
  obtain ⟨decompressed₁, expansion₁, invoked₁⟩ := innerInstructions_eq_withoutSender issues₁.expanded
  obtain ⟨decompressed₂, expansion₂, invoked₂⟩ := innerInstructions_eq_withoutSender issues₂.expanded
  have same : ixs₁.mapM (·.decompress first.call.processorAccounts) =
      ixs₁.mapM (·.decompress second.call.processorAccounts) :=
    Except.mapM_congr fun ix member =>
      decompress_congr (parseCompactInstructionsRefWithLen_inRange issues₁.parsed ix member)
        fun index listed => agree index (List.mem_flatMap.mpr ⟨ix, member, listed⟩)
  rw [same, expansion₂] at expansion₁
  cases Except.ok.inj expansion₁
  exact ⟨_, invoked₁, invoked₂⟩

end TwoCalls

/-- The signed batch decides the inner instructions: of Execute all of them, of ExecuteDeferred all
but the sender's own signature. -/
theorem inner_instructions_bound :
    (∀ {dep : Deployment} {ledger₁ ledger₂ : Ledger} (first : AssertedCall dep ledger₁)
      (second : AssertedCall dep ledger₂), first.call.discriminator = 4 → second.call.discriminator = 4 →
      first.call.compactBytes = second.call.compactBytes →
      first.call.accountsPreimage = second.call.accountsPreimage →
      SameKeyAt first.call second.call 0 → SameKeyAt first.call second.call 1 →
      first.result.invoked = second.result.invoked) ∧
    (∀ {dep : Deployment} {ledger₁ ledger₂ : Ledger} (first : DeferredCall dep ledger₁)
      (second : DeferredCall dep ledger₂), Set.InjOn dep.sha256 (first.hashed ∪ second.hashed) →
      first.stored.instructionsHash = second.stored.instructionsHash →
      first.stored.accountsHash = second.stored.accountsHash → ∀ {wallet sender₁ sender₂ : Pubkey},
      KeyAt first.call.processorAccounts 1 wallet → KeyAt second.call.processorAccounts 1 wallet →
      KeyAt first.call.processorAccounts 0 sender₁ → KeyAt second.call.processorAccounts 0 sender₂ →
      ∃ base : List Instruction, first.result.invoked = base.map (withoutSender sender₁ (vaultOf dep wallet)) ∧
        second.result.invoked = base.map (withoutSender sender₂ (vaultOf dep wallet))) :=
  ⟨execute_issues_eq, executeDeferred_issues_eq⟩

namespace Sample

/-- A transfer from the vault, with the position of the instructions sysvar signed beside it; at either passkey
authority's first use. -/
def transferAssertion (sysvar : UInt8) (challenge : Bytes32) (signature : Bytes) : Assertion where
  authPrefix := authPrefix 1000 1 sysvar
  signedPayload := transferBatch 5 3 6 1000 ++ accountsHash.bytes
  payer := payer
  wallet := wallet
  counter := 1
  authenticatorData := authenticatorData
  clientDataJson := clientDataJson challenge
  signature := signature

def transferAssertionA : Assertion :=
  transferAssertion 4 (bytes32 0x3f94cef0fb936c5fccd7f6b7213e9238be324992f6a91356a2e411c1453a588c)
    (signatureOf 0xd02d4956c1133c20cc568d0445c4033ad9ff3aa54683401f6e3db52fa945f5a
      0x4d807294e51cfffdde27a696dfaca132bc72e97075c112dc7835e006cbc38645)

def transferAssertionB : Assertion :=
  transferAssertion 8 (bytes32 0x9aacb59e852bf3337b9faef305d39d355f5f78d92436880381a2e48f7ca74cf3)
    (signatureOf 0xd12f908865296ab3a1bc6d53cb8e0606e366d387500a5d0811284c73ed2afabc
      0x928286b6eb0fa3ccb1574e503f0d6d8373015a22403ac973028ad0f4ca969d16)

def cosigner : Pubkey := .fill 16

/-- A deferred transfer that asks for the signature of a third account as well. -/
def cosignedBatch : Bytes :=
  [1, 5, 3, 2, 6, 0x87, 12, 0] ++ Bytes.ofNatLE 4 2 ++ Bytes.ofNatLE 8 5000

def cosignedPreimage : Bytes :=
  systemProgram.bytes ++ [0] ++ vault.bytes ++ [2] ++ recipient.bytes ++ [2] ++ cosigner.bytes ++ [3]

def cosignedHash : Bytes32 := bytes32 0x41567297e6a303ea64bade38fa7dcda58aa24320664c5fba28e4aa3d8f012e71
def cosignedAccountsHash : Bytes32 := bytes32 0x7cb23b71e0430d688cc27b0f4405c9e37d0fa9bedef2dba032ca57071c8ef86c

/-- The assertion that authorizes it, at authority B's second use. -/
def cosignedAssertion : Assertion where
  authPrefix := authPrefix 1001 2 6
  signedPayload := cosignedHash.bytes ++ cosignedAccountsHash.bytes ++ Bytes.ofNatLE 2 100
  payer := payer
  wallet := wallet
  counter := 2
  authenticatorData := authenticatorData
  clientDataJson := clientDataJson (bytes32 0x5ce3e9e1945f4e18dd1cccfc77c9f84d7ba7dd9b2679d2cb651747ac8ec6153)
  signature := signatureOf 0x37303d6233b99d16b62921c651ccfd457cad22ffa7f3db33ba710521492f944b
    0x24b2b57055c002463edc90c8ea1a8d5010b467bc9708c580036b59c29e0d6b44

/-- The deployment with what these calls hash. -/
def binding : Deployment :=
  withDigests [
    (transferAssertionA.preimage 4 programId,
      bytes32 0x3f94cef0fb936c5fccd7f6b7213e9238be324992f6a91356a2e411c1453a588c),
    (transferAssertionA.clientDataJson,
      bytes32 0x5606aebfde432d9b0d42cc78f6ee94ca41dd53a46be5f922fb7a2173b265dd),
    (transferAssertionB.preimage 4 programId,
      bytes32 0x9aacb59e852bf3337b9faef305d39d355f5f78d92436880381a2e48f7ca74cf3),
    (transferAssertionB.clientDataJson,
      bytes32 0x779a92beec57fb27631bc6bfa592116ba1fcd51914fb6862ade93a73e9959bb6),
    (cosignedBatch, cosignedHash), (cosignedPreimage, cosignedAccountsHash),
    (cosignedAssertion.preimage 6 programId,
      bytes32 0x5ce3e9e1945f4e18dd1cccfc77c9f84d7ba7dd9b2679d2cb651747ac8ec6153),
    (cosignedAssertion.clientDataJson,
      bytes32 0x22ddbc9b8c56bcf00e6181c0c8ef9a88bc84b171f6cd76df88501f37ccbff3bb)]

/-- An Execute of the transfer, on the given accounts. -/
def transferCall (assertion : Assertion) (accounts : AccountList) : Call where
  frame := topLevel 1000 [(secp256r1Program, precompileData assertion (binding.sha256 assertion.clientDataJson))] 1000
    ([4] ++ transferBatch 5 3 6 1000 ++ authPayload assertion)
  accounts := accounts
  data := [4] ++ transferBatch 5 3 6 1000 ++ authPayload assertion

/-- Nothing but what the transfer needs. -/
def transferA : Call :=
  transferCall transferAssertionA ⟨[payerInfo, readonly wallet, writable authorityA, writable vault,
    readonly instructionsSysvar, readonly systemProgram, writable recipient] ++ feeAccounts, by decide,
    by decide +kernel⟩

/-- The recipient a second time, a signer nobody asked for, and the sysvar behind them. -/
def transferB : Call :=
  transferCall transferAssertionB ⟨[payerInfo, readonly wallet, writable authorityB, writable vault,
    writable recipient, readonly systemProgram, writable recipient, signer cosigner, readonly instructionsSysvar] ++
    feeAccounts, by decide, by decide +kernel⟩

def cosignerInfo : AccountInfo := ⟨cosigner, true, true⟩

def authorizeCosigned : Call where
  frame := topLevel 1001 [(secp256r1Program, precompileData cosignedAssertion
    (binding.sha256 cosignedAssertion.clientDataJson))] 0
    ([6] ++ cosignedAssertion.signedPayload ++ LazorKit.Sample.authPayload cosignedAssertion)
  accounts := authorize.accounts
  data := [6] ++ cosignedAssertion.signedPayload ++ LazorKit.Sample.authPayload cosignedAssertion

/-- The deferred transfer, sent by the account in front. -/
def cosignedCall (accounts : AccountList) : Call where
  frame := topLevel 1002 [] 5000 ([7] ++ cosignedBatch)
  accounts := accounts
  data := [7] ++ cosignedBatch

def sentByPayer : Call :=
  cosignedCall ⟨[payerInfo, readonly wallet, writable vault, writable deferred, payerInfo, readonly systemProgram,
    writable recipient, cosignerInfo] ++ feeAccounts, by decide, by decide +kernel⟩

def sentByCosigner : Call :=
  cosignedCall ⟨[cosignerInfo, readonly wallet, writable vault, writable deferred, writable payer,
    readonly systemProgram, writable recipient, cosignerInfo] ++ feeAccounts, by decide, by decide +kernel⟩

/-- Both passkey authorities execute once, and the second authorizes. -/
def cosignedEvents : List Event := events.take 7 ++ [.call authorizeCosigned]

/-- The transfer of both Executes as the runtime gets it. -/
def transferOnly : Instruction where
  programId := systemProgram
  accounts := [⟨vault, true, true⟩, ⟨recipient, false, true⟩]
  data := (transferBatch 5 3 6 1000).drop 7

/-- The transfer, with what it passes on of the third account's signature. -/
def cosignedTransfer (signed : Bool) : Instruction where
  programId := systemProgram
  accounts := [⟨vault, true, true⟩, ⟨recipient, false, true⟩, ⟨cosigner, signed, true⟩]
  data := cosignedBatch.drop 8

/-- What becomes of the four calls, by evaluation. -/
theorem binding_facts :
    (AcceptsAt binding events 5 transferA authorityA transferAssertionA ∧
        AcceptsAt binding events 5 transferB authorityB transferAssertionB ∧
        (resultAt binding .empty events 5 transferA).invoked = [transferOnly]) ∧
      ((sentByPayer.execute binding (ledgerAt binding .empty cosignedEvents 8)).succeeded = true ∧
        (resultAt binding .empty cosignedEvents 8 sentByPayer).invoked = [cosignedTransfer true]) ∧
      (sentByCosigner.execute binding (ledgerAt binding .empty cosignedEvents 8)).succeeded = true ∧
        (resultAt binding .empty cosignedEvents 8 sentByCosigner).invoked = [cosignedTransfer false] := by
  decide +kernel

/-- The deferred transfer at the end of that run. -/
def cosignedAt (call : Call) (which : call.discriminator = 7) (listed : KeyAt call.processorAccounts 3 deferred)
    (success : (call.execute binding (ledgerAt binding Ledger.empty cosignedEvents 8)).succeeded = true) :
    DeferredCall binding (ledgerAt binding Ledger.empty cosignedEvents 8) where
  call := call
  result := resultAt binding Ledger.empty cosignedEvents 8 call
  deferred := deferred
  which := which
  listed := listed
  success := Except.eq_ok_getD success

private theorem stored_cosignedAt {call : Call} (which : call.discriminator = 7)
    (listed : KeyAt call.processorAccounts 3 deferred)
    (success : (call.execute binding (ledgerAt binding Ledger.empty cosignedEvents 8)).succeeded = true) :
    (cosignedAt call which listed success).stored =
      DeferredExecAccount.read (ledgerAt binding Ledger.empty cosignedEvents 8 deferred).data := rfl

def executedA : AssertedCall binding (ledgerAt binding Ledger.empty events 5) := binding_facts.1.1.asserted

def executedB : AssertedCall binding (ledgerAt binding Ledger.empty events 5) := binding_facts.1.2.1.asserted

def deferredByPayer : DeferredCall binding (ledgerAt binding Ledger.empty cosignedEvents 8) :=
  cosignedAt sentByPayer rfl ⟨writable deferred, rfl, rfl⟩ binding_facts.2.1.1

def deferredByCosigner : DeferredCall binding (ledgerAt binding Ledger.empty cosignedEvents 8) :=
  cosignedAt sentByCosigner rfl ⟨writable deferred, rfl, rfl⟩ binding_facts.2.2.1

/-- Both senders' calls hash the same two byte strings. -/
theorem hashed_subset (executed : DeferredCall binding (ledgerAt binding Ledger.empty cosignedEvents 8))
    (compact : executed.call.compactBytes = .ok cosignedBatch)
    (preimage : executed.call.accountsPreimage = .ok cosignedPreimage) :
    executed.hashed ⊆ {cosignedBatch, cosignedPreimage} := by
  rintro bytes (isCompact | isPreimage)
  · exact .inl (Except.ok.inj (isCompact.symm.trans compact))
  · exact .inr (Except.ok.inj (isPreimage.symm.trans preimage))

end Sample

/-- Two Executes of one transfer on different lists, and one deferred transfer by two senders: only where the sender is
the third account, its signature stays behind. -/
theorem inner_instructions_bound_sample :
    Sample.executedA.result.invoked = Sample.executedB.result.invoked ∧
      Sample.executedA.result.invoked = [Sample.transferOnly] ∧
      (∃ base : List Instruction,
        Sample.deferredByPayer.result.invoked =
          base.map (withoutSender Sample.payer (vaultOf Sample.binding Sample.wallet)) ∧
        Sample.deferredByCosigner.result.invoked =
          base.map (withoutSender Sample.cosigner (vaultOf Sample.binding Sample.wallet))) ∧
      Sample.deferredByPayer.result.invoked = [Sample.cosignedTransfer true] ∧
      Sample.deferredByCosigner.result.invoked = [Sample.cosignedTransfer false] := by
  refine ⟨?_, Sample.binding_facts.1.2.2, ?_, Sample.binding_facts.2.1.2, Sample.binding_facts.2.2.2⟩
  · exact inner_instructions_bound.1 Sample.executedA Sample.executedB rfl rfl (by decide +kernel) (by decide +kernel)
      ⟨Sample.payer, ⟨Sample.payerInfo, rfl, rfl⟩, ⟨Sample.payerInfo, rfl, rfl⟩⟩
      ⟨Sample.wallet, ⟨Sample.readonly Sample.wallet, rfl, rfl⟩, ⟨Sample.readonly Sample.wallet, rfl, rfl⟩⟩
  · have injective : Set.InjOn Sample.binding.sha256 {Sample.cosignedBatch, Sample.cosignedPreimage} := by
      have apart : Sample.binding.sha256 Sample.cosignedBatch ≠ Sample.binding.sha256 Sample.cosignedPreimage := by
        decide +kernel
      rintro _ (rfl | rfl) _ (rfl | rfl) same
      · rfl
      · exact absurd same apart
      · exact absurd same.symm apart
      · rfl
    have hashed : Sample.deferredByPayer.hashed ∪ Sample.deferredByCosigner.hashed ⊆
        {Sample.cosignedBatch, Sample.cosignedPreimage} :=
      Set.union_subset (Sample.hashed_subset _ (by decide +kernel) (by decide +kernel))
        (Sample.hashed_subset _ (by decide +kernel) (by decide +kernel))
    have stored : Sample.deferredByPayer.stored = Sample.deferredByCosigner.stored :=
      (Sample.stored_cosignedAt ..).trans (Sample.stored_cosignedAt ..).symm
    exact inner_instructions_bound.2 Sample.deferredByPayer Sample.deferredByCosigner (injective.mono hashed)
      (congrArg (·.instructionsHash) stored) (congrArg (·.accountsHash) stored)
      ⟨Sample.readonly Sample.wallet, rfl, rfl⟩ ⟨Sample.readonly Sample.wallet, rfl, rfl⟩
      ⟨Sample.payerInfo, rfl, rfl⟩ ⟨Sample.cosignerInfo, rfl, rfl⟩

end LazorKit
