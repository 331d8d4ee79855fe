import LazorKit.Model.Action
import LazorKit.Model.Compact

/-! # Policy evaluation for Execute

Before the inner instructions run, each program they call is held against the whitelist and the
blacklist. Every writable token account of the vault is copied. Afterwards the copies are compared,
each mint's balance is measured over exactly the copied accounts, and the limits are checked; only
when all of them hold are the running totals written.
-/

namespace LazorKit

open Solana

/-- Whether an action has expired. -/
def isExpired (action : ActionView) (currentSlot : ℕ) : Bool :=
  action.expiresAt ≠ 0 ∧ action.expiresAt < currentSlot

/-- Whether an unexpired action of the type names the program. -/
def namesProgram (actionsBuf : Bytes) (actionType : ActionType) (program : Pubkey) (currentSlot : ℕ) :
    List ActionView → Except ProgramError Bool
  | [] => .ok false
  | action :: rest =>
    if action.actionType = actionType ∧ isExpired action currentSlot = false then do
      let named ← readBytes32 actionsBuf action.dataOffset
      if named = program.bytes then .ok true
      else namesProgram actionsBuf actionType program currentSlot rest
    else namesProgram actionsBuf actionType program currentSlot rest

/-- The program of one compact instruction against the whitelist and the blacklist. -/
def checkProgram (actions : List ActionView) (actionsBuf : Bytes) (accounts : List AccountInfo)
    (currentSlot : ℕ) (ix : CompactInstruction) : Except ProgramError Unit := do
  let target ← accountByIndex accounts ix.programIdIndex.toNat
  (if actions.any (·.actionType = .programWhitelist) then do
    let listed ← namesProgram actionsBuf .programWhitelist target.key currentSlot actions
    Except.ensure (listed = true) ↑AuthError.actionProgramNotWhitelisted
  else .ok ())
  let banned ← namesProgram actionsBuf .programBlacklist target.key currentSlot actions
  Except.ensure (banned = false) ↑AuthError.actionProgramBlacklisted

def evaluatePreActions (sessionData : Bytes) (loc : PolicyLocation) (ixs : List CompactInstruction)
    (accounts : List AccountInfo) (currentSlot : ℕ) : Except ProgramError Unit :=
  if loc.isPresent sessionData then do
    let actions ← parseActions (loc.slice sessionData)
    ixs.forM (checkProgram actions (loc.slice sessionData) accounts currentSlot)
  else .ok ()

/-- `TokenkegQfeZyiNwAJbNbGKPFXCWuBvf9Ss623VQ5DA`. -/
def splTokenProgram : Pubkey :=
  .ofBytes [6, 221, 246, 225, 215, 101, 161, 147, 217, 203, 225, 70, 206, 235, 121, 172, 28, 180, 133,
    237, 95, 91, 55, 145, 58, 140, 245, 133, 126, 255, 0, 169]

/-- `TokenzQdBNbLqP5VEhdkAS6EPFLC1PHnBqCXEpPxuEb`. -/
def splToken2022Program : Pubkey :=
  .ofBytes [6, 221, 246, 225, 238, 117, 143, 222, 24, 66, 93, 188, 228, 108, 205, 218, 182, 26, 252, 77,
    131, 185, 13, 39, 254, 189, 249, 40, 216, 161, 139, 252]

def tokenOwnerOffset : ℕ := 32
def tokenAmountOffset : ℕ := 64
def tokenDelegateOffset : ℕ := 72
def tokenStateOffset : ℕ := 108
def tokenIsNativeOffset : ℕ := 109
def tokenDelegatedAmountOffset : ℕ := 121
def tokenCloseAuthorityOffset : ℕ := 129
def tokenAccountLen : ℕ := 165
def tokenMultisigLen : ℕ := 355

/-- An initialized token account: not a mint, not a multisig, not an account nobody initialized. -/
def isTokenAccount (program : Pubkey) (data : Bytes) : Bool :=
  if data.length < tokenAccountLen ∨
      ¬(data.byte tokenStateOffset = 1 ∨ data.byte tokenStateOffset = 2) then false
  else if data.length = tokenAccountLen then
    program = splTokenProgram ∨ program = splToken2022Program
  else program = splToken2022Program ∧ data.length ≠ tokenMultisigLen ∧ data.byte 165 = 2

/-- A writable, initialized token account whose owner field is the vault. -/
def isSnapshotCandidate (ledger : Ledger) (vaultKey : Pubkey) (acc : AccountInfo) : Bool :=
  acc.isWritable ∧ isTokenAccount (ledger acc.key).owner (ledger acc.key).data ∧
    (ledger acc.key).data.slice tokenOwnerOffset 32 = vaultKey.bytes

/-- Whether the account at a position repeats one listed earlier. -/
def repeatsEarlier (accounts : List AccountInfo) (index : ℕ) (acc : AccountInfo) : Bool :=
  (accounts.take index).any (·.key = acc.key)

/-- One token account of the vault as it stood before the inner instructions. `index` is its position
in the account list and `key` the account there, which the later passes re-read by position. -/
structure VaultTokenSnapshot where
  index : ℕ
  key : Pubkey
  dataLen : ℕ
  lamports : ℕ
  base : Bytes

/-- The positions to copy: each candidate, unless its key was already found. -/
def findSnapshotPositions (ledger : Ledger) (vaultKey : Pubkey) :
    List (AccountInfo × ℕ) → List (AccountInfo × ℕ) → List (AccountInfo × ℕ)
  | found, [] => found
  | found, entry :: rest =>
    if isSnapshotCandidate ledger vaultKey entry.1 = false ∨ found.any (·.1.key = entry.1.key) then
      findSnapshotPositions ledger vaultKey found rest
    else findSnapshotPositions ledger vaultKey (found ++ [entry]) rest

/-- The copy of one account: its bytes 0..165 are every field of the base layout. -/
def takeSnapshot (ledger : Ledger) (entry : AccountInfo × ℕ) : VaultTokenSnapshot where
  index := entry.2
  key := entry.1.key
  dataLen := (ledger entry.1.key).data.length
  lamports := (ledger entry.1.key).lamports
  base := (ledger entry.1.key).data.slice 0 tokenAccountLen

/-- Copy every writable token account of the vault, once per key. -/
def snapshotVaultTokenAccounts (ledger : Ledger) (accounts : List AccountInfo) (vaultKey : Pubkey) :
    List VaultTokenSnapshot :=
  (findSnapshotPositions ledger vaultKey [] accounts.zipIdx).map (takeSnapshot ledger)

/-- The little-endian number stored in a token account's field. -/
def tokenField (data : Bytes) (offset : ℕ) : ℕ := (data.slice offset 8).toNatLE

/-- Every base field but `amount` is as it was, except that `delegated_amount` may have fallen. -/
def baseUnchangedExceptBalance (before after : Bytes) : Bool :=
  if after.length < tokenAccountLen then false
  else after.slice 0 tokenAmountOffset = before.slice 0 tokenAmountOffset ∧
    after.slice tokenDelegateOffset (tokenDelegatedAmountOffset - tokenDelegateOffset) =
      before.slice tokenDelegateOffset (tokenDelegatedAmountOffset - tokenDelegateOffset) ∧
    after.slice tokenCloseAuthorityOffset (tokenAccountLen - tokenCloseAuthorityOffset) =
      before.slice tokenCloseAuthorityOffset (tokenAccountLen - tokenCloseAuthorityOffset) ∧
    tokenField after tokenDelegatedAmountOffset ≤ tokenField before tokenDelegatedAmountOffset

/-- Lamports fell only with a matching fall of a native account's `amount`. -/
def lamportsKept (beforeLamports : ℕ) (before : Bytes) (afterLamports : ℕ) (after : Bytes) : Bool :=
  let drop := beforeLamports - afterLamports
  if drop = 0 then true
  else before.slice tokenIsNativeOffset 4 ≠ [0, 0, 0, 0] ∧
    drop ≤ tokenField before tokenAmountOffset - tokenField after tokenAmountOffset

/-- What must hold of a copied account afterwards. -/
def verifySnapshot (ledger : Ledger) (snap : VaultTokenSnapshot) : Except ProgramError Unit :=
  let acc := ledger snap.key
  Except.ensure (acc.lamports ≠ 0 ∧ acc.data.length = snap.dataLen ∧
      isTokenAccount acc.owner acc.data = true ∧ baseUnchangedExceptBalance snap.base acc.data = true ∧
      lamportsKept snap.lamports snap.base acc.lamports acc.data = true)
    ↑AuthError.sessionTokenAuthorityChanged

/-- A token account that became the vault's may carry neither delegate nor close authority. The
snapshots are in index order, so the binary search for a position is membership. -/
def verifyNewcomer (ledger : Ledger) (snapshots : List VaultTokenSnapshot) (accounts : List AccountInfo)
    (vaultKey : Pubkey) (entry : AccountInfo × ℕ) : Except ProgramError Unit :=
  if isSnapshotCandidate ledger vaultKey entry.1 = false then .ok ()
  else if snapshots.any (·.index = entry.2) ∨ repeatsEarlier accounts entry.2 entry.1 then .ok ()
  else Except.ensure ((ledger entry.1.key).data.slice tokenDelegateOffset 4 = [0, 0, 0, 0] ∧
      (ledger entry.1.key).data.slice tokenCloseAuthorityOffset 4 = [0, 0, 0, 0])
    ↑AuthError.sessionTokenAuthorityChanged

def verifyVaultTokenAccounts (ledger : Ledger) (snapshots : List VaultTokenSnapshot)
    (accounts : List AccountInfo) (vaultKey : Pubkey) : Except ProgramError Unit := do
  snapshots.forM (verifySnapshot ledger)
  accounts.zipIdx.forM (verifyNewcomer ledger snapshots accounts vaultKey)

/-- A mint's balance over the copied accounts, before and after. -/
structure MintFlow where
  mint : Bytes
  before : ℕ
  after : ℕ
deriving DecidableEq, Repr

/-- What left the copied accounts, net of what came back. -/
def MintFlow.outflow (flow : MintFlow) : ℕ := flow.before - flow.after

/-- Fold one account's balances into its mint's entry. -/
def addFlow (mint : Bytes) (before after : ℕ) : List MintFlow → List MintFlow
  | [] => [⟨mint, before, after⟩]
  | flow :: rest =>
    if flow.mint = mint then
      ⟨flow.mint, saturatingAdd flow.before before, saturatingAdd flow.after after⟩ :: rest
    else flow :: addFlow mint before after rest

/-- Each mint's balance over the copied accounts. -/
def mintFlows (ledger : Ledger) (snapshots : List VaultTokenSnapshot) : List MintFlow :=
  snapshots.foldl (fun flows snap => addFlow (snap.base.slice 0 32) (tokenField snap.base tokenAmountOffset)
    (tokenField (ledger snap.key).data tokenAmountOffset) flows) []

/-- The net outflow of a mint; zero for one the vault held no copied account of. -/
def mintOutflow (flows : List MintFlow) (mint : Bytes) : ℕ :=
  match flows.find? (·.mint = mint) with
  | some flow => flow.outflow
  | none => 0

/-- A cap: nothing may leave once it has expired, and no more than the number stored at `offset`. -/
def checkCap (data : Bytes) (offset : ℕ) (expired : Bool) (spent : ℕ) (exceeded : AuthError) :
    Except ProgramError Unit :=
  if 0 < spent then do
    Except.ensure (expired = false) ↑exceeded
    let cap ← readU64 data offset
    Except.ensure (spent ≤ cap) ↑exceeded
  else .ok ()

/-- A cap per window. `limit spent window last_reset` stand from `offset` on; a window that has run
out starts anew with nothing spent. -/
def checkRecurring (data : Bytes) (offset : ℕ) (expired : Bool) (amount currentSlot : ℕ)
    (exceeded : AuthError) : Except ProgramError Unit :=
  if 0 < amount then do
    Except.ensure (expired = false) ↑exceeded
    let limit ← readU64 data offset
    let spent ← readU64 data (offset + 8)
    let window ← readU64 data (offset + 16)
    let lastReset ← readU64 data (offset + 24)
    let effectiveSpent ← (if window < currentSlot - lastReset then do
        Except.ensure (amount ≤ limit) ↑exceeded
        .ok 0
      else .ok spent)
    Except.ensure (saturatingAdd effectiveSpent amount ≤ limit) ↑exceeded
  else .ok ()

/-- What left during one Execute. -/
structure Outflows where
  solSpent : ℕ
  grossOut : ℕ
  flows : List MintFlow

/-- Phase 1: one SOL limit. The per-transaction cap looks at the gross outflow. -/
def checkSolLimit (data : Bytes) (loc : PolicyLocation) (out : Outflows) (currentSlot : ℕ)
    (action : ActionView) : Except ProgramError Unit :=
  let offset := loc.abs action.dataOffset
  let expired := isExpired action currentSlot
  match action.actionType with
  | .solMaxPerTx => checkCap data offset expired out.grossOut .actionSolMaxPerTxExceeded
  | .solLimit => checkCap data offset expired out.solSpent .actionSolLimitExceeded
  | .solRecurringLimit =>
    checkRecurring data offset expired out.solSpent currentSlot .actionSolRecurringLimitExceeded
  | _ => .ok ()

/-- What left of the mint a token action names. -/
def tokenSpent (data : Bytes) (loc : PolicyLocation) (out : Outflows) (action : ActionView) :
    Except ProgramError ℕ := do
  let mint ← readBytes32 data (loc.abs action.dataOffset)
  .ok (mintOutflow out.flows mint)

/-- Phase 1b: one token limit. -/
def checkTokenLimit (data : Bytes) (loc : PolicyLocation) (out : Outflows) (currentSlot : ℕ)
    (action : ActionView) : Except ProgramError Unit :=
  let offset := loc.abs action.dataOffset
  let expired := isExpired action currentSlot
  match action.actionType with
  | .tokenMaxPerTx => do
    let spent ← tokenSpent data loc out action
    checkCap data (offset + 32) expired spent .actionTokenMaxPerTxExceeded
  | .tokenLimit => do
    let spent ← tokenSpent data loc out action
    checkCap data (offset + 32) expired spent .actionTokenLimitExceeded
  | .tokenRecurringLimit => do
    let spent ← tokenSpent data loc out action
    checkRecurring data (offset + 32) expired spent currentSlot .actionTokenRecurringLimitExceeded
  | _ => .ok ()

/-- Whether any `Token*` action, expired or not, names the mint. -/
def namesMint (data : Bytes) (loc : PolicyLocation) (mint : Bytes) :
    List ActionView → Except ProgramError Bool
  | [] => .ok false
  | action :: rest =>
    if action.actionType.isToken then do
      let named ← readBytes32 data (loc.abs action.dataOffset)
      if named = mint then .ok true else namesMint data loc mint rest
    else namesMint data loc mint rest

/-- Phase 1c: a mint that fell must be named. -/
def checkListedMint (data : Bytes) (loc : PolicyLocation) (actions : List ActionView) (flow : MintFlow) :
    Except ProgramError Unit :=
  if 0 < flow.outflow then do
    let named ← namesMint data loc flow.mint actions
    Except.ensure (named = true) ↑AuthError.actionUnlistedTokenOutflow
  else .ok ()

/-- Every read-only phase of the post-CPI evaluation, over the parsed actions. -/
def checkPostActions (data : Bytes) (loc : PolicyLocation) (out : Outflows) (currentSlot : ℕ)
    (actions : List ActionView) : Except ProgramError Unit := do
  actions.forM (checkSolLimit data loc out currentSlot)
  actions.forM (checkTokenLimit data loc out currentSlot)
  Except.ensure (¬(actions.any (·.actionType.isSol) = false ∧ 0 < out.solSpent))
    ↑AuthError.actionUnlistedSolOutflow
  out.flows.forM (checkListedMint data loc actions)

/-- Lower what remains of a lifetime limit. -/
def commitCap (data : Bytes) (offset spent : ℕ) : Except ProgramError Bytes :=
  if 0 < spent then do
    let remaining ← readU64 data offset
    writeU64 data offset (remaining - spent)
  else .ok data

/-- Add to a window's total, or open a new window at this slot. -/
def commitRecurring (data : Bytes) (offset amount currentSlot : ℕ) : Except ProgramError Bytes :=
  if 0 < amount then do
    let spent ← readU64 data (offset + 8)
    let window ← readU64 data (offset + 16)
    let lastReset ← readU64 data (offset + 24)
    let data ← writeU64 data (offset + 8)
      (if window < currentSlot - lastReset then amount else saturatingAdd spent amount)
    writeU64 data (offset + 24) (if window < currentSlot - lastReset then currentSlot else lastReset)
  else .ok data

/-- Phase 2: write the running totals of one action. -/
def commitAction (loc : PolicyLocation) (out : Outflows) (currentSlot : ℕ) (data : Bytes)
    (action : ActionView) : Except ProgramError Bytes :=
  let offset := loc.abs action.dataOffset
  if isExpired action currentSlot then .ok data
  else match action.actionType with
  | .solLimit => commitCap data offset out.solSpent
  | .solRecurringLimit => commitRecurring data offset out.solSpent currentSlot
  | .tokenLimit => do
    let spent ← tokenSpent data loc out action
    commitCap data (offset + 32) spent
  | .tokenRecurringLimit => do
    let spent ← tokenSpent data loc out action
    commitRecurring data (offset + 32) spent currentSlot
  | _ => .ok data

/-- The writes of phase 2 in order. Where one of them panics the writes before it remain. -/
def commitActions (loc : PolicyLocation) (out : Outflows) (currentSlot : ℕ) :
    List ActionView → Bytes → Except ProgramError Unit × Bytes
  | [], data => (.ok (), data)
  | action :: rest, data =>
    match commitAction loc out currentSlot data action with
    | .error e => (.error e, data)
    | .ok written => commitActions loc out currentSlot rest written

/-- Evaluate the policy after the inner instructions: the verdict, and the account's bytes
afterwards. -/
def evaluatePostActions (sessionData : Bytes) (loc : PolicyLocation)
    (vaultLamportsBefore vaultLamportsAfter vaultLamportsGrossOut : ℕ) (flows : List MintFlow)
    (currentSlot : ℕ) : Except ProgramError Unit × Bytes :=
  if loc.isPresent sessionData then
    let out : Outflows := ⟨vaultLamportsBefore - vaultLamportsAfter, vaultLamportsGrossOut, flows⟩
    match parseActions (loc.slice sessionData) with
    | .error e => (.error e, sessionData)
    | .ok actions =>
      match checkPostActions sessionData loc out currentSlot actions with
      | .error e => (.error e, sessionData)
      | .ok _ => commitActions loc out currentSlot actions sessionData
  else (.ok (), sessionData)

end LazorKit
