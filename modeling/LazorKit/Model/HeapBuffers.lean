import Mathlib.Algebra.Order.Ring.Nat
import LazorKit.Model.Execute
import LazorKit.ToMathlib.HeapVec

/-! # The pre-sized buffers

The program's heap is a bump allocator that never frees, so three loops size their vectors from a walk of the
input before they start: the action parser, the accounts-hash preimage, and the account metas and CPI
accounts that Execute and ExecuteDeferred refill for every inner instruction. Here these loops keep their
vectors, with what was pushed by the time a loop fails.
-/

namespace LazorKit

open Solana

/-- The walk over the headers from `cursor` on, with `count` of them met; it ends one past the limit. -/
def countActionHeadersFrom (buf : Bytes) : ℕ → ℕ → ℕ → ℕ
  | 0, _, count => count
  | fuel + 1, cursor, count =>
    if count ≤ maxActions ∧ cursor + actionHeaderSize ≤ buf.length then
      let dataLen := (buf.slice (cursor + 1) 2).toNatLE
      countActionHeadersFrom buf fuel (cursor + (actionHeaderSize + dataLen)) (count + 1)
    else count

/-- How many action headers `parseActions` will push. -/
def countActionHeaders (buf : Bytes) : ℕ := countActionHeadersFrom buf (maxActions + 1) 0 0

/-- The header walk of `parseActionsFrom`, with its vector of views. -/
def pushActionsFrom (buf : Bytes) : ℕ → ℕ → HeapVec ActionView → Except ProgramError Unit × HeapVec ActionView
  | 0, _, actions => (.ok (), actions)
  | fuel + 1, cursor, actions =>
    if cursor < buf.length then
      if cursor + actionHeaderSize ≤ buf.length then
        match ActionType.fromU8 (buf.byte cursor) with
        | .error e => (.error e, actions)
        | .ok actionType =>
          let dataLen := (buf.slice (cursor + 1) 2).toNatLE
          let expiresAt := (buf.slice (cursor + 3) 8).toNatLE
          let dataOffset := cursor + actionHeaderSize
          if dataOffset + dataLen ≤ buf.length then
            let actions := actions.push ⟨actionType, expiresAt, dataOffset, dataLen⟩
            if actions.items.length ≤ maxActions then pushActionsFrom buf fuel (dataOffset + dataLen) actions
            else (.error ↑AuthError.actionBufferInvalid, actions)
          else (.error ↑AuthError.actionBufferInvalid, actions)
      else (.error ↑AuthError.actionBufferInvalid, actions)
    else (.ok (), actions)

/-- `parseActions` with its vector, sized by the count. -/
def pushActions (buf : Bytes) : Except ProgramError Unit × HeapVec ActionView :=
  pushActionsFrom buf buf.length 0 (.withCapacity (countActionHeaders buf))

/-- Bytes one account adds to the preimage: its 32-byte key and its flags byte. -/
def accountsHashEntryLen : ℕ := 33

/-- How many accounts the accounts hash walks. -/
def accountsHashEntries (compactInstructions : List CompactInstruction) : ℕ :=
  (compactInstructions.map fun ix => 1 + ix.accounts.length).sum

def pushHashedAccount (accounts : List AccountInfo) (preimage : HeapVec UInt8) (index : ℕ) :
    Except ProgramError Unit × HeapVec UInt8 :=
  match accountByIndex accounts index with
  | .error e => (.error e, preimage)
  | .ok acc => (.ok (), (preimage.extend acc.key.bytes).push (accountFlags acc.isSigner acc.isWritable))

/-- `accountsHashPreimage` with its vector, sized by the number of entries. -/
def pushAccountsHashPreimage (accounts : List AccountInfo) (ixs : List CompactInstruction) :
    Except ProgramError Unit × HeapVec UInt8 :=
  Except.foldlKeeping (pushHashedAccount accounts) (ixs.flatMap CompactInstruction.hashedIndices)
    (.withCapacity (accountsHashEntries ixs * accountsHashEntryLen))

/-- The most accounts any one compact instruction references. -/
def maxInnerAccounts (compactInstructions : List CompactInstruction) : ℕ :=
  (compactInstructions.map fun ix => ix.accounts.length).max?.getD 0

/-- The two vectors reused across the inner instructions. -/
structure CpiBuffers where
  accountMetas : HeapVec AccountMeta
  cpiAccounts : HeapVec AccountInfo

namespace CpiBuffers

def withCapacity (widest : ℕ) : CpiBuffers := ⟨.withCapacity widest, .withCapacity widest⟩

def clear (buffers : CpiBuffers) : CpiBuffers := ⟨buffers.accountMetas.clear, buffers.cpiAccounts.clear⟩

def push (payerKey vaultKey : Pubkey) (sessionKey : Option Pubkey) (buffers : CpiBuffers)
    (acc : AccountInfo × Bool) : CpiBuffers where
  accountMetas := buffers.accountMetas.push (innerMeta payerKey vaultKey sessionKey acc)
  cpiAccounts := buffers.cpiAccounts.push acc.1

/-- Cleared, then one push for each account. -/
def refill (payerKey vaultKey : Pubkey) (sessionKey : Option Pubkey) (buffers : CpiBuffers)
    (accounts : List (AccountInfo × Bool)) : CpiBuffers :=
  accounts.foldl (push payerKey vaultKey sessionKey) buffers.clear

end CpiBuffers

/-- `executeInner`, with the instruction it issues built in the vectors. -/
def executeInnerBuffered (dep : Deployment) (fr : Frame) (accounts : List AccountInfo) (payerKey vaultKey : Pubkey)
    (sessionKey : Option Pubkey) (m : Machine Approval) (buffers : CpiBuffers) (ix : CompactInstruction) :
    Except ProgramError (Machine Approval) × CpiBuffers :=
  match ix.decompress accounts with
  | .error e => (.error e, buffers)
  | .ok decompressed =>
    if decompressed.programId ≠ dep.programId then
      let buffers := buffers.refill payerKey vaultKey sessionKey decompressed.accounts
      (m.invoke dep.toRuntime fr ⟨decompressed.programId, buffers.accountMetas.items, decompressed.data⟩, buffers)
    else (.error ↑AuthError.selfReentrancyNotAllowed, buffers)

/-- One round of Execute's loop with the vectors. -/
def executeTrackedBuffered (dep : Deployment) (fr : Frame) (accounts : List AccountInfo) (payerKey vaultKey : Pubkey)
    (sessionKey : Option Pubkey) (state : CpiProgress × CpiBuffers) (ix : CompactInstruction) :
    Except ProgramError Unit × (CpiProgress × CpiBuffers) :=
  let issued := executeInnerBuffered dep fr accounts payerKey vaultKey sessionKey state.1.machine state.2 ix
  match issued.1 with
  | .error e => (.error e, (state.1, issued.2))
  | .ok m => (.ok (), (trackOutflow vaultKey state.1 m, issued.2))

/-- Execute's loop, from vectors sized to the widest instruction. -/
def executeLoopBuffered (dep : Deployment) (fr : Frame) (accounts : List AccountInfo) (payerKey vaultKey : Pubkey)
    (sessionKey : Option Pubkey) (ixs : List CompactInstruction) (progress : CpiProgress) :
    Except ProgramError Unit × (CpiProgress × CpiBuffers) :=
  Except.foldlKeeping (executeTrackedBuffered dep fr accounts payerKey vaultKey sessionKey) ixs
    (progress, .withCapacity (maxInnerAccounts ixs))

/-- One round of ExecuteDeferred's loop with the vectors. -/
def executeDeferredBuffered (dep : Deployment) (fr : Frame) (accounts : List AccountInfo) (payerKey vaultKey : Pubkey)
    (state : Machine Approval × CpiBuffers) (ix : CompactInstruction) :
    Except ProgramError Unit × (Machine Approval × CpiBuffers) :=
  let issued := executeInnerBuffered dep fr accounts payerKey vaultKey none state.1 state.2 ix
  match issued.1 with
  | .error e => (.error e, (state.1, issued.2))
  | .ok m => (.ok (), (m, issued.2))

/-- ExecuteDeferred's loop. -/
def executeDeferredLoopBuffered (dep : Deployment) (fr : Frame) (accounts : List AccountInfo)
    (payerKey vaultKey : Pubkey) (ixs : List CompactInstruction) (m : Machine Approval) :
    Except ProgramError Unit × (Machine Approval × CpiBuffers) :=
  Except.foldlKeeping (executeDeferredBuffered dep fr accounts payerKey vaultKey) ixs
    (m, .withCapacity (maxInnerAccounts ixs))

end LazorKit
