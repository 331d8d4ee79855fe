import LazorKit.Model.State

/-! # Action buffers

A policy is a flat list of actions, each an 11-byte header `[type][data_len: u16][expires_at: u64]`
followed by data of the type's own size. `parseActions` walks the headers and returns views, that
is, offsets into the buffer; `validateActionsBuffer` is the creation-time gate. The only bytes that
change later are the running totals inside the data, so views stay good for the account's life.
-/

namespace LazorKit

open Solana

def actionHeaderSize : ℕ := 11
def maxActions : ℕ := 16

inductive ActionType where
  | solLimit
  | solRecurringLimit
  | solMaxPerTx
  | tokenLimit
  | tokenRecurringLimit
  | tokenMaxPerTx
  | programWhitelist
  | programBlacklist
deriving DecidableEq, Repr

namespace ActionType

def fromU8 (value : UInt8) : Except ProgramError ActionType :=
  match value with
  | 1 => .ok .solLimit
  | 2 => .ok .solRecurringLimit
  | 3 => .ok .solMaxPerTx
  | 4 => .ok .tokenLimit
  | 5 => .ok .tokenRecurringLimit
  | 6 => .ok .tokenMaxPerTx
  | 10 => .ok .programWhitelist
  | 11 => .ok .programBlacklist
  | _ => .error ↑AuthError.actionBufferInvalid

/-- Data size of the type, without the header. -/
def expectedDataSize : ActionType → ℕ
  | .solLimit => 8
  | .solRecurringLimit => 32
  | .solMaxPerTx => 8
  | .tokenLimit => 40
  | .tokenRecurringLimit => 64
  | .tokenMaxPerTx => 40
  | .programWhitelist => 32
  | .programBlacklist => 32

/-- `Sol*`: the action names SOL. -/
def isSol : ActionType → Bool
  | .solLimit | .solRecurringLimit | .solMaxPerTx => true
  | _ => false

/-- `Token*`: the action names the mint its data begins with. -/
def isToken : ActionType → Bool
  | .tokenLimit | .tokenRecurringLimit | .tokenMaxPerTx => true
  | _ => false

end ActionType

/-- A parsed action: its data starts at `dataOffset` of the buffer. -/
structure ActionView where
  actionType : ActionType
  expiresAt : ℕ
  dataOffset : ℕ
  dataLen : ℕ
deriving DecidableEq, Repr

/-- The header walk from `cursor` on, with the views pushed so far. Every header takes the cursor
eleven bytes further, so the buffer's length is enough fuel. -/
def parseActionsFrom (buf : Bytes) : ℕ → ℕ → List ActionView → Except ProgramError (List ActionView)
  | 0, _, actions => .ok actions
  | fuel + 1, cursor, actions =>
    if cursor < buf.length then do
      Except.ensure (cursor + actionHeaderSize ≤ buf.length) ↑AuthError.actionBufferInvalid
      let actionType ← ActionType.fromU8 (buf.byte cursor)
      let dataLen := (buf.slice (cursor + 1) 2).toNatLE
      let expiresAt := (buf.slice (cursor + 3) 8).toNatLE
      let dataOffset := cursor + actionHeaderSize
      Except.ensure (dataOffset + dataLen ≤ buf.length) ↑AuthError.actionBufferInvalid
      let actions := actions ++ [(⟨actionType, expiresAt, dataOffset, dataLen⟩ : ActionView)]
      Except.ensure (actions.length ≤ maxActions) ↑AuthError.actionBufferInvalid
      parseActionsFrom buf fuel (dataOffset + dataLen) actions
    else .ok actions

def parseActions (buf : Bytes) : Except ProgramError (List ActionView) :=
  parseActionsFrom buf buf.length 0 []

/-- `u64::saturating_add`. -/
def saturatingAdd (a b : ℕ) : ℕ := min (a + b) (2 ^ 64 - 1)

/-- `data[offset..offset + 8]` as a number; the slice panics out of range. -/
def readU64 (data : Bytes) (offset : ℕ) : Except ProgramError ℕ := do
  Except.ensure (offset + 8 ≤ data.length) (.runtime .programPanicked)
  .ok (data.slice offset 8).toNatLE

/-- Overwrite `data[offset..offset + 8]`. -/
def writeU64 (data : Bytes) (offset value : ℕ) : Except ProgramError Bytes := do
  Except.ensure (offset + 8 ≤ data.length) (.runtime .programPanicked)
  .ok (data.splice offset (Bytes.ofNatLE 8 value))

/-- `data[offset..offset + 32]`; the slice panics out of range. -/
def readBytes32 (data : Bytes) (offset : ℕ) : Except ProgramError Bytes := do
  Except.ensure (offset + 32 ≤ data.length) (.runtime .programPanicked)
  .ok (data.slice offset 32)

/-- The three SOL limits may each stand once; `seen` are the ones met so far. -/
def checkSolActionsOnce : List ActionType → List ActionView → Except ProgramError Unit
  | _, [] => .ok ()
  | seen, action :: rest =>
    if action.actionType.isSol then do
      Except.ensure (action.actionType ∉ seen) ↑AuthError.actionBufferInvalid
      checkSolActionsOnce (action.actionType :: seen) rest
    else checkSolActionsOnce seen rest

/-- Actions of one token type name distinct mints. -/
def checkTokenMintsDistinct (buf : Bytes) (actions : List ActionView) (tokenType : ActionType) :
    Except ProgramError Unit :=
  Except.ensure ((actions.filter (·.actionType = tokenType)).Pairwise
      fun a b => buf.slice a.dataOffset 32 ≠ buf.slice b.dataOffset 32)
    ↑AuthError.actionBufferInvalid

/-- A recurring limit starts unspent, with a window and no reset; its fields begin `base` bytes
into the data. -/
def checkRecurringInitial (buf : Bytes) (action : ActionView) (base : ℕ) : Except ProgramError Unit := do
  let spent ← readU64 buf (action.dataOffset + base + 8)
  Except.ensure (spent = 0) ↑AuthError.actionBufferInvalid
  let window ← readU64 buf (action.dataOffset + base + 16)
  Except.ensure (window ≠ 0) ↑AuthError.actionBufferInvalid
  let lastReset ← readU64 buf (action.dataOffset + base + 24)
  Except.ensure (lastReset = 0) ↑AuthError.actionBufferInvalid

def checkInitialState (buf : Bytes) (action : ActionView) : Except ProgramError Unit :=
  match action.actionType with
  | .solRecurringLimit => checkRecurringInitial buf action 0
  | .tokenRecurringLimit => checkRecurringInitial buf action 32
  | _ => .ok ()

/-- Every action's data has the size its type asks for. -/
def checkDataSize (action : ActionView) : Except ProgramError Unit :=
  Except.ensure (action.dataLen = action.actionType.expectedDataSize) ↑AuthError.actionBufferInvalid

/-- Validate an actions buffer when a session or a Delegate is created. -/
def validateActionsBuffer (buf : Bytes) : Except ProgramError Unit :=
  if buf.isEmpty then .ok () else do
    let actions ← parseActions buf
    actions.forM checkDataSize
    Except.ensure (¬((actions.any (·.actionType = .programWhitelist)) ∧
        actions.any (·.actionType = .programBlacklist)))
      ↑AuthError.actionWhitelistBlacklistConflict
    checkSolActionsOnce [] actions
    checkTokenMintsDistinct buf actions .tokenLimit
    checkTokenMintsDistinct buf actions .tokenRecurringLimit
    checkTokenMintsDistinct buf actions .tokenMaxPerTx
    actions.forM (checkInitialState buf)

end LazorKit
