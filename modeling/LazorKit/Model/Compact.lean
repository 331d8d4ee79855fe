import LazorKit.Model.Error

/-! # Compact instructions

Inner instructions arrive packed: accounts are named by their position in the outer list, and the
high bit of an account byte asks for the outer signature to be forwarded. The accounts hash walks
the same positions and binds, for each, the key and the privileges the runtime granted.
-/

namespace LazorKit

open Solana

def maxCompactInstructions : ℕ := 16

/-- Highest addressable account position, given the flag bit. -/
def maxAccountIndex : UInt8 := 0x7f

structure CompactInstruction where
  programIdIndex : UInt8
  accounts : Bytes
  data : Bytes
deriving DecidableEq, Repr

/-- Split an index byte into the position and the forward-signer bit. -/
def decodeAccountIndex (byte : UInt8) : ℕ × Bool := ((byte &&& 0x7f).toNat, byte &&& 0x80 ≠ 0)

namespace CompactInstruction

/-- One instruction off the front:
`[program_id_index][num_accounts][accounts…][data_len: u16][data…]`. -/
def fromBytes (bytes : Bytes) : Except ProgramError (CompactInstruction × Bytes) := do
  Except.ensure (4 ≤ bytes.length) .invalidInstructionData
  Except.ensure (bytes.byte 0 ≤ maxAccountIndex) .invalidInstructionData
  let numAccounts := (bytes.byte 1).toNat
  Except.ensure (2 + numAccounts + 2 ≤ bytes.length) .invalidInstructionData
  let dataLen := (bytes.slice (2 + numAccounts) 2).toNatLE
  let dataStart := 2 + numAccounts + 2
  Except.ensure (dataStart + dataLen ≤ bytes.length) .invalidInstructionData
  .ok (⟨bytes.byte 0, bytes.slice 2 numAccounts, bytes.slice dataStart dataLen⟩,
    bytes.drop (dataStart + dataLen))

/-- The inverse of `fromBytes`. -/
def toBytes (ix : CompactInstruction) : Bytes :=
  [ix.programIdIndex, UInt8.ofNat ix.accounts.length] ++ ix.accounts ++
    Bytes.ofNatLE 2 ix.data.length ++ ix.data

end CompactInstruction

/-- `count` instructions off the front, with what remains. -/
def parseCompactInstructions : ℕ → Bytes → Except ProgramError (List CompactInstruction × Bytes)
  | 0, remaining => .ok ([], remaining)
  | count + 1, remaining => do
    let head ← CompactInstruction.fromBytes remaining
    let tail ← parseCompactInstructions count head.2
    .ok (head.1 :: tail.1, tail.2)

/-- Parse the instruction stream and return how many bytes it took. -/
def parseCompactInstructionsRefWithLen (bytes : Bytes) :
    Except ProgramError (List CompactInstruction × ℕ) :=
  match bytes with
  | [] => .error .invalidInstructionData
  | numInstructions :: rest => do
    Except.ensure (numInstructions.toNat ≤ maxCompactInstructions) .invalidInstructionData
    let parsed ← parseCompactInstructions numInstructions.toNat rest
    .ok (parsed.1, bytes.length - parsed.2.length)

/-- The parser that copies: one instruction off the front, its length read byte by byte. -/
def CompactInstruction.fromBytesOwned (bytes : Bytes) : Except ProgramError (CompactInstruction × Bytes) := do
  Except.ensure (4 ≤ bytes.length) .invalidInstructionData
  let programIdIndex := bytes.byte 0
  Except.ensure (programIdIndex ≤ maxAccountIndex) .invalidInstructionData
  let numAccounts := (bytes.byte 1).toNat
  Except.ensure (2 + numAccounts + 2 ≤ bytes.length) .invalidInstructionData
  let accounts := bytes.slice 2 numAccounts
  let dataLenOffset := 2 + numAccounts
  let dataLen := (bytes.byte dataLenOffset).toNat + 256 * (bytes.byte (dataLenOffset + 1)).toNat
  let dataStart := dataLenOffset + 2
  Except.ensure (dataStart + dataLen ≤ bytes.length) .invalidInstructionData
  .ok (⟨programIdIndex, accounts, bytes.slice dataStart dataLen⟩, bytes.drop (dataStart + dataLen))

/-- Its loop, with the instructions pushed so far. -/
def pushCompactInstructions :
    ℕ → List CompactInstruction → Bytes → Except ProgramError (List CompactInstruction × Bytes)
  | 0, instructions, remaining => .ok (instructions, remaining)
  | count + 1, instructions, remaining => do
    let parsed ← CompactInstruction.fromBytesOwned remaining
    pushCompactInstructions count (instructions ++ [parsed.1]) parsed.2

/-- Parse the instruction stream into copies and return how many bytes it took. -/
def parseCompactInstructionsWithLen (bytes : Bytes) : Except ProgramError (List CompactInstruction × ℕ) := do
  Except.ensure (bytes.isEmpty = false) .invalidInstructionData
  let numInstructions := (bytes.byte 0).toNat
  Except.ensure (numInstructions ≤ maxCompactInstructions) .invalidInstructionData
  let parsed ← pushCompactInstructions numInstructions [] (bytes.drop 1)
  .ok (parsed.1, bytes.length - parsed.2.length)

/-- Write the instruction stream. Both counts are asserted to fit a byte; the length of the data is cut
to sixteen bits. -/
def serializeCompactInstructions (ixs : List CompactInstruction) : Except ProgramError Bytes := do
  Except.ensure (ixs.length ≤ 255) (.runtime .programPanicked)
  ixs.forM fun ix => Except.ensure (ix.accounts.length ≤ 255) (.runtime .programPanicked)
  .ok (UInt8.ofNat ixs.length :: ixs.flatMap CompactInstruction.toBytes)

/-- The writer of a single instruction: the number of accounts is asserted to fit a byte, the length of the
data is cut to sixteen bits. -/
def CompactInstruction.toBytesAsserted (ix : CompactInstruction) : Except ProgramError Bytes := do
  Except.ensure (ix.accounts.length ≤ 255) (.runtime .programPanicked)
  .ok ix.toBytes

structure DecompressedInstruction where
  programId : Pubkey
  accounts : List (AccountInfo × Bool)
  data : Bytes

/-- The account at a position of the outer list. -/
def accountByIndex (accounts : List AccountInfo) (index : ℕ) : Except ProgramError AccountInfo :=
  Except.ofOption .invalidInstructionData accounts[index]?

/-- The account an index byte names, with its forward-signer request. -/
def resolveAccount (accounts : List AccountInfo) (byte : UInt8) :
    Except ProgramError (AccountInfo × Bool) := do
  let acc ← accountByIndex accounts (decodeAccountIndex byte).1
  .ok (acc, (decodeAccountIndex byte).2)

/-- Expand the positions of one instruction. -/
def CompactInstruction.decompress (ix : CompactInstruction) (accounts : List AccountInfo) :
    Except ProgramError DecompressedInstruction := do
  let program ← accountByIndex accounts ix.programIdIndex.toNat
  let resolved ← ix.accounts.mapM (resolveAccount accounts)
  .ok ⟨program.key, resolved, ix.data⟩

/-- Privilege byte hashed after each key: bit 0 signer, bit 1 writable. -/
def accountFlags (isSigner isWritable : Bool) : UInt8 :=
  (if isSigner then 1 else 0) ||| (if isWritable then 2 else 0)

/-- What one account adds to the accounts-hash preimage: its key and its flags. -/
def accountsHashEntry (accounts : List AccountInfo) (index : ℕ) : Except ProgramError Bytes := do
  let acc ← accountByIndex accounts index
  .ok (acc.key.bytes ++ [accountFlags acc.isSigner acc.isWritable])

/-- The positions an instruction contributes to the accounts hash: its program, then its accounts,
the forward-signer bit masked off. -/
def CompactInstruction.hashedIndices (ix : CompactInstruction) : List ℕ :=
  (decodeAccountIndex ix.programIdIndex).1 :: ix.accounts.map fun byte => (decodeAccountIndex byte).1

def accountsHashPreimage (accounts : List AccountInfo) (ixs : List CompactInstruction) :
    Except ProgramError Bytes := do
  let entries ← (ixs.flatMap CompactInstruction.hashedIndices).mapM (accountsHashEntry accounts)
  .ok entries.flatten

def computeAccountsHash (rt : Runtime) (accounts : List AccountInfo) (ixs : List CompactInstruction) :
    Except ProgramError Bytes32 := do
  let preimage ← accountsHashPreimage accounts ixs
  .ok (rt.sha256 preimage)

end LazorKit
