import LazorKit.Model.Compact
import LazorKit.Model.Kit.Secp256r1

/-! # The kit's compact instructions

The kit names an account's privileges by a role, a two-bit set. It packs compact instructions into the wire
format and hashes the accounts they name. The packer is exported and takes indexes as numbers that nothing
checks; a layout makes its own with `encodeAccountIndex`, and where nothing but bytes arise they are bytes here.
-/

namespace LazorKit.Kit

open Solana

/-- `AccountRole` of `@solana/kit`. -/
inductive AccountRole where
  | readonly
  | writable
  | readonlySigner
  | writableSigner
deriving DecidableEq, Repr

namespace AccountRole

/-- The number of a role: bit 0 writable, bit 1 signer. -/
def bits : AccountRole → ℕ
  | .readonly => 0
  | .writable => 1
  | .readonlySigner => 2
  | .writableSigner => 3

/-- The role with this number. -/
def ofBits : ℕ → AccountRole
  | 0 => .readonly
  | 1 => .writable
  | 2 => .readonlySigner
  | _ => .writableSigner

def isSigner (role : AccountRole) : Bool := role = .readonlySigner ∨ role = .writableSigner
def isWritable (role : AccountRole) : Bool := role = .writable ∨ role = .writableSigner

end AccountRole

/-- An account reference of the kit. -/
structure RoleMeta where
  address : Pubkey
  role : AccountRole
deriving DecidableEq

def accountIndexMask : UInt8 := 0x7f
def accountIndexForwardSigner : UInt8 := 0x80
def maxAccountIndex : ℕ := 0x7f

/-- An index and its forward-signer request as one byte. -/
def encodeAccountIndex (index : ℕ) (forwardSigner : Bool) : Except Error UInt8 := do
  Except.ensure (index ≤ maxAccountIndex)
    ⟨s!"account index {index} exceeds the {maxAccountIndex} ceiling imposed by the " ++
    "forward-signer flag bit; reduce the number of accounts in this transaction"⟩
  .ok (if forwardSigner then UInt8.ofNat index ||| accountIndexForwardSigner else UInt8.ofNat index)

def decodeAccountIndex (byte : UInt8) : ℕ × Bool :=
  ((byte &&& accountIndexMask).toNat, byte &&& accountIndexForwardSigner ≠ 0)

def accountFlags (isSigner isWritable : Bool) : UInt8 :=
  (if isSigner then 1 else 0) ||| (if isWritable then 2 else 0)

/-- `CompactInstruction` of the library, as a caller hands it over. -/
structure RawCompactInstruction where
  programIdIndex : Number
  accountIndexes : List Number
  data : Bytes
deriving DecidableEq

/-- An instruction whose indexes are bytes, as the library holds it. -/
def RawCompactInstruction.ofBytes (ix : CompactInstruction) : RawCompactInstruction where
  programIdIndex := .ofByte ix.programIdIndex
  accountIndexes := ix.accounts.map Number.ofByte
  data := ix.data

instance : Coe (List CompactInstruction) (List RawCompactInstruction) := ⟨List.map .ofBytes⟩

/-- One instruction on the wire: `program_id_index num_accounts accounts… data_len data…`. -/
def packCompactInstruction (ix : RawCompactInstruction) : Bytes :=
  concatBytes [[ix.programIdIndex.toUint8, byteOf ix.accountIndexes.length], ix.accountIndexes.map (·.toUint8),
    [byteOf (ix.data.length % 256 : ℕ), byteOf (ix.data.length / 256 % 256 : ℕ)], ix.data]

def packCompactInstructions (instructions : List RawCompactInstruction) : Bytes :=
  concatBytes ([byteOf instructions.length] :: instructions.map packCompactInstruction)

def flagsOf (acc : RoleMeta) : UInt8 :=
  let role := acc.role.bits
  accountFlags (role &&& 0b10 ≠ 0) (role &&& 0b01 ≠ 0)

/-- The two parts an account adds. -/
def accountParts (acc : RoleMeta) : List Bytes := [acc.address.bytes, [flagsOf acc]]

/-- Push the parts of the account an index byte names. -/
def pushAccountParts (accountMetas : List RoleMeta) (parts : List Bytes) (byte : UInt8) :
    Except Error (List Bytes) := do
  let index := (decodeAccountIndex byte).1
  let count := accountMetas.length
  let acc ← Except.ofOption
    ⟨s!"compact ix references account_index {index} but only {count} accounts were supplied"⟩ accountMetas[index]?
  .ok (parts ++ accountParts acc)

/-- Push the parts of one instruction: its program, then each account it names. -/
def pushInstructionParts (accountMetas : List RoleMeta) (parts : List Bytes) (ix : CompactInstruction) :
    Except Error (List Bytes) := do
  let raw := ix.programIdIndex.toNat
  let count := accountMetas.length
  let program ← Except.ofOption
    ⟨s!"compact ix references program_id_index {raw} but only {count} accounts were supplied"⟩
    accountMetas[(decodeAccountIndex ix.programIdIndex).1]?
  ix.accounts.foldlM (pushAccountParts accountMetas) (parts ++ accountParts program)

def computeAccountsHash (sha256 : Bytes → Bytes32) (accountMetas : List RoleMeta)
    (instructions : List CompactInstruction) : Except Error Bytes32 := do
  let parts ← instructions.foldlM (pushInstructionParts accountMetas) []
  .ok (sha256 (concatBytes parts))

/-- The hash tx1 of the deferred flow signs. -/
def computeInstructionsHash (sha256 : Bytes → Bytes32) (instructions : List RawCompactInstruction) : Bytes32 :=
  sha256 (packCompactInstructions instructions)

end LazorKit.Kit
