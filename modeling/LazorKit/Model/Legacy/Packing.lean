import LazorKit.Model.Kit.Packing

/-! # The legacy library's packer and accounts hash

The older library writes the same compact stream as the kit, of the same unchecked numbers. It carries an account's
privileges as two flags and pushes both the program and the accounts of an instruction through one closure.
-/

namespace LazorKit.Legacy

open Solana

def accountIndexMask : UInt8 := 0x7f
def accountIndexForwardSigner : UInt8 := 0x80

def decodeAccountIndex (byte : UInt8) : ℕ × Bool :=
  ((byte &&& accountIndexMask).toNat, byte &&& accountIndexForwardSigner ≠ 0)

def accountFlags (isSigner isWritable : Bool) : UInt8 :=
  (if isSigner then 1 else 0) ||| (if isWritable then 2 else 0)

/-- One instruction on the wire. -/
def packCompactInstruction (ix : Kit.RawCompactInstruction) : Bytes :=
  Kit.concatBytes [[ix.programIdIndex.toUint8, Kit.byteOf ix.accountIndexes.length],
    ix.accountIndexes.map (·.toUint8),
    [Kit.byteOf (ix.data.length % 256 : ℕ), Kit.byteOf (ix.data.length / 256 % 256 : ℕ)], ix.data]

def packCompactInstructions (instructions : List Kit.RawCompactInstruction) : Bytes :=
  Kit.concatBytes ([Kit.byteOf instructions.length] :: instructions.map packCompactInstruction)

/-- Push one account's key and flags; `what` names the reference when there is no such account. -/
def pushAccount (count : ℕ) (parts : List Bytes) (found : Option AccountMeta) (what : String) :
    Except Kit.Error (List Bytes) := do
  let acc ← Except.ofOption ⟨s!"compact ix references {what} but only {count} accounts were supplied"⟩ found
  .ok (parts ++ [acc.pubkey.bytes, [accountFlags acc.isSigner acc.isWritable]])

/-- Push the account an index byte names. -/
def pushIndexed (accountMetas : List AccountMeta) (parts : List Bytes) (byte : UInt8) :
    Except Kit.Error (List Bytes) :=
  let index := (decodeAccountIndex byte).1
  pushAccount accountMetas.length parts accountMetas[index]? s!"account_index {index}"

/-- Push one instruction: its program, then each account it names. -/
def pushInstruction (accountMetas : List AccountMeta) (parts : List Bytes) (ix : CompactInstruction) :
    Except Kit.Error (List Bytes) := do
  let raw := ix.programIdIndex.toNat
  let parts ← pushAccount accountMetas.length parts accountMetas[(decodeAccountIndex ix.programIdIndex).1]?
    s!"program_id_index {raw}"
  ix.accounts.foldlM (pushIndexed accountMetas) parts

def computeAccountsHash (sha256 : Bytes → Bytes32) (accountMetas : List AccountMeta)
    (instructions : List CompactInstruction) : Except Kit.Error Bytes32 := do
  let parts ← instructions.foldlM (pushInstruction accountMetas) []
  .ok (sha256 (Kit.concatBytes parts))

end LazorKit.Legacy
