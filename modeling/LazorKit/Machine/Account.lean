import LazorKit.ToMathlib.Bytes
import LazorKit.ToMathlib.ExceptBind

/-! # Accounts, ledgers and the fixed part of the runtime

An account is a balance, an owning program and its data; a ledger assigns one to every address.
An instruction names the accounts it may touch with the privileges the transaction granted. The
runtime hands the same memory to every repetition of a key, so repeated entries agree.
-/

namespace Solana

abbrev Pubkey := Bytes32

/-- One account. An address nothing was ever sent to is empty and owned by the System program. -/
@[ext] structure Account where
  lamports : ℕ
  owner : Pubkey
  data : Bytes
deriving DecidableEq

/-- `11111111111111111111111111111111`. -/
def systemProgram : Pubkey := .fill 0

instance : Inhabited Account := ⟨⟨0, systemProgram, []⟩⟩

abbrev Ledger := Pubkey → Account

namespace Ledger

def empty : Ledger := fun _ => default

/-- Replace one account. -/
def set (ledger : Ledger) (key : Pubkey) (account : Account) : Ledger :=
  fun other => if other = key then account else ledger other

theorem set_apply (ledger : Ledger) (key other : Pubkey) (account : Account) :
    ledger.set key account other = if other = key then account else ledger other := rfl

@[simp] theorem set_self (ledger : Ledger) (key : Pubkey) (account : Account) :
    ledger.set key account key = account := if_pos rfl

theorem set_of_ne {ledger : Ledger} {key other : Pubkey} {account : Account} (ne : other ≠ key) :
    ledger.set key account other = ledger other := if_neg ne

/-- The lamports held by the distinct addresses of a list. -/
def total (ledger : Ledger) (keys : List Pubkey) : ℕ :=
  (keys.dedup.map fun key => (ledger key).lamports).sum

end Ledger

/-- An account as an instruction receives it: its address and its granted privileges. -/
structure AccountInfo where
  key : Pubkey
  isSigner : Bool
  isWritable : Bool
deriving DecidableEq

/-- The account list of an instruction. The runtime passes at most 255 entries, and all entries
with one key share one privilege record. -/
structure AccountList where
  infos : List AccountInfo
  length_le : infos.length ≤ 255
  repeats_agree : ∀ a ∈ infos, ∀ b ∈ infos, a.key = b.key → a = b

/-- An account reference of an inner instruction. -/
structure AccountMeta where
  pubkey : Pubkey
  isSigner : Bool
  isWritable : Bool
deriving DecidableEq

/-- An inner instruction. -/
structure Instruction where
  programId : Pubkey
  accounts : List AccountMeta
  data : Bytes
deriving DecidableEq

/-- Violations the runtime itself detects; any of them reverts the whole instruction. -/
inductive RuntimeError where
  | privilegeEscalation
  | readonlyModified
  | externalAccountDataModified
  | externalAccountLamportSpend
  | modifiedProgramId
  | unbalancedInstruction
  | innerInstructionFailed
  | programPanicked
deriving DecidableEq, Repr

/-- The error an instruction returns. -/
inductive ProgramError where
  | invalidArgument
  | invalidInstructionData
  | invalidAccountData
  | accountAlreadyInitialized
  | missingRequiredSignature
  | notEnoughAccountKeys
  | illegalOwner
  | incorrectProgramId
  | invalidSeeds
  | arithmeticOverflow
  | custom (code : ℕ)
  | runtime (violation : RuntimeError)
deriving DecidableEq, Repr

/-- The rent schedule: every account size has a positive exempt minimum. -/
structure Rent where
  minimumBalance : ℕ → ℕ
  minimumBalance_pos : ∀ size, 0 < minimumBalance size

/-- What stays the same over a run: the deployed program's address, which is not the System
program's, address derivation under it, the SHA-256 syscall and the rent schedule. -/
structure Runtime where
  programId : Pubkey
  programId_ne_system : programId ≠ systemProgram
  findProgramAddress : List Bytes → Pubkey × UInt8
  sha256 : Bytes → Bytes32
  rent : Rent

/-- `SysvarRent111111111111111111111111111111111`. -/
def rentSysvar : Pubkey :=
  .ofBytes [6, 167, 213, 23, 25, 44, 92, 81, 33, 140, 201, 76, 61, 74, 241, 127, 88, 218, 238, 8,
    155, 161, 253, 68, 227, 219, 217, 138, 0, 0, 0, 0]

/-- `Sysvar1nstructions1111111111111111111111111`. -/
def instructionsSysvar : Pubkey :=
  .ofBytes [6, 167, 213, 23, 24, 123, 209, 102, 53, 218, 212, 4, 85, 253, 194, 192, 193, 36, 198,
    143, 33, 86, 117, 165, 219, 186, 203, 95, 8, 0, 0, 0]

/-- What one invocation sees of its surroundings: the clock, its depth in the call stack, the
transaction's top-level instructions with its own position among them, and what each inner
instruction it issues will do to the ledger. -/
structure Frame where
  slot : UInt64
  stackHeight : ℕ
  instructions : List (Pubkey × Bytes)
  currentIndex : ℕ
  invoke : Instruction → Ledger → Option (List (Pubkey × Account))

end Solana
