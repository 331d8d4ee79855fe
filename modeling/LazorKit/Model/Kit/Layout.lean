import LazorKit.Model.Kit.Packing
import LazorKit.ToMathlib.OrderedMap

/-! # The kit's compact layout

User instructions name accounts by address. `buildCompactLayout` gives each address an index into one account
table, the fixed accounts of the outer instruction first and every other address behind them with its merged
flags. `withRuntimeRoles` predicts the privileges the runtime will report for that table. The library's maps
keep insertion order. A user instruction without accounts or data has empty ones here, as the library treats
it.
-/

namespace LazorKit.Kit

open Solana

/-- An instruction as the user hands it over. -/
structure UserInstruction where
  programAddress : Pubkey
  accounts : List RoleMeta
  data : Bytes

/-- The flags collected for an address. -/
structure MutableMeta where
  isSigner : Bool
  isWritable : Bool

def roleFromFlags (isSigner isWritable : Bool) : AccountRole :=
  if isSigner then if isWritable then .writableSigner else .readonlySigner
  else if isWritable then .writable else .readonly

def flagsFromRole (role : AccountRole) : MutableMeta where
  isSigner := role = .readonlySigner ∨ role = .writableSigner
  isWritable := role = .writable ∨ role = .writableSigner

section Layout

/-- The index of each fixed address; the last one, where an address is listed twice. -/
def indexFixed (fixedAccounts : List Pubkey) : OrderedMap Pubkey ℕ :=
  fixedAccounts.zipIdx.foldl (fun map entry => map.set entry.1 entry.2) []

variable (indexMap : OrderedMap Pubkey ℕ)

/-- A program is a plain account, unless the table has it already. -/
def collectProgram (remaining : OrderedMap Pubkey MutableMeta) (program : Pubkey) : OrderedMap Pubkey MutableMeta :=
  if indexMap.has program = false ∧ remaining.has program = false then remaining.set program ⟨false, false⟩
  else remaining

/-- An account outside the fixed prefix; its most permissive flags win. -/
def collectAccount (remaining : OrderedMap Pubkey MutableMeta) (acc : RoleMeta) : OrderedMap Pubkey MutableMeta :=
  let flags := flagsFromRole acc.role
  if indexMap.has acc.address then remaining
  else match remaining.get? acc.address with
  | some existing =>
    remaining.set acc.address ⟨existing.isSigner || flags.isSigner, existing.isWritable || flags.isWritable⟩
  | none => remaining.set acc.address flags

def collectInstruction (remaining : OrderedMap Pubkey MutableMeta) (ix : UserInstruction) :
    OrderedMap Pubkey MutableMeta :=
  ix.accounts.foldl (collectAccount indexMap) (collectProgram indexMap remaining ix.programAddress)

/-- Indexes for the remaining accounts, behind the fixed ones. -/
def assignIndexes (nextIndex : ℕ) (remaining : List Pubkey) : OrderedMap Pubkey ℕ :=
  (remaining.zipIdx nextIndex).foldl (fun map entry => map.set entry.1 entry.2) indexMap

/-- One account reference. The payer's signature is never forwarded. -/
def compactAccount (payer : Pubkey) (acc : RoleMeta) : Except Error UInt8 :=
  encodeAccountIndex ((indexMap.get? acc.address).getD 0)
    ((flagsFromRole acc.role).isSigner && (acc.address ≠ payer : Bool))

def compactInstruction (payer : Pubkey) (ix : UserInstruction) : Except Error CompactInstruction := do
  let programIdIndex ← encodeAccountIndex ((indexMap.get? ix.programAddress).getD 0) false
  let accountIndexes ← ix.accounts.mapM (compactAccount indexMap payer)
  .ok ⟨programIdIndex, accountIndexes, ix.data⟩

end Layout

structure CompactLayout where
  compactInstructions : List CompactInstruction
  remainingAccounts : List RoleMeta

def buildCompactLayout (fixedAccounts : List Pubkey) (userInstructions : List UserInstruction) (payer : Pubkey) :
    Except Error CompactLayout := do
  let indexMap := indexFixed fixedAccounts
  let remainingMap := userInstructions.foldl (collectInstruction indexMap) []
  let indexMap := assignIndexes indexMap fixedAccounts.length remainingMap.keys
  let compactInstructions ← userInstructions.mapM (compactInstruction indexMap payer)
  .ok ⟨compactInstructions, remainingMap.map fun entry => ⟨entry.1, roleFromFlags entry.2.isSigner entry.2.isWritable⟩⟩

/-- Merge one account's role into what is known of its key. -/
def mergeRole (union : OrderedMap Pubkey ℕ) (acc : RoleMeta) : OrderedMap Pubkey ℕ :=
  union.set acc.address ((union.get? acc.address).getD 0 ||| acc.role.bits)

/-- What is known of each key: the union over the table, and a writable signer for the fee payer. -/
def unionRoles (metas : List RoleMeta) (feePayer : Option Pubkey) : OrderedMap Pubkey ℕ :=
  match feePayer with
  | some feePayer => mergeRole (metas.foldl mergeRole []) ⟨feePayer, .writableSigner⟩
  | none => metas.foldl mergeRole []

/-- The role of each account as the runtime will report it. -/
def withRuntimeRoles (metas : List RoleMeta) (feePayer : Option Pubkey) : List RoleMeta :=
  let union := unionRoles metas feePayer
  metas.map fun acc => ⟨acc.address, .ofBits ((union.get? acc.address).getD 0)⟩

structure HashedLayout where
  compactInstructions : List CompactInstruction
  remainingAccounts : List RoleMeta
  accountsHash : Bytes32

def buildCompactLayoutAndHash (sha256 : Bytes → Bytes32) (fixedAccounts : List RoleMeta)
    (userInstructions : List UserInstruction) (payer : Pubkey) (feePayer : Option Pubkey) :
      Except Error HashedLayout := do
  let layout ← buildCompactLayout (fixedAccounts.map (·.address)) userInstructions payer
  let allAccountMetas := withRuntimeRoles (fixedAccounts ++ layout.remainingAccounts) feePayer
  let accountsHash ← computeAccountsHash sha256 allAccountMetas layout.compactInstructions
  .ok ⟨layout.compactInstructions, layout.remainingAccounts, accountsHash⟩

end LazorKit.Kit
