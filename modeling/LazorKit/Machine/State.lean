import LazorKit.Machine.Account

/-! # Executing one invocation

`Machine` is the state an invocation threads through: the ledger, the inner instructions issued so
far and whatever the program itself approved. Each primitive enforces the runtime's rules at the
write: only the owning program changes data or spends lamports, and only of a writable account.
Inner instructions of other programs take their effect from the frame, under the same rules.
-/

namespace Solana

/-- The running state; `α` records what the program approved along the way. -/
structure Machine (α : Type) where
  ledger : Ledger
  invoked : List Instruction
  approved : List α

namespace Machine

variable {α : Type}

/-- An invocation begins with nothing issued and nothing approved. -/
def start (ledger : Ledger) : Machine α := ⟨ledger, [], []⟩

def data (m : Machine α) (key : Pubkey) : Bytes := (m.ledger key).data
def owner (m : Machine α) (key : Pubkey) : Pubkey := (m.ledger key).owner
def lamports (m : Machine α) (key : Pubkey) : ℕ := (m.ledger key).lamports

def setAccount (m : Machine α) (key : Pubkey) (account : Account) : Machine α :=
  { m with ledger := m.ledger.set key account }

/-- Record an approval. -/
def approve (m : Machine α) (approval : α) : Machine α :=
  { m with approved := m.approved ++ [approval] }

/-- Store into an account's data. A store that changes nothing is not an access. -/
def writeData (rt : Runtime) (m : Machine α) (acc : AccountInfo) (bytes : Bytes) :
    Except ProgramError (Machine α) :=
  if bytes = m.data acc.key then .ok m else do
    Except.ensure (acc.isWritable = true) (.runtime .readonlyModified)
    Except.ensure (m.owner acc.key = rt.programId) (.runtime .externalAccountDataModified)
    .ok (m.setAccount acc.key { m.ledger acc.key with data := bytes })

/-- Store into an account's lamports. Only the owning program may lower them. -/
def writeLamports (rt : Runtime) (m : Machine α) (acc : AccountInfo) (lamports : ℕ) :
    Except ProgramError (Machine α) :=
  if lamports = m.lamports acc.key then .ok m else do
    Except.ensure (acc.isWritable = true) (.runtime .readonlyModified)
    Except.ensure (m.lamports acc.key ≤ lamports ∨ m.owner acc.key = rt.programId)
      (.runtime .externalAccountLamportSpend)
    .ok (m.setAccount acc.key { m.ledger acc.key with lamports := lamports })

/-- What other programs may do to an account, whatever it was: an account of this program keeps its
owner and its data and loses no lamports; and an account that becomes this program's arrives zeroed,
since assigning an owner requires zeroed data. -/
def foreignChange (rt : Runtime) (old new : Account) : Prop :=
  if old.owner = rt.programId then
    new.owner = old.owner ∧ new.data = old.data ∧ old.lamports ≤ new.lamports
  else new.owner = rt.programId → new.data.isZero = true

instance (rt : Runtime) (old new : Account) : Decidable (foreignChange rt old new) :=
  inferInstanceAs (Decidable (if old.owner = rt.programId then
      new.owner = old.owner ∧ new.data = old.data ∧ old.lamports ≤ new.lamports
    else new.owner = rt.programId → new.data.isZero = true))

/-- What an inner instruction may do to one account: it must have been handed the account writable.
The runtime refuses re-entry, so whatever it does is done by other programs. -/
def mayChange (rt : Runtime) (ix : Instruction) (old : Account) (key : Pubkey) (new : Account) : Prop :=
  (∃ acc ∈ ix.accounts, acc.pubkey = key ∧ acc.isWritable = true) ∧ foreignChange rt old new

instance (rt : Runtime) (ix : Instruction) (old : Account) (key : Pubkey) (new : Account) :
    Decidable (mayChange rt ix old key new) :=
  inferInstanceAs (Decidable ((∃ acc ∈ ix.accounts, acc.pubkey = key ∧ acc.isWritable = true) ∧
    foreignChange rt old new))

/-- Apply one account change of an inner instruction. -/
def applyChange (rt : Runtime) (ix : Instruction) (ledger : Ledger) (change : Pubkey × Account) :
    Except ProgramError Ledger := do
  Except.ensure (mayChange rt ix (ledger change.1) change.1 change.2) (.runtime .innerInstructionFailed)
  .ok (ledger.set change.1 change.2)

/-- Issue an inner instruction to another program. If it fails, so does this invocation. -/
def invoke (rt : Runtime) (fr : Frame) (m : Machine α) (ix : Instruction) :
    Except ProgramError (Machine α) := do
  let changes ← Except.ofOption (.runtime .innerInstructionFailed) (fr.invoke ix m.ledger)
  let ledger ← changes.foldlM (applyChange rt ix) m.ledger
  .ok { m with ledger := ledger, invoked := m.invoked ++ [ix] }

/-- System program `Transfer`: both accounts writable, the sender a signer owned by the System
program without data and with sufficient lamports. -/
def systemTransfer (m : Machine α) (source target : AccountInfo) (sourceSigns : Bool) (amount : ℕ) :
    Except ProgramError (Machine α) := do
  Except.ensure (sourceSigns = true ∧ source.isWritable = true ∧ target.isWritable = true)
    (.runtime .privilegeEscalation)
  Except.ensure (m.data source.key = []) .invalidArgument
  Except.ensure (amount ≤ m.lamports source.key) (.custom 1)
  Except.ensure (amount = 0 ∨ m.owner source.key = systemProgram) (.runtime .externalAccountLamportSpend)
  let debited := m.setAccount source.key
    { m.ledger source.key with lamports := m.lamports source.key - amount }
  Except.ensure (debited.lamports target.key + amount < 2 ^ 64) .arithmeticOverflow
  .ok (debited.setAccount target.key
    { debited.ledger target.key with lamports := debited.lamports target.key + amount })

/-- System program `Allocate`, signed for by derivation: refused for an account that has data or
belongs to another program. -/
def systemAllocate (m : Machine α) (target : AccountInfo) (space : ℕ) :
    Except ProgramError (Machine α) := do
  Except.ensure (target.isWritable = true) (.runtime .privilegeEscalation)
  Except.ensure (m.data target.key = [] ∧ m.owner target.key = systemProgram) (.custom 0)
  .ok (m.setAccount target.key { m.ledger target.key with data := List.replicate space 0 })

/-- System program `Assign`, signed for by derivation. -/
def systemAssign (m : Machine α) (target : AccountInfo) (owner : Pubkey) :
    Except ProgramError (Machine α) :=
  if m.owner target.key = owner then .ok m else do
    Except.ensure (target.isWritable = true) (.runtime .privilegeEscalation)
    Except.ensure (m.owner target.key = systemProgram) (.runtime .modifiedProgramId)
    .ok (m.setAccount target.key { m.ledger target.key with owner := owner })

end Machine

/-- Read the rent schedule through the account passed for it. -/
def Rent.fromAccountInfo (rt : Runtime) (acc : AccountInfo) : Except ProgramError Rent := do
  Except.ensure (acc.key = rentSysvar) .invalidArgument
  .ok rt.rent

/-- The account at a position of the list. -/
def accountAt (accounts : List AccountInfo) (index : ℕ) : Except ProgramError AccountInfo :=
  Except.ofOption .notEnoughAccountKeys accounts[index]?

end Solana
