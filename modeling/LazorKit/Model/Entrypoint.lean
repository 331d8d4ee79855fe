import LazorKit.Model.Authority
import LazorKit.Model.Execute
import LazorKit.Model.Migrate
import LazorKit.Model.Protocol
import LazorKit.Model.Session

/-! # The entrypoint and whole runs

`processInstruction` refuses the wrong address and, on a sunset binary, everything but the way out;
it collects the fee and dispatches. A run interleaves such calls with whatever other programs do to
the ledger in between and with the runtime's removal of unfunded accounts.
-/

namespace LazorKit

open Solana

/-- The instructions a sunset binary still serves. -/
def isSunsetInstruction (discriminator : UInt8) : Bool :=
  discriminator = 8 ∨ discriminator = 17 ∨ discriminator = 18

/-- The instructions a fee is due for. -/
def isFeeEligible (discriminator : UInt8) : Bool :=
  discriminator = 0 ∨ discriminator = 4 ∨ discriminator = 7

/-- Hand the instruction to its processor. The protocol layer and migration take the whole account
list; they are never fee-eligible, so it is the same one. -/
def dispatch (dep : Deployment) (fr : Frame) (discriminator : UInt8)
    (processorAccounts accounts : List AccountInfo) (data : Bytes) (m : Machine Approval) :
    Except ProgramError (Machine Approval) :=
  match discriminator with
  | 0 => processCreateWallet dep processorAccounts data m
  | 1 => processAddAuthority dep fr processorAccounts data m
  | 2 => processRemoveAuthority dep fr processorAccounts data m
  | 3 => processTransferOwnership dep fr processorAccounts data m
  | 4 => processExecute dep fr processorAccounts data m
  | 5 => processCreateSession dep fr processorAccounts data m
  | 6 => processAuthorize dep fr processorAccounts data m
  | 7 => processExecuteDeferred dep fr processorAccounts data m
  | 8 => processReclaimDeferred dep fr processorAccounts m
  | 9 => processRevokeSession dep fr processorAccounts data m
  | 10 => processInitializeProtocol dep accounts data m
  | 11 => processUpdateProtocol dep accounts data m
  | 12 => processRegisterIntegrator dep fr accounts m
  | 13 => processWithdrawTreasury dep accounts m
  | 14 => processInitializeTreasuryShard dep accounts data m
  | 15 => processProposeProtocolAdmin dep accounts data m
  | 16 => processAcceptProtocolAdmin dep accounts m
  | 17 => processMigrateWallet dep fr accounts data m
  | 18 => processCloseExpiredSession dep fr processorAccounts m
  | _ => .error .invalidInstructionData

def processInstruction (dep : Deployment) (fr : Frame) (accounts : List AccountInfo)
    (instructionData : Bytes) (m : Machine Approval) : Except ProgramError (Machine Approval) := do
  Except.ensure (dep.programId = dep.id) ↑ProtocolError.wrongProgramAddress
  match instructionData with
  | [] => .error .invalidInstructionData
  | discriminator :: data => do
    Except.ensure (dep.sunset = true → isSunsetInstruction discriminator = true)
      ↑ProtocolError.retiredDeployment
    let collected ← (if isFeeEligible discriminator then tryCollectFee dep fr discriminator accounts m
      else .ok (m, accounts))
    dispatch dep fr discriminator collected.2 accounts data collected.1

/-- One invocation of the program. -/
structure Call where
  frame : Frame
  accounts : AccountList
  data : Bytes

/-- Invoke the program on a ledger. The runtime accepts the result only if no lamports were made or
lost among the accounts of the instruction. -/
def Call.execute (dep : Deployment) (call : Call) (ledger : Ledger) :
    Except ProgramError (Machine Approval) := do
  let m ← processInstruction dep call.frame call.accounts.infos call.data (Machine.start ledger)
  Except.ensure (m.ledger.total (call.accounts.infos.map (·.key)) =
    ledger.total (call.accounts.infos.map (·.key))) (.runtime .unbalancedInstruction)
  .ok m

/-- What can happen to the ledger: a call of this program, a change by any other program, or the
removal of an account without lamports. -/
inductive Event where
  | call (call : Call)
  | foreign (key : Pubkey) (account : Account)
  | purge (key : Pubkey)

/-- One event. A call that fails and a change that is not allowed leave everything as it was. -/
def step (dep : Deployment) (ledger : Ledger) : Event → Ledger
  | .call call =>
    match call.execute dep ledger with
    | .ok m => m.ledger
    | .error _ => ledger
  | .foreign key account =>
    if Machine.foreignChange dep.toRuntime (ledger key) account then ledger.set key account else ledger
  | .purge key => if (ledger key).lamports = 0 then ledger.set key default else ledger

/-- A whole run. -/
def run (dep : Deployment) (ledger : Ledger) (events : List Event) : Ledger :=
  events.foldl (step dep) ledger

/-- The ledger just before the `i`th event of a run. -/
def ledgerAt (dep : Deployment) (ledger : Ledger) (events : List Event) (i : ℕ) : Ledger :=
  run dep ledger (events.take i)

/-- The `i`th event of a run is a call, and it succeeds with this result. -/
def SucceedsAt (dep : Deployment) (ledger : Ledger) (events : List Event) (i : ℕ) (call : Call)
    (m : Machine Approval) : Prop :=
  events[i]? = some (.call call) ∧ call.execute dep (ledgerAt dep ledger events i) = .ok m

end LazorKit
