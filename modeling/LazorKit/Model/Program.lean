import LazorKit.Model.State

/-! # The deployed program

What is compiled into a binary, the address seeds, and the helpers every processor shares: creating
an account at a derived address, and closing one into a refund destination.
-/

namespace LazorKit

open Solana

/-- A deployed binary: the runtime it runs under, the address it was compiled for, the only key that
may initialise the protocol, and whether it is the sunset build of a retired address. -/
structure Deployment extends Runtime where
  id : Pubkey
  protocolInitAuthority : Pubkey
  sunset : Bool

/-- A passkey assertion the program accepted: the parts of the challenge preimage that vary, and
what the authenticator returned for it. -/
structure Assertion where
  authPrefix : Bytes
  signedPayload : Bytes
  payer : Pubkey
  wallet : Pubkey
  counter : ℕ
  authenticatorData : Bytes
  clientDataJson : Bytes
  signature : Bytes
deriving DecidableEq

/-- What authorised an instruction: an authority account, with the assertion when it is a passkey,
or a session account. -/
inductive Approval where
  | authority (account : Pubkey) (discriminator : UInt8) (assertion : Option Assertion)
  | session (account sessionKey : Pubkey)
deriving DecidableEq

namespace Seeds

/-- `lk2:wallet`. -/
def wallet : Bytes := [108, 107, 50, 58, 119, 97, 108, 108, 101, 116]

/-- `lk2:vault`. -/
def vault : Bytes := [108, 107, 50, 58, 118, 97, 117, 108, 116]

/-- `lk2:authority`. -/
def authority : Bytes := [108, 107, 50, 58, 97, 117, 116, 104, 111, 114, 105, 116, 121]

/-- `lk2:session`. -/
def session : Bytes := [108, 107, 50, 58, 115, 101, 115, 115, 105, 111, 110]

/-- `lk2:deferred`. -/
def deferred : Bytes := [108, 107, 50, 58, 100, 101, 102, 101, 114, 114, 101, 100]

/-- `lk2:protocol_config`. -/
def protocolConfig : Bytes :=
  [108, 107, 50, 58, 112, 114, 111, 116, 111, 99, 111, 108, 95, 99, 111, 110, 102, 105, 103]

/-- `lk2:treasury_shard`. -/
def treasuryShard : Bytes :=
  [108, 107, 50, 58, 116, 114, 101, 97, 115, 117, 114, 121, 95, 115, 104, 97, 114, 100]

/-- `lk2:fee_record`. -/
def feeRecord : Bytes := [108, 107, 50, 58, 102, 101, 101, 95, 114, 101, 99, 111, 114, 100]

/-- `vault`, the seed a v1 vault was derived with. -/
def legacyVault : Bytes := [118, 97, 117, 108, 116]

end Seeds

/-- `data_len() == 0`. -/
def checkZeroData {α : Type} (m : Machine α) (acc : AccountInfo) (e : ProgramError) :
    Except ProgramError Unit :=
  Except.ensure (m.data acc.key = []) e

/-- Create an account at a derived address by transfer, allocate and assign, so that lamports sent
there beforehand cannot block it. -/
def initializePdaAccount {α : Type} (dep : Deployment) (m : Machine α)
    (payer targetPda systemProgram : AccountInfo) (space rentLamports : ℕ) :
    Except ProgramError (Machine α) := do
  Except.ensure (systemProgram.key = Solana.systemProgram) .incorrectProgramId
  let m ← (if m.lamports targetPda.key < rentLamports then
      m.systemTransfer payer targetPda payer.isSigner (rentLamports - m.lamports targetPda.key)
    else .ok m)
  let m ← m.systemAllocate targetPda space
  m.systemAssign targetPda dep.programId

/-- Move every lamport of an account to the refund destination. -/
def drainInto {α : Type} (dep : Deployment) (m : Machine α) (closed refundDest : AccountInfo) :
    Except ProgramError (Machine α) := do
  Except.ensure (m.lamports refundDest.key + m.lamports closed.key < 2 ^ 64) .arithmeticOverflow
  let funded ← m.writeLamports dep.toRuntime refundDest
    (m.lamports refundDest.key + m.lamports closed.key)
  funded.writeLamports dep.toRuntime closed 0

/-- Overwrite an account's data with zeros, at its length. -/
def zeroData {α : Type} (dep : Deployment) (m : Machine α) (acc : AccountInfo) :
    Except ProgramError (Machine α) :=
  m.writeData dep.toRuntime acc (List.replicate (m.data acc.key).length 0)

end LazorKit
