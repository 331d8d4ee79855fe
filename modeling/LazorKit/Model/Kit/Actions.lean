import LazorKit.Model.Kit.Secp256r1

/-! # The kit's action encoder

`serializeActions` writes the actions of a session or a policy in the program's flat format. Amounts go
through the codec library's u64 encoder, which is a parameter and refuses what does not fit; the expiry in the header
is written by `DataView`, which reduces it.
-/

namespace LazorKit.Kit

open Solana

/-- The union of all session actions. Amounts and expiries are bigints; an expiry may be left out. -/
inductive SessionAction where
  | solLimit (remaining : ℤ) (expiresAt : Option ℤ)
  | solRecurringLimit (limit window : ℤ) (expiresAt : Option ℤ)
  | solMaxPerTx (max : ℤ) (expiresAt : Option ℤ)
  | tokenLimit (mint : Pubkey) (remaining : ℤ) (expiresAt : Option ℤ)
  | tokenRecurringLimit (mint : Pubkey) (limit window : ℤ) (expiresAt : Option ℤ)
  | tokenMaxPerTx (mint : Pubkey) (max : ℤ) (expiresAt : Option ℤ)
  | programWhitelist (programId : Pubkey) (expiresAt : Option ℤ)
  | programBlacklist (programId : Pubkey) (expiresAt : Option ℤ)

namespace SessionAction

/-- `action.type`. -/
def type : SessionAction → UInt8
  | solLimit .. => 1
  | solRecurringLimit .. => 2
  | solMaxPerTx .. => 3
  | tokenLimit .. => 4
  | tokenRecurringLimit .. => 5
  | tokenMaxPerTx .. => 6
  | programWhitelist .. => 10
  | programBlacklist .. => 11

def expiresAt : SessionAction → Option ℤ
  | solLimit _ expiresAt | solRecurringLimit _ _ expiresAt | solMaxPerTx _ expiresAt
  | tokenLimit _ _ expiresAt | tokenRecurringLimit _ _ _ expiresAt | tokenMaxPerTx _ _ expiresAt
  | programWhitelist _ expiresAt | programBlacklist _ expiresAt => expiresAt

end SessionAction

/-- A bigint that a u64 holds. -/
def FitsU64 (value : ℤ) : Prop := 0 ≤ value ∧ value < 2 ^ 64

instance (value : ℤ) : Decidable (FitsU64 value) := inferInstanceAs (Decidable (0 ≤ value ∧ value < 2 ^ 64))

/-- What the codec library documents of its u64 encoder: eight bytes, the lowest first, and an error for a number out
of range. -/
structure EncodesU64 (encodeU64 : ℤ → Except Error Bytes) : Prop where
  fits : ∀ value, FitsU64 value → encodeU64 value = .ok (Bytes.ofNatLE 8 value.toNat)
  refuses : ∀ value, ¬FitsU64 value → ∃ e, encodeU64 value = .error e

section Encoder

-- `getU64Encoder().encode`, of the codec library.
variable (encodeU64 : ℤ → Except Error Bytes)

/-- `limit spent window last_reset`, the running totals at zero. -/
def recurringData (limit window : ℤ) : Except Error Bytes := do
  let limit ← encodeU64 limit
  let spent ← encodeU64 0
  let window ← encodeU64 window
  let lastReset ← encodeU64 0
  .ok (limit ++ spent ++ window ++ lastReset)

def encodeActionData : SessionAction → Except Error Bytes
  | .solLimit remaining _ => encodeU64 remaining
  | .solRecurringLimit limit window _ => recurringData encodeU64 limit window
  | .solMaxPerTx max _ => encodeU64 max
  | .tokenLimit mint remaining _ => do
    let remaining ← encodeU64 remaining
    .ok (mint.bytes ++ remaining)
  | .tokenRecurringLimit mint limit window _ => do
    let data ← recurringData encodeU64 limit window
    .ok (mint.bytes ++ data)
  | .tokenMaxPerTx mint max _ => do
    let max ← encodeU64 max
    .ok (mint.bytes ++ max)
  | .programWhitelist programId _ | .programBlacklist programId _ => .ok programId.bytes

/-- The 11-byte header and the data. -/
def serializeAction (action : SessionAction) : Except Error Bytes := do
  let data ← encodeActionData encodeU64 action
  .ok ([action.type] ++ u16LE data.length ++ u64LE (action.expiresAt.getD 0) ++ data)

/-- The flat buffer; nothing for no actions. -/
def serializeActions (actions : List SessionAction) : Except Error Bytes :=
  if actions.isEmpty then .ok [] else do
    let parts ← actions.mapM (serializeAction encodeU64)
    .ok (concatBytes parts)

end Encoder

end LazorKit.Kit
