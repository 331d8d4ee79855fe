import LazorKit.Machine.Account

/-! # The Secp256r1 precompile

A precompile instruction declares signatures. For each it says where the signature, the key and the message
stand: an offset and a size, and the instruction of the transaction whose data they are part of, with 0xFFFF for
the precompile instruction itself. The transaction runs only if every declared signature verifies.
-/

namespace Solana.Precompile

/-- A signature that was verified, with its key and its message. -/
structure CheckedSignature where
  signature : Bytes
  key : Bytes
  message : Bytes
deriving DecidableEq

/-- The instruction index that stands for the precompile instruction itself. -/
def ownInstruction : ℕ := 0xFFFF

/-- The bytes at a declared place. -/
def window (instructions : List Bytes) (own : Bytes) (index offset size : ℕ) : Option Bytes := do
  let data ← if index = ownInstruction then some own else instructions[index]?
  if offset + size ≤ data.length then some (data.slice offset size) else none

/-- A field of the record at `start`: `signature_offset signature_instruction_index public_key_offset
public_key_instruction_index message_data_offset message_data_size message_instruction_index`. -/
def field (own : Bytes) (start position : ℕ) : ℕ := (own.slice (start + 2 * position) 2).toNatLE

/-- What is verified for the record at `start`. -/
def checkedAt (instructions : List Bytes) (own : Bytes) (start : ℕ) : Option CheckedSignature := do
  let signature ← window instructions own (field own start 1) (field own start 0) 64
  let key ← window instructions own (field own start 3) (field own start 2) 33
  let message ← window instructions own (field own start 6) (field own start 4) (field own start 5)
  some ⟨signature, key, message⟩

/-- What is verified for `count` records from `start` on. -/
def checkedFrom (instructions : List Bytes) (own : Bytes) : ℕ → ℕ → Option (List CheckedSignature)
  | 0, _ => some []
  | count + 1, start => do
    let first ← checkedAt instructions own start
    let rest ← checkedFrom instructions own count (start + 14)
    some (first :: rest)

/-- What is verified for an instruction's data in a transaction with these instructions. -/
def checked (instructions : List Bytes) (own : Bytes) : Option (List CheckedSignature) :=
  checkedFrom instructions own (own.byte 0).toNat 2

theorem window_eq_some {instructions : List Bytes} {own bytes : Bytes} {offset size : ℕ} :
    window instructions own ownInstruction offset size = some bytes ↔
      offset + size ≤ own.length ∧ own.slice offset size = bytes := by
  simp only [window, if_true, Option.bind_eq_bind, Option.bind_some]
  split
  · next fits => simp [fits]
  · next short => simp [short]

/-- One signature is verified exactly when one is declared. -/
theorem checked_eq_singleton {instructions : List Bytes} {own : Bytes} {signature : CheckedSignature} :
    checked instructions own = some [signature] ↔
      own.byte 0 = 1 ∧ checkedAt instructions own 2 = some signature := by
  rw [checked]
  constructor
  · intro checks
    cases count : (own.byte 0).toNat with
    | zero =>
      rw [count] at checks
      cases checks
    | succ more =>
      rw [count] at checks
      simp only [checkedFrom, Option.bind_eq_bind, Option.bind_eq_some_iff, Option.some.injEq,
        List.cons.injEq] at checks
      obtain ⟨first, here, rest, later, rfl, rfl⟩ := checks
      cases more with
      | zero => exact ⟨UInt8.toNat_inj.mp count, here⟩
      | succ more => simp [checkedFrom, Option.bind_eq_some_iff] at later
  · rintro ⟨one, here⟩
    rw [one]
    simp [checkedFrom, here]

end Solana.Precompile
