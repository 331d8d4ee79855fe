import LazorKit.Machine.Account

/-! # Privileges in a transaction

The runtime keeps an account's privileges per key and not per position: a key is a signer, or writable, at
every position of every instruction if any instruction of the transaction lists it so, and the fee payer is
both.
-/

namespace Solana

/-- Instructions that run together, and the account that pays for them. -/
structure Transaction where
  instructions : List Instruction
  feePayer : Pubkey

namespace Transaction

/-- Whether the transaction gives a key a privilege somewhere. -/
def grants (tx : Transaction) (privilege : AccountMeta → Bool) (key : Pubkey) : Bool :=
  key = tx.feePayer ∨ ∃ ix ∈ tx.instructions, ∃ acc ∈ ix.accounts, acc.pubkey = key ∧ privilege acc = true

/-- The account list the program sees in one of the instructions. -/
def accountsOf (tx : Transaction) (ix : Instruction) : List AccountInfo :=
  ix.accounts.map fun acc => ⟨acc.pubkey, tx.grants (·.isSigner) acc.pubkey, tx.grants (·.isWritable) acc.pubkey⟩

end Transaction

end Solana
