import LazorKit.Machine.Balance
import LazorKit.Model.Migrate

/-! # The token and System programs

What MigrateWallet relies on in the programs it calls. `TokenMoved`, `TokenClosed` and `SystemMoved` say what a
successful TransferChecked, CloseAccount and Transfer leave; `MovesTokens` says that a frame's inner
instructions behave so, for mints on which Token-2022 takes no transfer fee. `splPrograms` is an implementation of the
three for ordinary token accounts.
-/

namespace LazorKit

open Solana Balances

def tokenNativeOffset : ℕ := 109

def isTokenProgram (program : Pubkey) : Prop := program = splTokenProgram ∨ program = splToken2022Program

instance (program : Pubkey) : Decidable (isTokenProgram program) :=
  inferInstanceAs (Decidable (program = splTokenProgram ∨ program = splToken2022Program))

def tokenAmount (account : Account) : ℕ := tokenField account.data tokenAmountOffset

/-- The mint and the owner, which stand in front of the amount. -/
def tokenIdentity (account : Account) : Bytes := account.data.slice 0 tokenAmountOffset

/-- An account of the native mint holds its amount in lamports. -/
def isNative (account : Account) : Bool := account.data.slice tokenNativeOffset 4 = [1, 0, 0, 0]

/-- What an amount of an account's tokens is in lamports. -/
def nativePart (account : Account) (amount : ℕ) : ℕ := if isNative account then amount else 0

/-- A token account of a mint. -/
def IsTokenOf (mint : Pubkey) (account : Account) : Prop :=
  isTokenProgram account.owner ∧ tokenAccountLen ≤ account.data.length ∧ account.data.slice 0 32 = mint.bytes

instance (mint : Pubkey) (account : Account) : Decidable (IsTokenOf mint account) :=
  inferInstanceAs (Decidable (_ ∧ _ ∧ _))

/-- A token account of a mint that belongs to an owner. -/
def IsHeldBy (mint owner : Pubkey) (account : Account) : Prop :=
  IsTokenOf mint account ∧ account.data.slice tokenOwnerOffset 32 = owner.bytes

instance (mint owner : Pubkey) (account : Account) : Decidable (IsHeldBy mint owner account) :=
  inferInstanceAs (Decidable (_ ∧ _))

/-- Tokens moved between two accounts, which may be one; those of the native mint take their lamports along. -/
structure TokenMoved (before after : Ledger) (source dest : Pubkey) (amount : ℕ) : Prop where
  owner : ∀ key, (after key).owner = (before key).owner
  length : ∀ key, (after key).data.length = (before key).data.length
  identity : ∀ key, tokenIdentity (after key) = tokenIdentity (before key)
  others : ∀ key, key ≠ source → key ≠ dest → after key = before key
  amounts : Transfers (fun key => tokenAmount (before key)) (fun key => tokenAmount (after key)) source dest amount
  lamports : Transfers before.balances after.balances source dest (nativePart (before source) amount)

/-- A token account was closed, and not into itself. -/
structure TokenClosed (before after : Ledger) (account refund : Pubkey) : Prop where
  distinct : account ≠ refund
  closed : after account = ⟨0, systemProgram, []⟩
  owner : ∀ key, key ≠ account → (after key).owner = (before key).owner
  data : ∀ key, key ≠ account → (after key).data = (before key).data
  lamports : Transfers before.balances after.balances account refund (before account).lamports

/-- Lamports moved between two accounts. -/
structure SystemMoved (before after : Ledger) (source target : Pubkey) (amount : ℕ) : Prop where
  owner : ∀ key, (after key).owner = (before key).owner
  data : ∀ key, (after key).data = (before key).data
  lamports : Transfers before.balances after.balances source target amount

def transferCheckedIx (program source mint dest authority : Pubkey) (amount : ℕ) (decimals : UInt8) : Instruction where
  programId := program
  accounts := [metaW source, metaRo mint, metaW dest, metaSigner authority]
  data := splTransferChecked :: Bytes.ofNatLE 8 amount ++ [decimals]

def closeAccountIx (program account refund authority : Pubkey) : Instruction where
  programId := program
  accounts := [metaW account, metaW refund, metaSigner authority]
  data := [splCloseAccount]

def systemTransferIx (source target : Pubkey) (amount : ℕ) : Instruction where
  programId := systemProgram
  accounts := [metaSignerW source, metaW target]
  data := Bytes.ofNatLE 4 2 ++ Bytes.ofNatLE 8 amount

/-- The inner instructions of a frame move tokens and lamports as SPL Token and the System program document. Of a mint
without a transfer fee the whole amount arrives; nothing is said of the others. -/
structure MovesTokens (rt : Runtime) (fr : Frame) (feeless : Set Pubkey) : Prop where
  transferChecked : ∀ {program source mint dest authority : Pubkey} {amount : ℕ} {decimals : UInt8}
    {before after : Ledger}, isTokenProgram program → amount < 2 ^ 64 → mint ∈ feeless →
      fr.Performs rt (transferCheckedIx program source mint dest authority amount decimals) before after →
        TokenMoved before after source dest amount
  closeAccount : ∀ {program account refund authority : Pubkey} {before after : Ledger}, isTokenProgram program →
    fr.Performs rt (closeAccountIx program account refund authority) before after →
      TokenClosed before after account refund
  systemTransfer : ∀ {source target : Pubkey} {amount : ℕ} {before after : Ledger},
    fr.Performs rt (systemTransferIx source target amount) before after →
      SystemMoved before after source target (amount % 2 ^ 64)

/-- A token account with other contents. -/
def withTokens (account : Account) (amount lamports : ℕ) : Account :=
  { account with
    lamports := lamports
    data := account.data.splice tokenAmountOffset (Bytes.ofNatLE 8 amount) }

/-- Move tokens from an account its owner signs for to another one of the same mint. -/
def transferChecked (ledger : Ledger) (program source mint dest authority : Pubkey) (amount : ℕ) (decimals : UInt8) :
    Option (List (Pubkey × Account)) :=
  if (ledger source).owner = program ∧ (ledger dest).owner = program ∧ (ledger mint).owner = program ∧
      tokenAccountLen ≤ (ledger source).data.length ∧ tokenAccountLen ≤ (ledger dest).data.length ∧
      (ledger source).data.slice 0 32 = mint.bytes ∧ (ledger dest).data.slice 0 32 = mint.bytes ∧
      (ledger source).data.slice tokenOwnerOffset 32 = authority.bytes ∧
      (ledger mint).data.byte mintDecimalsOffset = decimals ∧ amount ≤ tokenAmount (ledger source) ∧
      tokenAmount (ledger dest) + amount < 2 ^ 64 ∧ nativePart (ledger source) amount ≤ (ledger source).lamports then
    if source = dest then some []
    else some [(source, withTokens (ledger source) (tokenAmount (ledger source) - amount)
        ((ledger source).lamports - nativePart (ledger source) amount)),
      (dest, withTokens (ledger dest) (tokenAmount (ledger dest) + amount)
        ((ledger dest).lamports + nativePart (ledger source) amount))]
  else none

/-- Close a token account its owner signs for. -/
def closeAccount (ledger : Ledger) (program account refund authority : Pubkey) : Option (List (Pubkey × Account)) :=
  if account ≠ refund ∧ (ledger account).owner = program ∧ tokenAccountLen ≤ (ledger account).data.length ∧
      (ledger account).data.slice tokenOwnerOffset 32 = authority.bytes ∧
      (tokenAmount (ledger account) = 0 ∨ isNative (ledger account) = true) then
    some [(refund, { ledger refund with lamports := (ledger refund).lamports + (ledger account).lamports }),
      (account, ⟨0, systemProgram, []⟩)]
  else none

/-- Move lamports from a System account without data. -/
def systemTransfer (ledger : Ledger) (source target : Pubkey) (amount : ℕ) : Option (List (Pubkey × Account)) :=
  if (ledger source).data = [] ∧ (ledger source).owner = systemProgram ∧ amount ≤ (ledger source).lamports then
    if source = target then some []
    else some [(source, { ledger source with lamports := (ledger source).lamports - amount }),
      (target, { ledger target with lamports := (ledger target).lamports + amount })]
  else none

/-- The three instructions, by program, number of accounts and tag. -/
def splPrograms (ix : Instruction) (ledger : Ledger) : Option (List (Pubkey × Account)) :=
  match ix.accounts with
  | [source, target] =>
    if ix.programId = systemProgram ∧ ix.data.slice 0 4 = [2, 0, 0, 0] then
      systemTransfer ledger source.pubkey target.pubkey (ix.data.slice 4 8).toNatLE
    else none
  | [account, refund, authority] =>
    if isTokenProgram ix.programId ∧ ix.data.byte 0 = splCloseAccount then
      closeAccount ledger ix.programId account.pubkey refund.pubkey authority.pubkey
    else none
  | [source, mint, dest, authority] =>
    if isTokenProgram ix.programId ∧ ix.data.byte 0 = splTransferChecked then
      transferChecked ledger ix.programId source.pubkey mint.pubkey dest.pubkey authority.pubkey
        (ix.data.slice 1 8).toNatLE (ix.data.byte 9)
    else none
  | _ => none

end LazorKit
