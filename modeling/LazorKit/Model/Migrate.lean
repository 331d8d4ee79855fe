import LazorKit.Model.Authenticate
import LazorKit.Model.Policy

/-! # MigrateWallet

The one path that reads v1 accounts. Approved by a v1 Owner, it moves every listed token account of
the v1 vault and all of its SOL to a destination the Owner signed for, and closes the v1 wallet and
authority.
-/

namespace LazorKit

open Solana

def legacyDiscriminatorWallet : UInt8 := 1
def legacyDiscriminatorAuthority : UInt8 := 2

/-- Accounts per migrated token: source, destination, mint, token program. -/
def tokenAccountsPerMigration : ℕ := 4

def splCloseAccount : UInt8 := 9
def splTransferChecked : UInt8 := 12
def mintDecimalsOffset : ℕ := 44
def mintMinSize : ℕ := 82

def metaW (key : Pubkey) : AccountMeta := ⟨key, false, true⟩
def metaRo (key : Pubkey) : AccountMeta := ⟨key, false, false⟩
def metaSigner (key : Pubkey) : AccountMeta := ⟨key, true, false⟩
def metaSignerW (key : Pubkey) : AccountMeta := ⟨key, true, true⟩

/-- The source accounts of the listed tokens, in order. -/
def migrationSources (accounts : List AccountInfo) (numTokens : ℕ) : Except ProgramError (List AccountInfo) :=
  (List.range numTokens).mapM fun i => accountAt accounts (9 + i * tokenAccountsPerMigration)

/-- What the v1 Owner signs: destination, wallet, number of tokens, refund destination and every
source account. -/
def migrationPayload (destination wallet refundDest : Pubkey) (numTokens : UInt8)
    (sources : List AccountInfo) : Bytes :=
  destination.bytes ++ wallet.bytes ++ [numTokens] ++ refundDest.bytes ++
    sources.flatMap (·.key.bytes)

/-- Move one token account's full balance, then close it. -/
def migrateToken (dep : Deployment) (fr : Frame) (accounts : List AccountInfo)
    (v1Vault destination refundDest : AccountInfo) (m : Machine Approval) (i : ℕ) :
    Except ProgramError (Machine Approval) := do
  let start := 9 + i * tokenAccountsPerMigration
  let sourceAta ← accountAt accounts start
  let destAta ← accountAt accounts (start + 1)
  let mint ← accountAt accounts (start + 2)
  let tokenProgram ← accountAt accounts (start + 3)
  Except.ensure (tokenProgram.key = splTokenProgram ∨ tokenProgram.key = splToken2022Program)
    .incorrectProgramId
  Except.ensure (m.owner sourceAta.key = tokenProgram.key ∧ m.owner destAta.key = tokenProgram.key ∧
    m.owner mint.key = tokenProgram.key) .illegalOwner
  let s := m.data sourceAta.key
  let d := m.data destAta.key
  Except.ensure (tokenAccountLen ≤ s.length ∧ tokenAccountLen ≤ d.length) .invalidAccountData
  Except.ensure (s.slice tokenOwnerOffset 32 = v1Vault.key.bytes) .invalidAccountData
  Except.ensure (d.slice tokenOwnerOffset 32 = destination.key.bytes) .invalidAccountData
  Except.ensure (s.slice 0 32 = d.slice 0 32) .invalidAccountData
  Except.ensure (s.slice 0 32 = mint.key.bytes) .invalidAccountData
  let amount := tokenField s tokenAmountOffset
  Except.ensure (mintMinSize ≤ (m.data mint.key).length) .invalidAccountData
  let decimals := (m.data mint.key).byte mintDecimalsOffset
  let m ← (if 0 < amount then
      m.invoke dep.toRuntime fr
        { programId := tokenProgram.key
          accounts := [metaW sourceAta.key, metaRo mint.key, metaW destAta.key, metaSigner v1Vault.key]
          data := splTransferChecked :: Bytes.ofNatLE 8 amount ++ [decimals] }
    else .ok m)
  m.invoke dep.toRuntime fr
    { programId := tokenProgram.key
      accounts := [metaW sourceAta.key, metaW refundDest.key, metaSigner v1Vault.key]
      data := [splCloseAccount] }

/-- Zero a program-owned account and move its lamports to the refund destination. -/
def closeProgramAccount (dep : Deployment) (m : Machine Approval) (account refundDest : AccountInfo) :
    Except ProgramError (Machine Approval) := do
  Except.ensure (account.key ≠ refundDest.key) .invalidAccountData
  let m ← drainInto dep m account refundDest
  zeroData dep m account

def processMigrateWallet (dep : Deployment) (fr : Frame) (accounts : List AccountInfo) (data : Bytes)
    (m : Machine Approval) : Except ProgramError (Machine Approval) := do
  Except.ensure (data ≠ []) .invalidInstructionData
  let numTokens := data.byte 0
  let payer ← accountAt accounts 0
  let v1Wallet ← accountAt accounts 1
  let v1Authority ← accountAt accounts 2
  let v1Vault ← accountAt accounts 3
  let destination ← accountAt accounts 4
  let refundDest ← accountAt accounts 5
  let systemProgram ← accountAt accounts 6
  let _ ← accountAt accounts 7
  let _ ← accountAt accounts 8
  Except.ensure (payer.isSigner = true) .missingRequiredSignature
  Except.ensure (systemProgram.key = Solana.systemProgram) .incorrectProgramId
  Except.ensure (m.owner v1Wallet.key = dep.programId ∧ m.owner v1Authority.key = dep.programId)
    .illegalOwner
  Except.ensure ((m.data v1Wallet.key).head? = some legacyDiscriminatorWallet) .invalidAccountData
  Except.ensure (AuthorityAccountHeader.size ≤ (m.data v1Authority.key).length) .invalidAccountData
  Except.ensure ((m.data v1Authority.key).byte 0 = legacyDiscriminatorAuthority) .invalidAccountData
  let header := AuthorityAccountHeader.read (m.data v1Authority.key)
  Except.ensure (header.wallet = v1Wallet.key) .invalidAccountData
  Except.ensure (header.role = 0) ↑AuthError.permissionDenied
  let sources ← migrationSources accounts numTokens.toNat
  let m ← authenticate dep fr accounts m v1Authority header.authorityType (data.drop 1)
    (migrationPayload destination.key v1Wallet.key refundDest.key numTokens sources) 17
  Except.ensure (v1Vault.key = (dep.findProgramAddress [Seeds.legacyVault, v1Wallet.key.bytes]).1)
    .invalidSeeds
  let m ← (List.range numTokens.toNat).foldlM
    (migrateToken dep fr accounts v1Vault destination refundDest) m
  let vaultLamports := m.lamports v1Vault.key
  let m ← (if 0 < vaultLamports then
      m.invoke dep.toRuntime fr
        { programId := Solana.systemProgram
          accounts := [metaSignerW v1Vault.key, metaW destination.key]
          data := Bytes.ofNatLE 4 2 ++ Bytes.ofNatLE 8 vaultLamports }
    else .ok m)
  Except.ensure (m.lamports v1Vault.key = 0) .invalidAccountData
  let m ← closeProgramAccount dep m v1Authority refundDest
  closeProgramAccount dep m v1Wallet refundDest

end LazorKit
