import LazorKit.Model.Kit.Client
import LazorKit.Model.Policy
import LazorKit.ToMathlib.OrderedMap

/-! # The token accounts of a v1 vault

What the kit knows of a v1 wallet, and its triage of the vault's token accounts: every account of both token
programs is listed, and each goes to those a migration can move or to those it cannot, with the reason. The node
answers in pages, and every page from a state of its own.
-/

namespace LazorKit.Kit

open Solana

def discMigrateWallet : UInt8 := 17

def v1DiscWallet : UInt8 := 1
def v1DiscAuthority : UInt8 := 2

/-- `wallet`: a v1 seed has no prefix. -/
def v1SeedWallet : Bytes := [119, 97, 108, 108, 101, 116]

/-- `vault`. -/
def v1SeedVault : Bytes := [118, 97, 117, 108, 116]

/-- `authority`. -/
def v1SeedAuthority : Bytes := [97, 117, 116, 104, 111, 114, 105, 116, 121]

/-- `slice(i, i + 100)` for `i = 0, 100, …`: the node answers for at most a hundred accounts at once. -/
def pages {α : Type*} (list : List α) : List (List α) :=
  (List.range ((list.length + 99) / 100)).map fun page => (list.drop (100 * page)).take 100

/-- A list with the account read for each of its members. A page is answered from a state of the chain or refused. -/
def readPages {α : Type} (views : ℕ → Except Error (Pubkey → Option Account)) (address : α → Pubkey) (list : List α) :
    Except Error (List (α × Option Account)) := do
  let answers ← (pages list).zipIdx.mapM fun page => do
    let view ← views page.2
    .ok (page.1.map fun item => (item, view (address item)))
  .ok answers.flatten

structure V1Accounts where
  wallet : Pubkey
  vault : Pubkey
  authority : Pubkey

section Derivation

variable (derive : Pubkey → List Bytes → Pubkey)

def findV1VaultPda (walletPda programId : Pubkey) : Pubkey := derive programId [v1SeedVault, walletPda.bytes]

def findV1AuthorityPda (walletPda : Pubkey) (ownerIdSeed : Bytes) (programId : Pubkey) : Pubkey :=
  derive programId [v1SeedAuthority, walletPda.bytes, ownerIdSeed]

/-- The accounts of a wallet whose address is known. -/
def v1AccountsOf (wallet : Pubkey) (ownerIdSeed : Bytes) (programId : Pubkey) : V1Accounts where
  wallet := wallet
  vault := findV1VaultPda derive wallet programId
  authority := findV1AuthorityPda derive wallet ownerIdSeed programId

def deriveV1Accounts (userSeed ownerIdSeed : Bytes) (programId : Pubkey) : V1Accounts :=
  v1AccountsOf derive (derive programId [v1SeedWallet, userSeed]) ownerIdSeed programId

end Derivation

structure V1WalletState where
  ownerAuthType : Option UInt8
  ownerRole : Option UInt8
  vaultLamports : ℕ

/-- The wallet's state, if the wallet and its authority are there. -/
def readV1WalletState (view : Except Error (Pubkey → Option Account)) (accounts : V1Accounts) :
    Except Error (Option V1WalletState) := do
  let view ← view
  match view accounts.wallet with
  | none => .ok none
  | some walletInfo =>
    if walletInfo.data.head? ≠ some v1DiscWallet then .ok none
    else
      match view accounts.authority with
      | none => .ok none
      | some authInfo =>
        if authInfo.data.head? ≠ some v1DiscAuthority then .ok none
        else .ok (some {
          ownerAuthType := authInfo.data[1]?
          ownerRole := authInfo.data[2]?
          vaultLamports := ((view accounts.vault).map (·.lamports)).getD 0 })

def tokenStateOffset : ℕ := 108
def tokenStateFrozen : UInt8 := 2
def tlvStart : ℕ := 166

def extTransferFeeAmount : ℕ := 2
def extDefaultAccountState : ℕ := 6
def extNonTransferable : ℕ := 9
def extCpiGuard : ℕ := 11
def extNonTransferableAccount : ℕ := 13
def extTransferHook : ℕ := 14
def extPausable : ℕ := 26

/-- The walk over `type(2) len(2) value`, up to an empty tail. A record has four bytes or more, so the length of the
data is fuel enough. -/
def tlvFrom (data : Bytes) : ℕ → ℕ → OrderedMap ℕ Bytes → OrderedMap ℕ Bytes
  | 0, _, out => out
  | fuel + 1, off, out =>
    if off + 4 ≤ data.length then
      let type := (data.slice off 2).toNatLE
      let len := (data.slice (off + 2) 2).toNatLE
      if type = 0 ∧ len = 0 then out
      else tlvFrom data fuel (off + 4 + len) (out.set type (data.slice (off + 4) len))
    else out

/-- The extensions of a mint or an account, by type. -/
def tlvExtensions (data : Bytes) : OrderedMap ℕ Bytes := tlvFrom data data.length tlvStart []

/-- Why a token account stays behind. -/
inductive UnmovableReason where
  | frozen
  | transferHook
  | nonTransferable
  | paused
  | frozenOnArrival
  | cpiGuard
  | mintMissing
  | destinationFrozen
  | excluded
deriving DecidableEq

/-- The transfer-hook program a mint names. -/
def mintTransferHook (mintData : Bytes) : Option Pubkey :=
  match (tlvExtensions mintData).get? extTransferHook with
  | none => none
  | some value =>
    if value.length < 64 then none
    else if (value.slice 32 32).isZero = false then some (readKey value 32) else none

/-- Why no account of a Token-2022 mint can be migrated. -/
def mintBlocker (mintData : Bytes) : Option UnmovableReason :=
  let ext := tlvExtensions mintData
  if ext.has extNonTransferable then some .nonTransferable
  else if (mintTransferHook mintData).isSome then some .transferHook
  else if (ext.get? extPausable).any (fun pausable => decide (33 ≤ pausable.length ∧ pausable.byte 32 ≠ 0)) then
    some .paused
  else if (ext.get? extDefaultAccountState).any (fun state => decide (state.head? = some tokenStateFrozen)) then
    some .frozenOnArrival
  else none

/-- Withheld fees keep an account from being closed until they are harvested. -/
def tokenAccountWithheldFees (accountData : Bytes) : Bool :=
  ((tlvExtensions accountData).get? extTransferFeeAmount).any fun fees =>
    decide (8 ≤ fees.length ∧ (fees.slice 0 8).isZero = false)

def tokenAccountFrozen (accountData : Bytes) : Bool :=
  decide (tokenStateOffset < accountData.length ∧ accountData.byte tokenStateOffset = tokenStateFrozen)

/-- Why an account itself cannot be migrated. -/
def tokenAccountBlocker (accountData : Bytes) : Option UnmovableReason :=
  let ext := tlvExtensions accountData
  if accountData.byte tokenStateOffset = tokenStateFrozen then some .frozen
  else if ext.has extNonTransferableAccount then some .nonTransferable
  else if (ext.get? extCpiGuard).any (fun guard => decide (guard.head? ≠ some 0)) then some .cpiGuard
  else none

structure V1VaultToken where
  ata : Pubkey
  mint : Pubkey
  amount : ℕ
  tokenProgram : Pubkey
  frozen : Bool
  blocker : Option UnmovableReason
  withheldFees : Bool
deriving DecidableEq

section Rows

-- `getAddressDecoder().decode`, of the codec library.
variable (decodeAddress : Bytes → Except Error Pubkey)

def tokenAccountMint (data : Bytes) : Except Error Pubkey := decodeAddress (data.slice 0 32)

def tokenAccountAmount (data : Bytes) : Except Error ℕ := do
  Except.ensure (72 ≤ data.length) ⟨"Invalid DataView length 8"⟩
  .ok (data.slice 64 8).toNatLE

/-- One row of the node's answer. -/
def vaultTokenOf (tokenProgram : Pubkey) (entry : Pubkey × Bytes) : Except Error V1VaultToken := do
  let mint ← tokenAccountMint decodeAddress entry.2
  let amount ← tokenAccountAmount entry.2
  .ok {
    ata := entry.1
    mint := mint
    amount := amount
    tokenProgram := tokenProgram
    frozen := decide (entry.2.byte tokenStateOffset = tokenStateFrozen)
    blocker := tokenAccountBlocker entry.2
    withheldFees := tokenAccountWithheldFees entry.2 }

/-- What the node answers to `getTokenAccountsByOwner`, for an owner and a token program. -/
abbrev TokenRows := Pubkey → Pubkey → Except Error (List (Pubkey × Bytes))

/-- Every token account the v1 vault owns, across both token programs. -/
def enumerateV1VaultTokens (rows : TokenRows) (vault : Pubkey) : Except Error (List V1VaultToken) := do
  let out ← [splTokenProgram, splToken2022Program].mapM fun tokenProgram => do
    let value ← rows vault tokenProgram
    value.mapM (vaultTokenOf decodeAddress tokenProgram)
  .ok out.flatten

end Rows

/-- A token account that is left behind, and why. -/
structure SkippedToken where
  token : V1VaultToken
  reason : UnmovableReason
deriving DecidableEq

/-- One pass over a list: an account with a reason goes to the skipped ones, another is kept, both in order. -/
def skipPass (reason : V1VaultToken → Option UnmovableReason) :
    List V1VaultToken → List V1VaultToken × List SkippedToken
  | [] => ([], [])
  | token :: rest =>
    let (kept, skipped) := skipPass reason rest
    match reason token with
    | some reason => (kept, ⟨token, reason⟩ :: skipped)
    | none => (token :: kept, skipped)

/-- Why the second pass skips a token, given what the node has at its mint. -/
def unmovableReason (mint : Option Account) (token : V1VaultToken) : Option UnmovableReason :=
  token.blocker <|> (if token.frozen then some .frozen else none) <|>
    match mint with
    | none => some .mintMissing
    | some mint =>
      if mint.owner ≠ token.tokenProgram then some .mintMissing
      else if token.tokenProgram = splToken2022Program then mintBlocker mint.data else none

/-- The accounts MigrateWallet can move, and those it cannot: first the exclusions, then the mints. -/
def classifyV1VaultTokens (views : ℕ → Except Error (Pubkey → Option Account)) (tokens : List V1VaultToken)
    (exclude : List Pubkey) : Except Error (List V1VaultToken × List SkippedToken) := do
  let (candidates, excluded) := skipPass (fun token => if exclude.contains token.ata then some .excluded else none)
    tokens
  let mints := (candidates.map (·.mint)).eraseDups
  let infos ← readPages views id mints
  let mintInfo : OrderedMap Pubkey (Option Account) := infos.foldl (fun map entry => map.set entry.1 entry.2) []
  let (movable, skipped) := skipPass (fun token => unmovableReason (mintInfo.get? token.mint).join token) candidates
  .ok (movable, excluded ++ skipped)

/-- Move withheld fees from accounts to their mint; nobody has to sign. -/
def harvestWithheldIx (mint : Pubkey) (sources : List Pubkey) : Instruction where
  programId := splToken2022Program
  accounts := writableMeta mint :: sources.map writableMeta
  data := [26, 4]

end LazorKit.Kit
