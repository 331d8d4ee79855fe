import LazorKit.Model.Execute
import LazorKit.Model.Kit.Migration
import LazorKit.Model.Session

/-! # Which wallet is a passkey's own

A returning user is a passkey and nothing else. The kit scans for wallets that list it, reads for each one
everything that can move its funds, and adopts a wallet only if the passkey and keys the integrator vouches for are
alone in control. The reads are separate requests, each at or after the slot of those it depends on.
-/

namespace LazorKit.Kit

open Solana

inductive WalletVersion where
  | v1
  | v2
deriving DecidableEq

def WalletVersion.number : WalletVersion → ℕ
  | .v1 => 1
  | .v2 => 2

/-- The types of accounts the scans ask for, by their first byte. -/
structure OwnershipDiscs where
  wallet : UInt8
  authority : UInt8
  session : UInt8
  deferred : UInt8

def ownershipDiscs : WalletVersion → OwnershipDiscs
  | .v1 => ⟨v1DiscWallet, v1DiscAuthority, v1DiscSession, v1DiscDeferred⟩
  | .v2 => ⟨AccountDiscriminator.wallet.toByte, AccountDiscriminator.authority.toByte,
      AccountDiscriminator.session.toByte, AccountDiscriminator.deferredExec.toByte⟩

/-- wSOL, USDC, USDT and devnet USDC. -/
def watchedMintsBase : List Pubkey := [
  .ofBytes [6, 155, 136, 87, 254, 171, 129, 132, 251, 104, 127, 99, 70, 24, 192, 53, 218, 196, 57, 220, 26, 235, 59,
    85, 152, 160, 240, 0, 0, 0, 0, 1],
  .ofBytes [198, 250, 122, 243, 190, 219, 173, 58, 61, 101, 243, 106, 171, 201, 116, 49, 177, 187, 228, 194, 210, 246,
    224, 228, 124, 166, 2, 3, 69, 47, 93, 97],
  .ofBytes [206, 1, 14, 96, 175, 237, 178, 39, 23, 189, 99, 25, 47, 84, 20, 90, 63, 150, 90, 51, 187, 130, 210, 199, 2,
    158, 178, 206, 30, 32, 130, 100],
  .ofBytes [59, 68, 44, 179, 145, 33, 87, 241, 58, 147, 61, 1, 52, 40, 45, 3, 43, 95, 254, 205, 1, 162, 219, 241, 183,
    121, 6, 8, 223, 0, 46, 167]]

/-- The watched mints, then each extra one not already there. -/
def watchedMints (extra : List Pubkey) : List Pubkey :=
  extra.foldl (fun mints mint => if mints.contains mint then mints else mints ++ [mint]) watchedMintsBase

/-- A node's answers to the requests of one reading, each with the slot it was answered at. -/
structure OwnershipRpc where
  /-- The accounts of a program that hold these bytes at these offsets. -/
  programAccounts : Pubkey → List (ℕ × Bytes) → Option ℕ → Except Error (ℕ × List (Pubkey × Bytes))
  multipleAccounts : List Pubkey → Option ℕ → Except Error (ℕ × List (Option Account))
  /-- The token accounts an owner has under a token program. -/
  tokenAccountsByOwner : Pubkey → Pubkey → Option ℕ → Except Error (ℕ × List (Pubkey × Bytes))

def u64Max : ℕ := 2 ^ 64 - 1

/-- An expiry that could not be read counts as never expiring. -/
def expiryAt (data : Bytes) (offset : ℕ) : ℕ :=
  if offset + 8 ≤ data.length then (data.slice offset 8).toNatLE else u64Max

/-- Pages of 100; the slot is the newest among them. -/
def readAccounts (rpc : OwnershipRpc) (addresses : List Pubkey) (minContextSlot : Option ℕ) :
    Except Error (ℕ × List (Option Account)) := do
  let answers ← (pages addresses).mapM fun page => rpc.multipleAccounts page minContextSlot
  .ok (answers.foldl (fun slot answer => max slot answer.1) (minContextSlot.getD 0), (answers.map (·.2)).flatten)

/-- The accounts of a type that name the wallet. -/
def scanWalletAccounts (rpc : OwnershipRpc) (programId wallet : Pubkey) (disc : UInt8) (walletOffset : ℕ)
    (minContextSlot : Option ℕ) : Except Error (ℕ × List (Pubkey × Bytes)) :=
  rpc.programAccounts programId [(0, [disc]), (walletOffset, wallet.bytes)] minContextSlot

structure VaultTokenAccounts where
  slot : ℕ
  spl : List (Pubkey × Bytes)
  token2022 : List (Pubkey × Bytes)

def readVaultTokenAccounts (rpc : OwnershipRpc) (vault : Pubkey) (minContextSlot : Option ℕ) :
    Except Error VaultTokenAccounts := do
  let spl ← rpc.tokenAccountsByOwner vault splTokenProgram minContextSlot
  let token2022 ← rpc.tokenAccountsByOwner vault splToken2022Program minContextSlot
  .ok ⟨max spl.1 token2022.1, spl.2, token2022.2⟩

/-- Everything that can move a wallet's funds. -/
structure SpendingState where
  authorities : List (Pubkey × Bytes)
  sessions : List (Pubkey × Bytes)
  deferred : List (Pubkey × Bytes)
  infos : List (Option Account)
  ownedTokens : VaultTokenAccounts
  slot : ℕ

/-- Three steps in the order power flows: the authorities; then what only they create; then what only those or they
can change. -/
def readSpendingState (rpc : OwnershipRpc) (programId wallet vault : Pubkey) (discs : OwnershipDiscs)
    (accounts : List Pubkey) : Except Error SpendingState := do
  let authorities ← scanWalletAccounts rpc programId wallet discs.authority 16 none
  let sessions ← scanWalletAccounts rpc programId wallet discs.session 8 (some authorities.1)
  let deferred ← scanWalletAccounts rpc programId wallet discs.deferred 72 (some authorities.1)
  let after := max sessions.1 deferred.1
  let read ← readAccounts rpc accounts (some after)
  let ownedTokens ← readVaultTokenAccounts rpc vault (some after)
  .ok {
    authorities := authorities.2
    sessions := sessions.2
    deferred := deferred.2
    infos := (List.range accounts.length).map fun i => (read.2[i]?).join
    ownedTokens := ownedTokens
    slot := max read.1 ownedTokens.slot }

structure PasskeyWalletCandidate where
  version : WalletVersion
  programId : Pubkey
  walletPda : Pubkey
  vaultPda : Pubkey
  authorityPda : Pubkey
  publicKey : Bytes
deriving DecidableEq

inductive AuthorityRoleName where
  | owner
  | admin
  | spender
  | unknown
deriving DecidableEq

def roleName (role : Option UInt8) : AuthorityRoleName :=
  if role = some 0 then .owner else if role = some 1 then .admin else if role = some 2 then .spender else .unknown

/-- An authority other than the candidate's own; a passkey has no key here, an Ed25519 key no relying party. -/
structure OtherAuthority where
  authorityPda : Pubkey
  ed25519 : Bool
  role : AuthorityRoleName
  publicKey : Option Pubkey
  sameRelyingParty : Option Bool
  trusted : Bool
deriving DecidableEq

structure LiveSession where
  sessionPda : Pubkey
  sessionKey : Pubkey
  expiresAtSlot : ℕ
  trusted : Bool
deriving DecidableEq

structure PendingDeferred where
  deferredPda : Pubkey
  authorizedBy : Pubkey
  expiresAtSlot : ℕ
  trusted : Bool
deriving DecidableEq

/-- What a candidate holds and who else can spend from it. -/
structure WalletFacts extends PasskeyWalletCandidate where
  lamports : ℕ
  slot : ℕ
  otherAuthorities : List OtherAuthority
  liveSessions : List LiveSession
  pendingDeferred : List PendingDeferred
  vaultIsSystemAccount : Bool
  tokenGrants : List TokenGrant
  controlledAlone : Bool
  signatureCount : ℕ
deriving DecidableEq

/-- A wallet account of this program and version. -/
def isLiveWallet (programId : Pubkey) (version : WalletVersion) (info : Option Account) : Bool :=
  info.any fun info => decide (info.owner = programId ∧ info.data.head? = some (ownershipDiscs version).wallet)

section Candidates

variable (rt : Runtime) (derive : Pubkey → List Bytes → Pubkey) (rpc : OwnershipRpc)

/-- Owner rank only: any other seat is on someone else's wallet. -/
def candidateOf (version : WalletVersion) (programId : Pubkey) (row : Pubkey × Bytes) :
    Option PasskeyWalletCandidate :=
  if row.2.length < 145 ∨ row.2[2]? ≠ some (byteOf roleOwner) then none
  else
    let walletPda := readKey row.2 16
    some {
      version := version
      programId := programId
      walletPda := walletPda
      vaultPda := match version with
        | .v2 => derive programId [Seeds.vault, walletPda.bytes]
        | .v1 => findV1VaultPda derive walletPda programId
      authorityPda := row.1
      publicKey := row.2.slice 80 33 }

def scanCandidates (version : WalletVersion) (programId : Pubkey) (credentialIdHash rpIdHash : Bytes) :
    Except Error (List PasskeyWalletCandidate) := do
  let accounts ← rpc.programAccounts programId [(0, [(ownershipDiscs version).authority, byteOf authTypeSecp256r1]),
    (48, credentialIdHash), (113, rpIdHash)] none
  .ok (accounts.2.filterMap (candidateOf derive version programId))

/-- The wallets this passkey is an Owner of: those of this program, then those of the v1 deployment paired with it. -/
def findPasskeyWalletCandidates (programId : Pubkey) (credentialIdHash : Bytes) (rpId : String) (includeV1 : Bool) :
    Except Error (List PasskeyWalletCandidate) := do
  assertByteLength credentialIdHash 32 "credentialIdHash"
  let rpIdHash := (rt.sha256 (utf8 rpId)).bytes
  let v2 ← scanCandidates derive rpc .v2 programId credentialIdHash rpIdHash
  let v1 ← if includeV1 then scanCandidates derive rpc .v1 (legacyProgramIdFor programId) credentialIdHash rpIdHash
    else .ok []
  .ok (v2 ++ v1)

/-- The vault's canonical account for each of the mints. -/
def watchedAtasOf (vault : Pubkey) (mints : List Pubkey) : List Pubkey :=
  mints.map fun mint => getAssociatedTokenAddress derive mint vault splTokenProgram

/-- A canonical account of the vault's that someone else owns. -/
def watchedGrant (vault : Pubkey) (trustedKeys : List Pubkey) (watched : Pubkey × Pubkey × Option Account) :
    Option TokenGrant :=
  watched.2.2.bind fun info =>
    if info.owner ≠ splTokenProgram then none
    else if info.data.length < 64 then some (unreadableGrant watched.1 splTokenProgram)
    else if readKey info.data 32 = vault then none
    else some {
      tokenAccount := watched.1
      tokenProgram := splTokenProgram
      mint := some watched.2.1
      kind := .owner
      grantee := some (readKey info.data 32)
      trusted := trustedKeys.contains (readKey info.data 32) }

/-- Every right over the vault's tokens that someone other than the vault holds. -/
def vaultTokenGrants (vault : Pubkey) (owned : VaultTokenAccounts) (watched : List (Pubkey × Pubkey × Option Account))
    (trustedKeys : List Pubkey) : List TokenGrant :=
  grantsOn owned.spl splTokenProgram vault trustedKeys ++
    grantsOn owned.token2022 splToken2022Program vault trustedKeys ++
    watched.filterMap (watchedGrant vault trustedKeys)

/-- The watched accounts with their mints and what the chain holds there. -/
def watchedPairs (atas mints : List Pubkey) (infos : List (Option Account)) : List (Pubkey × Pubkey × Option Account) :=
  (atas.zip mints).zipIdx.map fun entry => (entry.1.1, entry.1.2, (infos[entry.2]?).join)

/-- Still the Owner-rank key the candidate was found with. -/
def ownIntact (publicKey : Bytes) (own : Option Bytes) : Bool :=
  own.any fun data => decide (145 ≤ data.length ∧ data[1]? = some (byteOf authTypeSecp256r1) ∧
    data[2]? = some (byteOf roleOwner) ∧ data.slice 80 33 = publicKey)

/-- Any type byte but Ed25519 is reported as a passkey, which is never trusted. -/
def otherAuthority (ownRpIdHash : Option Bytes) (trustedKeys : List Pubkey) (row : Pubkey × Bytes) : OtherAuthority :=
  if row.2[1]? = some (byteOf authTypeEd25519) then
    let publicKey := if 80 ≤ row.2.length then some (readKey row.2 48) else none
    { authorityPda := row.1
      ed25519 := true
      role := roleName row.2[2]?
      publicKey := publicKey
      sameRelyingParty := none
      trusted := publicKey.any trustedKeys.contains }
  else
    { authorityPda := row.1
      ed25519 := false
      role := roleName row.2[2]?
      publicKey := none
      sameRelyingParty := some (decide (145 ≤ row.2.length ∧ some (row.2.slice 113 32) = ownRpIdHash))
      trusted := false }

/-- A session the program would still accept at the slot. -/
def liveSession (slot : ℕ) (trustedKeys : List Pubkey) (row : Pubkey × Bytes) : Option LiveSession :=
  if expiryAt row.2 72 < slot then none
  else
    let readable := decide (80 ≤ row.2.length)
    let sessionKey := if readable then readKey row.2 40 else systemProgram
    some ⟨row.1, sessionKey, expiryAt row.2 72, readable && trustedKeys.contains sessionKey⟩

/-- A deferred execution the program would still accept at the slot; none is trusted. -/
def pendingDeferred (slot : ℕ) (row : Pubkey × Bytes) : Option PendingDeferred :=
  if expiryAt row.2 168 < slot then none
  else some ⟨row.1, if 176 ≤ row.2.length then readKey row.2 104 else systemProgram, expiryAt row.2 168, false⟩

/-- The facts of one candidate, unless its wallet is gone. -/
def describeCandidate (c : PasskeyWalletCandidate) (slot : ℕ) (trustedKeys mints : List Pubkey) :
    Except Error (Option WalletFacts) := do
  let atas := watchedAtasOf derive c.vaultPda mints
  let state ← readSpendingState rpc c.programId c.walletPda c.vaultPda (ownershipDiscs c.version)
    (c.walletPda :: c.vaultPda :: atas)
  let vaultInfo := (state.infos[1]?).join
  if isLiveWallet c.programId c.version (state.infos[0]?).join then
    let own := (state.authorities.find? fun row => row.1 = c.authorityPda).map (·.2)
    let intact := ownIntact c.publicKey own
    let ownRpIdHash := own.bind fun data => if 145 ≤ data.length then some (data.slice 113 32) else none
    let others := (state.authorities.filter fun row => row.1 ≠ c.authorityPda).map
      (otherAuthority ownRpIdHash trustedKeys)
    let sessions := state.sessions.filterMap (liveSession slot trustedKeys)
    let deferred := state.deferred.filterMap (pendingDeferred slot)
    let tokenGrants := vaultTokenGrants c.vaultPda state.ownedTokens (watchedPairs atas mints (state.infos.drop 2))
      trustedKeys
    let vaultIsSystemAccount := isSystemAccount vaultInfo
    .ok (some {
      toPasskeyWalletCandidate := c
      lamports := (vaultInfo.map (·.lamports)).getD 0
      slot := slot
      otherAuthorities := others
      liveSessions := sessions
      pendingDeferred := deferred
      vaultIsSystemAccount := vaultIsSystemAccount
      tokenGrants := tokenGrants
      controlledAlone := intact && vaultIsSystemAccount && others.all (·.trusted) && sessions.all (·.trusted) &&
        deferred.all (·.trusted) && tokenGrants.all (·.trusted)
      signatureCount := if intact then (own.map fun data => (data.slice 8 4).toNatLE).getD 0 else 0 })
  else .ok none

/-- What the reading of a destination says against it. -/
def destinationProblem (programId wallet vault : Pubkey) (fields : OwnerFields) (rpIdHash : Bytes) (slot : ℕ)
    (atas mints : List Pubkey) (state : SpendingState) : Option String :=
  let walletText := addressText wallet
  let programText := addressText programId
  let vaultText := addressText vault
  let vaultInfo := (state.infos[1]?).join
  let count := state.authorities.length
  if isLiveWallet programId .v2 (state.infos[0]?).join = false then
    some s!"{walletText} is not a wallet of program {programText}"
  else match state.authorities with
    | [only] =>
      let a := only.2
      if ¬(a[1]? = some (byteOf fields.authType) ∧ a[2]? = some (byteOf roleOwner) ∧
          a.slice 48 32 = fields.credentialOrPubkey) then
        some s!"wallet {walletText} is not owned by this key alone"
      else if fields.authType = authTypeSecp256r1 ∧
          ¬(some (a.slice 80 33) = fields.secp256r1Pubkey ∧ a.slice 113 32 = rpIdHash) then
        some s!"wallet {walletText} lists this passkey's credential with another public key or relying party"
      else if state.sessions.any fun row => decide (slot ≤ expiryAt row.2 72) then
        some s!"wallet {walletText} has a live session"
      else if state.deferred.any fun row => decide (slot ≤ expiryAt row.2 168) then
        some s!"wallet {walletText} has a pending deferred execution"
      else if isSystemAccount vaultInfo = false then
        match vaultInfo with
        | some info =>
          let ownerText := addressText info.owner
          if info.owner = systemProgram then
            some s!"wallet {walletText}'s vault {vaultText} carries data, so it is no longer a plain system account"
          else some s!"wallet {walletText}'s vault {vaultText} is owned by program {ownerText}, not the System Program"
        | none => none
      else (vaultTokenGrants vault state.ownedTokens (watchedPairs atas mints (state.infos.drop 2)) []).head?.map
        fun grant =>
          let tokenText := addressText grant.tokenAccount
          let phrase := grantPhrase grant
          s!"wallet {walletText}'s vault token account {tokenText} {phrase}"
    | _ => some s!"wallet {walletText} has {count} authorities; a migration destination must have only its owner"

/-- Whether a wallet belongs to the owner alone, the slot of the newest read, and how often the passkey signed. -/
def vetDestination (programId wallet : Pubkey) (owner : CreateWalletOwner) (getSlot : Except Error ℕ)
    (mints : List Pubkey) : Except Error DestinationVet := do
  let fields ← resolveOwnerFields owner
  let slot ← getSlot
  let vault := findVault rt wallet
  let atas := watchedAtasOf derive vault mints
  let state ← readSpendingState rpc programId wallet vault (ownershipDiscs .v2) (wallet :: vault :: atas)
  let problem := destinationProblem programId wallet vault fields (rt.sha256 (utf8 (fields.rpId.getD ""))).bytes slot
    atas mints state
  .ok {
    problem := problem
    slot := state.slot
    signatureCount :=
      if problem = none ∧ fields.authType = authTypeSecp256r1 then
        (state.authorities.head?.map fun row => (row.2.slice 8 4).toNatLE).getD 0
      else 0 }

/-- An authority that stores the owner's whole passkey and has taken a signature. -/
def signedAuthority (publicKey : Option Bytes) (rpIdHash : Bytes) (row : Pubkey × Bytes) : Option SignedAuthority :=
  if row.2.length < 145 ∨ some (row.2.slice 80 33) ≠ publicKey ∨ row.2.slice 113 32 ≠ rpIdHash ∨
      (row.2.slice 8 4).toNatLE = 0 then none
  else some ⟨readKey row.2 16, ((row.2.byte 2).toNat : ℤ)⟩

/-- Every authority the passkey has signed with, on any wallet and at any rank. -/
def signedPasskeyAuthorities (programId : Pubkey) (owner : CreateWalletOwner) :
    Except Error (List SignedAuthority) := do
  let fields ← resolveOwnerFields owner
  let rpIdHash := (rt.sha256 (utf8 (fields.rpId.getD ""))).bytes
  let accounts ← rpc.programAccounts programId
    [(0, [(ownershipDiscs .v2).authority, byteOf authTypeSecp256r1]), (48, fields.credentialOrPubkey), (113, rpIdHash)]
    none
  .ok (accounts.2.filterMap (signedAuthority fields.secp256r1Pubkey rpIdHash))

end Candidates

end LazorKit.Kit
