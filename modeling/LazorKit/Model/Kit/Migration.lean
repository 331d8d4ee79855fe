import LazorKit.Model.Kit.Execute
import LazorKit.Model.Kit.VaultTokens

/-! # The kit's migration

`migrateV1Wallet` plans a whole migration: where the funds land, which token accounts move, which stay and why, and
the instruction or the passkey challenge for exactly those that move. Everything the node is asked is an argument, and
so are the three other methods of the client it calls: the scan for authorities a passkey has signed with, the vet
of a destination wallet, and CreateWallet.
-/

namespace LazorKit.Kit

open Solana

def sysvarIxIndexMigrateWallet : ℕ := 7

/-- `LazorFroiVuAjcwwQ2me83vTr5nc5NRxSaTg3pmEXC8`. -/
def programIdMainnet : Pubkey :=
  .ofBytes [5, 4, 121, 189, 114, 225, 166, 112, 133, 180, 71, 25, 136, 30, 133, 58, 11, 79, 63, 69, 222, 218,
    209, 185, 93, 27, 254, 128, 20, 100, 237, 229]

/-- `57bTNWqtYTJbWuLWASKo6GqUTAK6oFDUR5c6hEc6V8nv`. -/
def programIdDevnet : Pubkey :=
  .ofBytes [61, 31, 48, 201, 234, 123, 162, 47, 145, 3, 226, 191, 98, 236, 118, 120, 233, 152, 47, 243, 228, 195,
    73, 232, 18, 174, 108, 214, 217, 27, 225, 51]

/-- `LazorjRFNavitUaBu5m3WaNPjU1maipvSW2rZfAFAKi`. -/
def programIdMainnetV1 : Pubkey :=
  .ofBytes [5, 4, 121, 189, 161, 20, 104, 15, 245, 91, 183, 140, 201, 166, 200, 211, 205, 102, 163, 213, 243, 1,
    234, 157, 211, 151, 79, 195, 112, 247, 45, 129]

/-- `4h3XoNReAgEcHVxcZ8sw2aufi9MTr7BbvYYjzjWDyDxS`. -/
def programIdDevnetV1 : Pubkey :=
  .ofBytes [54, 213, 39, 172, 223, 134, 89, 239, 125, 188, 125, 103, 126, 185, 123, 239, 198, 64, 25, 77, 237, 176,
    160, 177, 239, 211, 122, 25, 209, 204, 131, 223]

/-- The v1 deployment that pairs with a v2 program; any other program is paired with itself. -/
def legacyProgramIdFor (programId : Pubkey) : Pubkey :=
  if programId = programIdMainnet then programIdMainnetV1
  else if programId = programIdDevnet then programIdDevnetV1
  else programId

/-- `ATokenGPvbdGVxr1b2hvZbsiqW5xWH25efTNsLJA8knL`. -/
def associatedTokenProgram : Pubkey :=
  .ofBytes [140, 151, 37, 143, 78, 36, 137, 241, 187, 61, 16, 41, 20, 142, 13, 131, 11, 90, 19, 153, 218, 255, 16, 132,
    4, 142, 123, 216, 219, 233, 248, 89]

def addressText (address : Pubkey) : String := base58 address.bytes

def tokenDelegate : ℕ := 72
def tokenCloseAuthority : ℕ := 129

inductive GrantKind where
  | delegate
  | closeAuthority
  | owner
  | unreadable
deriving DecidableEq

/-- A right over a token account that is not the vault's. -/
structure TokenGrant where
  tokenAccount : Pubkey
  tokenProgram : Pubkey
  mint : Option Pubkey
  kind : GrantKind
  grantee : Option Pubkey
  trusted : Bool
deriving DecidableEq

def unreadableGrant (tokenAccount tokenProgram : Pubkey) : TokenGrant :=
  ⟨tokenAccount, tokenProgram, none, .unreadable, none, false⟩

/-- The right an option of the layout gives: any tag but zero counts as set, and the vault itself is nobody else. -/
def grantAt (entry : Pubkey × Bytes) (tokenProgram vault : Pubkey) (trustedKeys : List Pubkey)
    (slot : GrantKind × ℕ) : Option TokenGrant :=
  if (entry.2.slice slot.2 4).toNatLE = 0 then none
  else if readKey entry.2 (slot.2 + 4) = vault then none
  else some {
    tokenAccount := entry.1
    tokenProgram := tokenProgram
    mint := some (readKey entry.2 0)
    kind := slot.1
    grantee := some (readKey entry.2 (slot.2 + 4))
    trusted := trustedKeys.contains (readKey entry.2 (slot.2 + 4)) }

/-- The delegates and foreign close authorities on token accounts of the vault. -/
def grantsOn (accounts : List (Pubkey × Bytes)) (tokenProgram vault : Pubkey) (trustedKeys : List Pubkey) :
    List TokenGrant :=
  accounts.flatMap fun entry =>
    if entry.2.length < tokenAccountLen then [unreadableGrant entry.1 tokenProgram]
    else [(.delegate, tokenDelegate), (.closeAuthority, tokenCloseAuthority)].filterMap
      (grantAt entry tokenProgram vault trustedKeys)

/-- What a right lets its holder do, as the tail of a message. -/
def grantPhrase (g : TokenGrant) : String :=
  let grantee := (g.grantee.map addressText).getD "null"
  let mint := (g.mint.map addressText).getD "null"
  match g.kind with
  | .delegate => s!"has a delegate, {grantee}"
  | .closeAuthority => s!"has a close authority other than the vault, {grantee}"
  | .owner => s!"(the vault's own account for mint {mint}) belongs to {grantee}"
  | .unreadable => "cannot be read as a token account"

/-- Why an existing account at a destination address must not receive the tokens. -/
def destinationTokenAccountProblem (dest : Pubkey) (info : Account) (tokenProgram vault : Pubkey) : Option String :=
  let program := addressText info.owner
  let expected := addressText tokenProgram
  let owner := addressText (readKey info.data 32)
  let vaultText := addressText vault
  if info.owner ≠ tokenProgram then some s!"is owned by program {program}, not {expected}"
  else if info.data.length < tokenAccountLen then some "cannot be read as a token account"
  else if readKey info.data 32 ≠ vault then some s!"belongs to {owner}, not the v2 vault {vaultText}"
  else (grantsOn [(dest, info.data)] tokenProgram vault []).head?.map grantPhrase

/-- Not created yet, or a System account without data. -/
def isSystemAccount (info : Option Account) : Bool :=
  info.all fun info => decide (info.owner = systemProgram ∧ info.data = [])

structure MigrateTokenPair where
  sourceAta : Pubkey
  destAta : Pubkey
  mint : Pubkey
  tokenProgram : Pubkey

structure MigrateWalletParams where
  payer : Pubkey
  v1Wallet : Pubkey
  v1Authority : Pubkey
  v1Vault : Pubkey
  destination : Pubkey
  refundDestination : Pubkey
  authSigner : Pubkey
  authSignerIsSigner : Bool
  tokens : List MigrateTokenPair
  authPayload : Option Bytes
  programId : Pubkey

def createMigrateWalletIx (params : MigrateWalletParams) : Instruction where
  programId := params.programId
  accounts := [
    signerWritableMeta params.payer,
    writableMeta params.v1Wallet,
    writableMeta params.v1Authority,
    writableMeta params.v1Vault,
    writableMeta params.destination,
    writableMeta params.refundDestination,
    readonlyMeta systemProgram,
    readonlyMeta instructionsSysvar,
    ⟨params.authSigner, params.authSignerIsSigner, false⟩] ++
    params.tokens.flatMap fun t =>
      [writableMeta t.sourceAta, writableMeta t.destAta, readonlyMeta t.mint, readonlyMeta t.tokenProgram]
  data := concatBytes [[discMigrateWallet, byteOf params.tokens.length], params.authPayload.getD []]

/-- Creates the account if it is missing and does nothing if it exists. -/
def createAssociatedTokenAccountIdempotentIx (payer ata owner mint tokenProgram : Pubkey) : Instruction where
  programId := associatedTokenProgram
  accounts := [
    signerWritableMeta payer,
    writableMeta ata,
    readonlyMeta owner,
    readonlyMeta mint,
    readonlyMeta systemProgram,
    readonlyMeta tokenProgram]
  data := [1]

structure MigrateV1WalletParams where
  payer : Pubkey
  owner : CreateWalletOwner
  userSeed : Option Bytes
  v1Wallet : Option Pubkey
  destinationUserSeed : Option Bytes
  v1ProgramId : Option Pubkey
  excludeTokenAccounts : List Pubkey
  refundDestination : Option Pubkey

/-- An authority a passkey has signed with. -/
structure SignedAuthority where
  walletPda : Pubkey
  role : ℤ

/-- What the vet of a destination wallet says: a problem or none, the count of signatures and the slot it was read
at. -/
structure DestinationVet where
  problem : Option String
  signatureCount : ℕ
  slot : ℕ

/-- The node's answers, the decoder of the codec library that reads a mint in them, a random seed and the results of
the client's other methods. -/
structure MigrationReads where
  v1State : Except Error (Pubkey → Option Account)
  v1AuthorityAccount : Pubkey → Except Error (Option Bytes)
  signedPasskeyAuthorities : Except Error (List SignedAuthority)
  vetDestination : Pubkey → Except Error DestinationVet
  randomBytes : Bytes
  walletAccount : Pubkey → Except Error (Option Account)
  tokenAccounts : TokenRows
  decodeAddress : Bytes → Except Error Pubkey
  mints : ℕ → Except Error (Pubkey → Option Account)
  destinations : Option ℕ → ℕ → Except Error (Pubkey → Option Account)
  createWallet : Bytes → Except Error (List Instruction)
  challenge : ChallengeReads

/-- The part of the plan that is sent: one instruction and its transaction, or a challenge and what to do with the
answer. -/
inductive MigrateStep where
  | ed25519 (instruction : Instruction) (instructions : List Instruction)
  | secp256r1 (challenge : Bytes32) (finalize : WebAuthnResponse → Except Error (List Instruction))

structure MigrationPlan where
  v1 : V1Accounts
  destinationWallet : Pubkey
  destinationUserSeed : Option Bytes
  v2Vault : Pubkey
  tokens : List V1VaultToken
  skippedTokens : List SkippedToken
  setupInstructions : List Instruction
  migrate : MigrateStep

/-- The state of one existing destination account. -/
structure DestinationState where
  dest : Pubkey
  frozen : Bool
  problem : Option String

section Client

variable (rt : Runtime) (derive : Pubkey → List Bytes → Pubkey) (reads : MigrationReads)

def findWallet (userSeed : Bytes) : Pubkey := (rt.findProgramAddress [Seeds.wallet, userSeed]).1

def getAssociatedTokenAddress (mint owner tokenProgram : Pubkey) : Pubkey :=
  derive associatedTokenProgram [owner.bytes, tokenProgram.bytes, mint.bytes]

/-- The owner is the passkey on the v1 authority: its key, and the relying party it was created under. -/
def assertV1PasskeyOwner (authority : Pubkey) (owner : CreateWalletOwner) : Except Error Unit := do
  let fields ← resolveOwnerFields owner
  let info ← reads.v1AuthorityAccount authority
  let text := addressText authority
  let data ← Except.ofOption ⟨s!"v1 authority {text} not found"⟩ info
  Except.ensure (145 ≤ data.length) ⟨"the v1 authority is not a passkey authority"⟩
  Except.ensure (some (data.slice 80 33) = fields.secp256r1Pubkey)
    ⟨"owner.compressedPubkey is not the v1 authority's public key"⟩
  Except.ensure (data.slice 113 32 = (rt.sha256 (utf8 (fields.rpId.getD ""))).bytes)
    ⟨"owner.rpId is not the relying party the v1 wallet was created under"⟩

/-- The one wallet this passkey has signed for, if the vet passes it. -/
def reusedDestination (authType : ℤ) : Except Error (Option (Pubkey × ℕ)) :=
  if authType = authTypeSecp256r1 then do
    let signed ← reads.signedPasskeyAuthorities
    match signed with
    | [only] =>
      if only.role = roleOwner then do
        let vet ← reads.vetDestination only.walletPda
        .ok (if vet.problem = none ∧ 0 < vet.signatureCount then some (only.walletPda, vet.slot) else none)
      else .ok none
    | _ => .ok none
  else .ok none

/-- The destination wallet, the seed it derives from if this call knows it, the seed to create it from if it is not
there, and the slot it passed the vet at if it is. -/
structure Destination where
  wallet : Pubkey
  seed : Option Bytes
  createFrom : Option Bytes
  vettedAt : Option ℕ

/-- A named wallet is created if nothing is there, and otherwise has to pass the vet. -/
def seededDestination (params : MigrateV1WalletParams) (seed : Bytes) : Except Error Destination := do
  let v2Wallet := findWallet rt seed
  let account ← reads.walletAccount v2Wallet
  if isSystemAccount account then .ok ⟨v2Wallet, some seed, some seed, none⟩
  else do
    let vet ← reads.vetDestination v2Wallet
    match vet.problem with
    | some problem =>
      let named := if params.userSeed.isSome then "userSeed" else "destinationUserSeed"
      .error ⟨s!"refusing to migrate into the {named}'s v2 wallet: {problem}"⟩
    | none => .ok ⟨v2Wallet, some seed, none, some vet.slot⟩

def chooseDestination (params : MigrateV1WalletParams) (authType : ℤ) : Except Error Destination :=
  match params.userSeed with
  | some seed => seededDestination rt reads params seed
  | none => do
    let reused ← reusedDestination reads authType
    match reused with
    | some (wallet, slot) => .ok ⟨wallet, none, none, some slot⟩
    | none => seededDestination rt reads params (params.destinationUserSeed.getD reads.randomBytes)

/-- What is there to say of a destination account, if there is one. -/
def destinationState (v2Vault : Pubkey) (t : V1VaultToken) (info : Option Account) : Option DestinationState :=
  let dest := getAssociatedTokenAddress derive t.mint v2Vault t.tokenProgram
  info.bind fun info =>
    if isSystemAccount (some info) then none
    else some {
      dest := dest
      frozen := tokenAccountFrozen info.data
      problem := destinationTokenAccountProblem dest info t.tokenProgram v2Vault }

/-- The destination accounts that exist, by the source they are for. -/
def destinationStates (v2Vault : Pubkey) (vettedAt : Option ℕ) (toCheck : List V1VaultToken) :
    Except Error (OrderedMap Pubkey DestinationState) := do
  let infos ← readPages (reads.destinations vettedAt)
    (fun t : V1VaultToken => getAssociatedTokenAddress derive t.mint v2Vault t.tokenProgram) toCheck
  .ok ((infos.filterMap fun entry => (destinationState derive v2Vault entry.1 entry.2).map fun state =>
    (entry.1.ata, state)).foldl (fun map entry => map.set entry.1 entry.2) [])

/-- The accounts to move and those left behind, once the destinations are known. A mint that freezes new accounts is
no obstacle where an account is there and not frozen. -/
def admitDestinations (destState : OrderedMap Pubkey DestinationState) (movable : List V1VaultToken)
    (skipped : List SkippedToken) : List V1VaultToken × List SkippedToken :=
  let frozenThere := skipPass
    (fun t => if (destState.get? t.ata).any (·.frozen) then some .destinationFrozen else none) movable
  let arrivals := (skipped.filter fun s => s.reason = .frozenOnArrival).map (·.token)
  let onArrival := skipPass
    (fun t => if (destState.get? t.ata).any (fun d => !d.frozen) then none else some .frozenOnArrival) arrivals
  (frozenThere.1 ++ onArrival.1,
    (skipped.filter fun s => s.reason ≠ .frozenOnArrival) ++ frozenThere.2 ++ onArrival.2)

/-- The problems of the destinations of the tokens to move. -/
def riggedDestinations (destState : OrderedMap Pubkey DestinationState) (tokens : List V1VaultToken) : List String :=
  tokens.filterMap fun t => (destState.get? t.ata).bind fun d => d.problem.map fun problem =>
    let dest := addressText d.dest
    let mint := addressText t.mint
    s!"{dest} (mint {mint}) {problem}"

/-- `refusing to migrate into …`, naming the first three. -/
def riggedMessage (v2Wallet : Pubkey) (rigged : List String) : String :=
  let wallet := addressText v2Wallet
  let named := String.intercalate "; " (rigged.take 3)
  let rest := rigged.length - 3
  let more := if 3 < rigged.length then s!"; and {rest} more" else ""
  s!"refusing to migrate into {wallet}: destination token account {named}{more}"

/-- The whole triage: listed, classified, checked at the destination. -/
def planTokens (v1Vault v2Wallet v2Vault : Pubkey) (vettedAt : Option ℕ) (exclude : List Pubkey) :
    Except Error (List V1VaultToken × List SkippedToken) := do
  let vaultTokens ← enumerateV1VaultTokens reads.decodeAddress reads.tokenAccounts v1Vault
  let (movable, skipped) ← classifyV1VaultTokens reads.mints vaultTokens exclude
  let toCheck := movable ++ (skipped.filter fun s => s.reason = .frozenOnArrival).map (·.token)
  let destState ← destinationStates derive reads v2Vault vettedAt toCheck
  let (tokens, skippedTokens) := admitDestinations destState movable skipped
  let rigged := riggedDestinations destState tokens
  Except.ensure (rigged = []) ⟨riggedMessage v2Wallet rigged⟩
  let count := tokens.length
  Except.ensure (count ≤ 255) ⟨s!"the v1 vault holds {count} token accounts; one migration moves at most 255"⟩
  .ok (tokens, skippedTokens)

/-- A token account with the account it goes to. -/
def migrateTokenPair (v2Vault : Pubkey) (t : V1VaultToken) : MigrateTokenPair where
  sourceAta := t.ata
  destAta := getAssociatedTokenAddress derive t.mint v2Vault t.tokenProgram
  mint := t.mint
  tokenProgram := t.tokenProgram

/-- The token accounts with withheld fees, by mint. -/
def withheldByMint (tokens : List V1VaultToken) : OrderedMap Pubkey (List Pubkey) :=
  (tokens.filter (·.withheldFees)).foldl (fun map t => map.set t.mint ((map.get? t.mint).getD [] ++ [t.ata])) []

/-- `destination ‖ v1_wallet ‖ num_tokens ‖ refund_dest ‖ source_ata[0] ‖ … ‖ source_ata[n-1]`. -/
def migrationSignedPayload (v2Vault v1Wallet refundDestination : Pubkey) (tokens : List MigrateTokenPair) : Bytes :=
  concatBytes ([v2Vault.bytes, v1Wallet.bytes, [byteOf tokens.length], refundDestination.bytes] ++
    tokens.map (·.sourceAta.bytes))

/-- The v1 accounts, from the wallet's address or from its seed. -/
def resolveV1Accounts (params : MigrateV1WalletParams) (credentialOrPubkey : Bytes) (v1ProgramId : Pubkey) :
    Except Error V1Accounts :=
  match params.v1Wallet, params.userSeed with
  | some v1Wallet, _ => .ok (v1AccountsOf derive v1Wallet credentialOrPubkey v1ProgramId)
  | none, some userSeed => .ok (deriveV1Accounts derive userSeed credentialOrPubkey v1ProgramId)
  | none, none => .error ⟨
    "migrateV1Wallet needs either userSeed or v1Wallet. A wallet created by " ++
    "@lazorkit/wallet used a random seed that lived in browser storage, so for " ++
    "most users the seed is gone: find the wallet with findV1WalletsByOwner and " ++
    "pass v1Wallet instead."⟩

/-- The v1 wallet is there and the owner is its Owner. -/
def assertV1Owner (params : MigrateV1WalletParams) (v1 : V1Accounts) (authType : ℤ) : Except Error Unit := do
  let state ← readV1WalletState reads.v1State v1
  let wallet := addressText v1.wallet
  let missing := if params.v1Wallet.isSome then s!"no v1 wallet at {wallet} for this owner"
    else "no v1 wallet exists for this userSeed"
  let state ← Except.ofOption ⟨missing⟩ state
  Except.ensure (state.ownerRole = some (byteOf roleOwner)) ⟨"MigrateWallet requires an Owner-rank v1 authority"⟩
  if authType = authTypeSecp256r1 then assertV1PasskeyOwner rt reads v1.authority params.owner else .ok ()

/-- The passkey's second phase: the harvests, the precompile instruction and, right behind it, the migration. -/
def finalizeMigrateWallet (harvests : List Instruction) (prepared : PreparedSecp256r1) (ix : MigrateWalletParams)
    (response : WebAuthnResponse) : Except Error (List Instruction) := do
  let signed ← finalizeSecp256r1 prepared response
  .ok (harvests ++ [signed.2, createMigrateWalletIx { ix with authPayload := some signed.1 }])

def migrateV1Wallet (params : MigrateV1WalletParams) : Except Error MigrationPlan := do
  let fields ← resolveOwnerFields params.owner
  let v1ProgramId := params.v1ProgramId.getD (legacyProgramIdFor rt.programId)
  let client := addressText rt.programId
  Except.ensure ([programIdMainnetV1, programIdDevnetV1].contains rt.programId = false) ⟨
    s!"this client is built at {client}, a retired v1 deployment. " ++
    "Build it at the v2 program id: the migration runs at the v1 id but must deliver to v2."⟩
  let v1 ← resolveV1Accounts derive params fields.credentialOrPubkey v1ProgramId
  assertV1Owner rt reads params v1 fields.authType
  let destination ← chooseDestination rt reads params fields.authType
  let v2Vault := findVault rt destination.wallet
  let (tokens, skippedTokens) ← planTokens derive reads v1.vault destination.wallet v2Vault destination.vettedAt
    params.excludeTokenAccounts
  let created ← (match destination.createFrom with
    | some seed => reads.createWallet seed
    | none => .ok [])
  let migrateTokens := tokens.map (migrateTokenPair derive v2Vault)
  let setupInstructions := created ++ migrateTokens.map fun t =>
    createAssociatedTokenAccountIdempotentIx params.payer t.destAta v2Vault t.mint t.tokenProgram
  let harvestInstructions := (withheldByMint tokens).map fun entry => harvestWithheldIx entry.1 entry.2
  let refundDestination := params.refundDestination.getD params.payer
  let signedPayload := migrationSignedPayload v2Vault v1.wallet refundDestination migrateTokens
  let ix (authSigner : Pubkey) (authSignerIsSigner : Bool) : MigrateWalletParams := {
    payer := params.payer
    v1Wallet := v1.wallet
    v1Authority := v1.authority
    v1Vault := v1.vault
    destination := v2Vault
    refundDestination := refundDestination
    authSigner := authSigner
    authSignerIsSigner := authSignerIsSigner
    tokens := migrateTokens
    authPayload := none
    programId := v1ProgramId }
  let migrate ← (match params.owner with
    | .ed25519 publicKey =>
      let instruction := createMigrateWalletIx (ix publicKey true)
      .ok (.ed25519 instruction (harvestInstructions ++ [instruction]))
    | .secp256r1 _ compressedPubkey _ => do
      let inputs ← readChallengeInputs reads.challenge v1.authority (some compressedPubkey) none
      let prepared := prepareSecp256r1 rt.sha256 [discMigrateWallet] signedPayload sysvarIxIndexMigrateWallet
        inputs.slot inputs.counter params.payer v1.wallet v1ProgramId compressedPubkey
      .ok (.secp256r1 prepared.challenge (finalizeMigrateWallet harvestInstructions prepared (ix params.payer false))) :
    Except Error MigrateStep)
  .ok {
    v1 := v1
    destinationWallet := destination.wallet
    destinationUserSeed := if params.userSeed.isSome then none else destination.seed
    v2Vault := v2Vault
    tokens := tokens
    skippedTokens := skippedTokens
    setupInstructions := setupInstructions
    migrate := migrate }

end Client

end LazorKit.Kit
