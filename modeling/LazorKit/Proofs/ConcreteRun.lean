import LazorKit.Proofs.Acceptance

/-! # Evaluating runs

A run is a fold of computable steps, so what happens in a given one can be computed. The first part
turns the notions stated over runs into checks of that kind. The second is one deployment with a short
life of one wallet in it: an Owner, two passkey authorities over one key, a deferred transfer, a session
and a Delegate. Hashes, derived addresses and signatures in it are the real ones.
-/

namespace LazorKit

open Solana

section Evaluate

variable {dep : Deployment} {start : Ledger} {events : List Event}

/-- What a call that succeeds leaves, by evaluation. -/
def resultAt (dep : Deployment) (start : Ledger) (events : List Event) (i : ℕ) (call : Call) : Machine Approval :=
  (call.execute dep (ledgerAt dep start events i)).getD (Machine.start start)

theorem succeedsAt_resultAt {i : ℕ} {call : Call} (at_ : events[i]? = some (.call call))
    (success : (call.execute dep (ledgerAt dep start events i)).succeeded = true) :
    SucceedsAt dep start events i call (resultAt dep start events i call) :=
  ⟨at_, Except.eq_ok_getD success⟩

/-- The clocks of the calls, in order. -/
def callSlots (events : List Event) : List ℕ :=
  events.filterMap fun
    | .call call => some call.slot
    | _ => none

/-- The clock of a run may be checked on neighbours alone. -/
theorem slotsNondecreasing_of_pairwise (sorted : (callSlots events).Pairwise (· ≤ ·)) : SlotsNondecreasing events := by
  intro i j first second le atFirst atSecond
  rcases Nat.eq_or_lt_of_le le with same | before
  · subst same
    rw [atFirst] at atSecond
    cases Option.some.inj atSecond
    exact Nat.le_refl _
  · rw [callSlots, List.pairwise_filterMap, List.pairwise_iff_getElem] at sorted
    obtain ⟨boundFirst, isFirst⟩ := List.getElem?_eq_some_iff.mp atFirst
    obtain ⟨boundSecond, isSecond⟩ := List.getElem?_eq_some_iff.mp atSecond
    exact sorted i j boundFirst boundSecond before _ (by rw [isFirst]) _ (by rw [isSecond])

/-- The challenge preimages a machine's approvals stand for. -/
def approvedPreimages (dep : Deployment) (m : Machine Approval) : List Bytes :=
  m.approved.filterMap fun
    | .authority _ discriminator (some assertion) => some (assertion.preimage discriminator dep.programId)
    | _ => none

/-- The challenge preimages of the assertions one event accepts. -/
def eventPreimages (dep : Deployment) (ledger : Ledger) : Event → List Bytes
  | .call call =>
    match call.execute dep ledger with
    | .ok m => approvedPreimages dep m
    | .error _ => []
  | _ => []

/-- The challenge preimages of the assertions accepted along a run. -/
def acceptedPreimages (dep : Deployment) : Ledger → List Event → List Bytes
  | _, [] => []
  | ledger, event :: rest => eventPreimages dep ledger event ++ acceptedPreimages dep (step dep ledger event) rest

private theorem mem_acceptedPreimages {i : ℕ} {call : Call} {m : Machine Approval} {preimage : Bytes}
    (success : SucceedsAt dep start events i call m) (member : preimage ∈ approvedPreimages dep m) :
    preimage ∈ acceptedPreimages dep start events := by
  induction events generalizing start i with
  | nil => cases success.1
  | cons event rest ih =>
    rw [acceptedPreimages, List.mem_append]
    cases i with
    | zero =>
      have isCall : event = .call call := by simpa using success.1
      have executed : call.execute dep start = .ok m := success.2
      left
      rw [isCall, eventPreimages, executed]
      exact member
    | succ i => exact .inr (ih ⟨success.1, success.2⟩)

/-- What a run accepts is found by evaluating it. -/
theorem challengePreimages_subset :
    challengePreimages dep start events ⊆ {preimage | preimage ∈ acceptedPreimages dep start events} := by
  rintro _ ⟨i, key, discriminator, assertion, ⟨call, m, success, member⟩, rfl⟩
  exact mem_acceptedPreimages success (List.mem_filterMap.mpr ⟨_, member, rfl⟩)

/-- Injectivity of the hash on the challenges of a run, by evaluation. -/
theorem injOn_challengePreimages (separated : ∀ a ∈ acceptedPreimages dep start events,
      ∀ b ∈ acceptedPreimages dep start events, dep.sha256 a = dep.sha256 b → a = b) :
    Set.InjOn dep.sha256 (challengePreimages dep start events) :=
  fun _ first _ second same => separated _ (challengePreimages_subset first) _ (challengePreimages_subset second) same

end Evaluate

namespace Sample

/-- An address or a digest from its little-endian number. -/
def bytes32 (n : ℕ) : Bytes32 := .ofBytes (Bytes.ofNatLE 32 n)

/-- A signature from the little-endian numbers of its halves. -/
def signatureOf (first second : ℕ) : Bytes := Bytes.ofNatLE 32 first ++ Bytes.ofNatLE 32 second

/-- `LazorFroi…`, the deployed address. -/
def programId : Pubkey :=
  .ofBytes [5, 4, 121, 189, 114, 225, 166, 112, 133, 180, 71, 25, 136, 30, 133, 58, 11, 79, 63, 69, 222, 218,
    209, 185, 93, 27, 254, 128, 20, 100, 237, 229]

def payer : Pubkey := .fill 1
def ownerKey : Pubkey := .fill 2
def sessionKey : Pubkey := .fill 3
def recipient : Pubkey := .fill 5
def delegateKey : Pubkey := .fill 6
def userSeed : Bytes32 := .fill 7
def credentialA : Bytes32 := .fill 10
def credentialB : Bytes32 := .fill 11

/-- The compressed P-256 key both passkey authorities carry. -/
def passkey : Bytes := Bytes.ofNatLE 33 0xa6bb6d277cfd95437df9f3d3e7ec06171812efdd558db2790be821f9bc56a92a03

/-- `lazorkit.com`. -/
def rpId : Bytes := [108, 97, 122, 111, 114, 107, 105, 116, 46, 99, 111, 109]

def wallet : Pubkey := bytes32 0xe7c28fb0d65c8cd6a10df46ec2276facdbdf0e966f4b96363cccb81c9fc5bf7d
def vault : Pubkey := bytes32 0x2dc8a1b5c48c263f94aeb41270ab74ffa7d58bc747d2abbe4c40f31c4d27d8af
def owner : Pubkey := bytes32 0xd0b4e92ad5954a14973b9d0b143d50c2fc6046beae89b0df83d6855fb7ca40b9
def authorityA : Pubkey := bytes32 0x7df6e939742d0e83bbc3031b9839ab6d0ebe6d37a283b75d94ed26d58745ae44
def authorityB : Pubkey := bytes32 0xfb970b2d64099333c7612eacf220a41f23c7bea3d5ae4dd1cc9ee5fee47b3eb9
def delegate : Pubkey := bytes32 0x367f918b17fbd4933c9e2ddeaad7a33de41e402209fc132c817907cd1daaa46d
def session : Pubkey := bytes32 0x118fa6d2c871cd487562bd66a87e283a50278a256a79fc44098da9b79d34d142
def deferred : Pubkey := bytes32 0xa2c6546efddada5a41d6e7f4e5ed821ae0aa721d06596180da707d007e7fc3ed
def config : Pubkey := bytes32 0xfb639c835b229c54dd4e1dbc6d91d39153c4c2e4c874d3ce6da3332480562ffb

/-- The derived addresses and their bumps. -/
def derived : List (List Bytes × Pubkey × UInt8) :=
  [([Seeds.wallet, userSeed.bytes], wallet, 255), ([Seeds.vault, wallet.bytes], vault, 255),
    ([Seeds.authority, wallet.bytes, ownerKey.bytes], owner, 254),
    ([Seeds.authority, wallet.bytes, credentialA.bytes], authorityA, 255),
    ([Seeds.authority, wallet.bytes, credentialB.bytes], authorityB, 254),
    ([Seeds.authority, wallet.bytes, delegateKey.bytes], delegate, 253),
    ([Seeds.session, wallet.bytes, sessionKey.bytes], session, 255),
    ([Seeds.deferred, wallet.bytes, authorityB.bytes, [2, 0, 0, 0]], deferred, 251),
    ([Seeds.protocolConfig], config, 254)]

def rpIdHash : Bytes32 := bytes32 0xced5f06c5cf35d154984e0efea53ba00256be49ceb584914372f9f378db2d016
def emptyHash : Bytes32 := bytes32 0x55b852781b9995a44c939b64e441ae2724b96f99c8f4fb9a141cfc9842c4b0e3

/-- Client data with the given challenge, for the origin `https://lazorkit.com`. -/
def clientDataJson (challenge : Bytes32) : Bytes :=
  [123, 34, 116, 121, 112, 101, 34, 58, 34, 119, 101, 98, 97, 117, 116, 104, 110, 46, 103, 101, 116, 34, 44, 34,
    99, 104, 97, 108, 108, 101, 110, 103, 101, 34, 58, 34] ++ base64urlEncodeNoPad challenge.bytes ++
  [34, 44, 34, 111, 114, 105, 103, 105, 110, 34, 58, 34, 104, 116, 116, 112, 115, 58, 47, 47, 108, 97, 122, 111,
    114, 107, 105, 116, 46, 99, 111, 109, 34, 125]

/-- The user was present and verified. -/
def authenticatorData : Bytes := rpIdHash.bytes ++ [5, 0, 0, 0, 0]

/-- The slot, the counter and the position of the instructions sysvar, in front of every payload. -/
def authPrefix (slot counter : ℕ) (sysvar : UInt8) : Bytes :=
  Bytes.ofNatLE 8 slot ++ Bytes.ofNatLE 4 counter ++ [sysvar, 0]

/-- The assertion over an empty batch, at either passkey authority's first use. -/
def executeAssertion : Assertion where
  authPrefix := authPrefix 1000 1 4
  signedPayload := [0] ++ emptyHash.bytes
  payer := payer
  wallet := wallet
  counter := 1
  authenticatorData := authenticatorData
  clientDataJson := clientDataJson (bytes32 0x59293d4d1a08bf373a4616283a17090ff23a64139ac1533cd9ac5a973d5a2065)
  signature := signatureOf 0xe88bbb8b7c2c7e4e88d0a44680d8106884249f8d93c3911b454e6f28cd01fa38
    0x36752284a47b31b7804d23f690297f40862ada006fb83596bb58a5372c3e0713

/-- A compact transfer of lamports from the vault to the recipient; the System program, the vault and
the recipient stand at these positions. -/
def transferBatch (system vault recipient : UInt8) (amount : ℕ) : Bytes :=
  [1, system, 2, vault, recipient, 12, 0] ++ Bytes.ofNatLE 4 2 ++ Bytes.ofNatLE 8 amount

def instructionsHash : Bytes32 := bytes32 0x6e463aa63fa1e57e348ce1b7663efe83ed7fc61ead8246ef65224647d1b43011
def accountsHash : Bytes32 := bytes32 0xbdc2e194e9c3db482117951f0e8aea3e7430b77dc4eae50e45ddbeba3e1c6683

/-- The assertion that authorizes the deferred transfer, at authority B's second use. -/
def authorizeAssertion : Assertion where
  authPrefix := authPrefix 1001 2 6
  signedPayload := instructionsHash.bytes ++ accountsHash.bytes ++ Bytes.ofNatLE 2 100
  payer := payer
  wallet := wallet
  counter := 2
  authenticatorData := authenticatorData
  clientDataJson := clientDataJson (bytes32 0x163fae151640204be8737b1da48f937d9ea6d5aab026cf6fdf5b0de36e94a83b)
  signature := signatureOf 0x3719cdbd4083319b02a9f4ee53ddfce8b1841e19cfc09506666b1b258814c48b
    0xcd7d09ce00cb1a71521bc38795fcd7ebcc33dfd3fe57ffd4b763c012cdc8ad05

/-- Everything the run hashes, with its digest. -/
def digests : List (Bytes × Bytes32) :=
  [(rpId, rpIdHash), ([], emptyHash), (transferBatch 5 2 6 5000, instructionsHash),
    ((.fill 0 : Pubkey).bytes ++ [0] ++ vault.bytes ++ [2] ++ recipient.bytes ++ [2], accountsHash),
    (executeAssertion.preimage 4 programId,
      bytes32 0x59293d4d1a08bf373a4616283a17090ff23a64139ac1533cd9ac5a973d5a2065),
    (executeAssertion.clientDataJson,
      bytes32 0x97b6b7834b3622ed619d6922a1fe8de912f3c243eef221a3b522f24b33fff55e),
    (authorizeAssertion.preimage 6 programId,
      bytes32 0x163fae151640204be8737b1da48f937d9ea6d5aab026cf6fdf5b0de36e94a83b),
    (authorizeAssertion.clientDataJson,
      bytes32 0xebc79285b7ecee40ceec52052c3a42d9653cf4dec18ddf46c7b1450f6f7535b1)]

/-- The value a table holds for a key. -/
def lookup {α β : Type} [DecidableEq α] [Inhabited β] (table : List (α × β)) (key : α) : β :=
  ((table.find? (·.1 = key)).map (·.2)).getD default

def deployment : Deployment where
  programId := programId
  programId_ne_system := by decide
  findProgramAddress := lookup derived
  sha256 := lookup digests
  rent := ⟨fun size => (128 + size) * 6960, fun size => by omega⟩
  id := programId
  protocolInitAuthority := .fill 12
  sunset := false

def signer (key : Pubkey) : AccountInfo := ⟨key, true, false⟩
def writable (key : Pubkey) : AccountInfo := ⟨key, false, true⟩
def readonly (key : Pubkey) : AccountInfo := ⟨key, false, false⟩

def payerInfo : AccountInfo := ⟨payer, true, true⟩

/-- The four accounts fee collection looks at; the protocol is not initialised, so no fee is due. -/
def feeAccounts : List AccountInfo :=
  [readonly config, writable (.fill 8), writable (.fill 9), readonly systemProgram]

/-- The data of the precompile instruction that checks an assertion's signature. -/
def precompileData (assertion : Assertion) (clientDataHash : Bytes32) : Bytes :=
  [1, 0, 16, 0, 255, 255, 80, 0, 255, 255, 114, 0, 69, 0, 255, 255] ++ assertion.signature ++ passkey ++ [0] ++
    assertion.authenticatorData ++ clientDataHash.bytes

/-- The auth payload of an assertion. -/
def authPayload (assertion : Assertion) : Bytes :=
  assertion.authPrefix ++ Bytes.ofNatLE 2 assertion.authenticatorData.length ++ assertion.authenticatorData ++
    Bytes.ofNatLE 2 assertion.clientDataJson.length ++ assertion.clientDataJson

/-- An inner transfer of the System program from the vault to the recipient. -/
def transfers (amount : ℕ) (_ : Instruction) (ledger : Ledger) : Option (List (Pubkey × Account)) :=
  some [(vault, { ledger vault with lamports := (ledger vault).lamports - amount }),
    (recipient, { ledger recipient with lamports := (ledger recipient).lamports + amount })]

/-- A top-level call at a slot, behind the given instructions of its transaction. -/
def topLevel (slot : UInt64) (earlier : List (Pubkey × Bytes)) (amount : ℕ) (data : Bytes) : Frame where
  slot := slot
  stackHeight := 1
  instructions := earlier ++ [(programId, data)]
  currentIndex := earlier.length
  invoke := transfers amount

def createWalletData : Bytes := [0] ++ userSeed.bytes ++ List.replicate 8 0 ++ ownerKey.bytes

def createWallet : Call where
  frame := topLevel 1000 [] 0 createWalletData
  accounts := ⟨[payerInfo, writable wallet, readonly vault, writable owner, readonly systemProgram, readonly rentSysvar]
    ++ feeAccounts, by decide, by decide +kernel⟩
  data := createWalletData

/-- The accounts with which the Owner adds an authority at an address. -/
def addAccounts (key : Pubkey) : List AccountInfo :=
  [payerInfo, writable wallet, writable owner, writable key, readonly systemProgram, readonly rentSysvar,
    signer ownerKey]

/-- A passkey authority of a rank, for a credential. -/
def addPasskeyData (role : UInt8) (credential : Bytes32) : Bytes :=
  [1, 1, role] ++ List.replicate 6 0 ++ credential.bytes ++ passkey ++ [12] ++ rpId

def addAuthorityA : Call where
  frame := topLevel 1000 [] 0 (addPasskeyData rankOwner credentialA)
  accounts := ⟨addAccounts authorityA, by decide, by decide +kernel⟩
  data := addPasskeyData rankOwner credentialA

def addAuthorityB : Call where
  frame := topLevel 1000 [] 0 (addPasskeyData rankAdmin credentialB)
  accounts := ⟨addAccounts authorityB, by decide, by decide +kernel⟩
  data := addPasskeyData rankAdmin credentialB

/-- A lifetime limit of 5000 lamports. -/
def solLimit : Bytes := [1, 8, 0] ++ List.replicate 8 0 ++ Bytes.ofNatLE 8 5000

def addDelegateData : Bytes :=
  [1, 0, rankDelegate] ++ List.replicate 6 0 ++ delegateKey.bytes ++ Bytes.ofNatLE 2 solLimit.length ++ solLimit

def addDelegate : Call where
  frame := topLevel 1005 [] 0 addDelegateData
  accounts := ⟨addAccounts delegate, by decide, by decide +kernel⟩
  data := addDelegateData

def executeData : Bytes := [4, 0] ++ authPayload executeAssertion

/-- The transaction of either Execute with the one assertion. -/
def executeFrame : Frame :=
  topLevel 1000 [(secp256r1Program, precompileData executeAssertion
    (bytes32 0x97b6b7834b3622ed619d6922a1fe8de912f3c243eef221a3b522f24b33fff55e))] 0 executeData

/-- The accounts of an Execute of an empty batch. -/
def executeAccounts (authority : Pubkey) : List AccountInfo :=
  [payerInfo, readonly wallet, writable authority, readonly vault, readonly instructionsSysvar] ++ feeAccounts

def executeA : Call := ⟨executeFrame, ⟨executeAccounts authorityA, by decide, by decide +kernel⟩, executeData⟩
def executeB : Call := ⟨executeFrame, ⟨executeAccounts authorityB, by decide, by decide +kernel⟩, executeData⟩

def authorizeData : Bytes := [6] ++ authorizeAssertion.signedPayload ++ authPayload authorizeAssertion

def authorize : Call where
  frame := topLevel 1001 [(secp256r1Program, precompileData authorizeAssertion
    (bytes32 0xebc79285b7ecee40ceec52052c3a42d9653cf4dec18ddf46c7b1450f6f7535b1))] 0 authorizeData
  accounts := ⟨[payerInfo, readonly wallet, writable authorityB, writable deferred, readonly systemProgram,
    readonly rentSysvar, readonly instructionsSysvar], by decide, by decide +kernel⟩
  data := authorizeData

def executeDeferred : Call where
  frame := topLevel 1002 [] 5000 ([7] ++ transferBatch 5 2 6 5000)
  accounts := ⟨[payerInfo, readonly wallet, writable vault, writable deferred, payerInfo, readonly systemProgram,
    writable recipient] ++ feeAccounts, by decide, by decide +kernel⟩
  data := [7] ++ transferBatch 5 2 6 5000

def createSessionData : Bytes :=
  [5] ++ sessionKey.bytes ++ Bytes.ofNatLE 8 2000 ++ Bytes.ofNatLE 2 solLimit.length ++ solLimit

def createSession : Call where
  frame := topLevel 1003 [] 0 createSessionData
  accounts := ⟨[payerInfo, readonly wallet, readonly owner, writable session, readonly systemProgram,
    readonly rentSysvar, signer ownerKey], by decide, by decide +kernel⟩
  data := createSessionData

/-- The session moves 1000 lamports. -/
def executeSession : Call where
  frame := topLevel 1004 [] 1000 ([4] ++ transferBatch 5 3 6 1000)
  accounts := ⟨[payerInfo, readonly wallet, writable session, writable vault, signer sessionKey, readonly systemProgram,
    writable recipient] ++ feeAccounts, by decide, by decide +kernel⟩
  data := [4] ++ transferBatch 5 3 6 1000

/-- The whole life: the payer and the vault are funded from outside. -/
def events : List Event :=
  [.foreign payer ⟨10000000000, systemProgram, []⟩, .foreign vault ⟨1000000, systemProgram, []⟩, .call createWallet,
    .call addAuthorityA, .call addAuthorityB, .call executeA, .call executeB, .call authorize, .call executeDeferred,
    .call createSession, .call executeSession, .call addDelegate]

def admin : Pubkey := .fill 13
def treasury : Pubkey := .fill 14
def nextAdmin : Pubkey := .fill 15
def feeRecord : Pubkey := bytes32 0x9bd803757e2d1d5654043788a7f6bf3d92f0de6d56a13544eaa4128b43a15c24
def shard : Pubkey := bytes32 0xf23da02e46253fb6a59b0aa654d1092365c5539ed16094b382c6776d6ec417c

/-- The same deployment with more derived addresses. -/
def withAddresses (more : List (List Bytes × Pubkey × UInt8)) : Deployment :=
  { deployment with findProgramAddress := lookup (derived ++ more) }

/-- The same deployment with more digests. -/
def withDigests (more : List (Bytes × Bytes32)) : Deployment := { deployment with sha256 := lookup (digests ++ more) }

/-- The same deployment, where fees are collected. -/
def configured : Deployment :=
  withAddresses [([Seeds.feeRecord, payer.bytes], feeRecord, 254), ([Seeds.treasuryShard, [0]], shard, 255)]

/-- 5000 lamports for a wallet, 1000 for an execution, one shard. -/
def initializeProtocolData : Bytes :=
  [10] ++ admin.bytes ++ treasury.bytes ++ Bytes.ofNatLE 8 5000 ++ Bytes.ofNatLE 8 1000 ++ [1]

def initializeProtocol : Call where
  frame := topLevel 1000 [] 0 initializeProtocolData
  accounts := ⟨[⟨deployment.protocolInitAuthority, true, true⟩, writable config, readonly systemProgram,
    readonly rentSysvar], by decide, by decide +kernel⟩
  data := initializeProtocolData

def initializeShard : Call where
  frame := topLevel 1000 [] 0 [14, 0]
  accounts := ⟨[payerInfo, readonly config, signer admin, writable shard, readonly systemProgram, readonly rentSysvar],
    by decide, by decide +kernel⟩
  data := [14, 0]

/-- The wallet again, for a fee. -/
def createWalletPaid : Call where
  frame := topLevel 1000 [] 0 createWalletData
  accounts := ⟨[payerInfo, writable wallet, readonly vault, writable owner, readonly systemProgram, readonly rentSysvar,
    readonly config, writable feeRecord, writable shard, readonly systemProgram], by decide, by decide +kernel⟩
  data := createWalletData

def proposeAdmin : Call where
  frame := topLevel 1001 [] 0 ([15] ++ nextAdmin.bytes)
  accounts := ⟨[signer admin, writable config], by decide, by decide +kernel⟩
  data := [15] ++ nextAdmin.bytes

def acceptAdmin : Call where
  frame := topLevel 1002 [] 0 [16]
  accounts := ⟨[signer nextAdmin, writable config], by decide, by decide +kernel⟩
  data := [16]

/-- The protocol is set up, a wallet pays for its creation and the admin hands over. -/
def protocolEvents : List Event :=
  [.foreign deployment.protocolInitAuthority ⟨10000000000, systemProgram, []⟩,
    .foreign payer ⟨10000000000, systemProgram, []⟩, .call initializeProtocol, .call initializeShard,
    .call createWalletPaid, .call proposeAdmin, .call acceptAdmin]

end Sample

end LazorKit
