import LazorKit.Model.Kit.Ownership
import LazorKit.Model.Webauthn
import Mathlib.Data.List.DropRight
import Mathlib.Data.List.Sort

/-! # Finding a returning passkey's wallet

A passkey proves that it holds a key by an assertion over a challenge of the caller's. Candidates whose stored key
made it are described, each by its own reading, and one is adopted only if it is the one the passkey has signed for.
The curve and the JSON parser are libraries; whatever they throw counts as a failed check.
-/

namespace LazorKit.Kit

open Solana

/-- An assertion over a challenge the caller chose. -/
structure OwnershipProof where
  challenge : Bytes
  signature : Bytes
  authenticatorData : Bytes
  clientDataJson : Bytes
deriving DecidableEq

inductive SignatureFormat where
  | der
  | compact
deriving DecidableEq

def signatureFormats : List SignatureFormat := [.der, .compact]

/-- The strings a client data text holds under its two names. -/
structure ClientDataFields where
  type : Option Bytes
  challenge : Option Bytes

/-- The libraries a proof is checked with. -/
structure ProofLibraries where
  sha256 : Bytes → Bytes32
  /-- `JSON.parse`; nothing where it throws. -/
  parseClientData : Bytes → Option ClientDataFields
  /-- `p256.verify`, with high values of `s` allowed. -/
  verifies : SignatureFormat → Bytes → Bytes32 → Bytes → Bool
  /-- The compressed key that a recovery id gives. -/
  recoverPublicKey : SignatureFormat → Bytes → ℕ → Bytes32 → Option Bytes
  /-- `getBase64Decoder().decode`, the padded text of the bytes. -/
  base64 : Bytes → Bytes

section Proofs

variable (lib : ProofLibraries)

/-- `-` for `+`, `_` for `/`, and no `=` at the end. -/
def base64UrlNoPad (bytes : Bytes) : Bytes :=
  ((lib.base64 bytes).map fun letter => if letter = 43 then 45 else if letter = 47 then 95 else letter).rdropWhile
    (· = 61)

/-- What a valid assertion's signature covers, unless the proof fails a check. -/
def assertionDigest (proof : OwnershipProof) (rpId : String) : Option Bytes32 :=
  if proof.challenge.length < 16 then none
  else (lib.parseClientData proof.clientDataJson).bind fun clientData =>
    if clientData.type ≠ some (utf8 "webauthn.get") then none
    else if clientData.challenge ≠ some (base64UrlNoPad lib proof.challenge) then none
    else if proof.authenticatorData.length < 37 then none
    else if proof.authenticatorData.slice 0 32 ≠ (lib.sha256 (utf8 rpId)).bytes then none
    else if proof.authenticatorData.byte 32 &&& 1 = 0 then none
    else some (lib.sha256 (proof.authenticatorData ++ (lib.sha256 proof.clientDataJson).bytes))

/-- Some signatures read in both formats, so either may verify. -/
def p256Verifies (signature : Bytes) (message : Bytes32) (publicKey : Bytes) : Bool :=
  signatureFormats.any fun format => lib.verifies format signature message publicKey

/-- The candidates whose stored key made the proof. -/
def verifyOwnershipProof {α : Type} (publicKey : α → Bytes) (candidates : List α) (proof : OwnershipProof)
    (rpId : String) : List α :=
  match assertionDigest lib proof rpId with
  | none => []
  | some digest => candidates.filter fun c => p256Verifies lib proof.signature digest (publicKey c)

/-- One more recovered key, if it is a new one that the proof verifies against. -/
def recoverStep (proof : OwnershipProof) (digest : Bytes32) (keys : List Bytes) (entry : SignatureFormat × ℕ) :
    List Bytes :=
  match lib.recoverPublicKey entry.1 proof.signature entry.2 digest with
  | none => keys
  | some key =>
    if key.length ≠ 33 then keys
    else if p256Verifies lib proof.signature digest key = false then keys
    else if keys.contains key then keys
    else keys ++ [key]

/-- Every public key the proof verifies against, each once. -/
def recoverPasskeyPublicKeys (proof : OwnershipProof) (rpId : String) : List Bytes :=
  match assertionDigest lib proof rpId with
  | none => []
  | some digest =>
    (signatureFormats.flatMap fun format => (List.range 4).map fun recovery => (format, recovery)).foldl
      (recoverStep lib proof digest) []

/-- The one public key that made every proof. -/
def resolvePasskeyPublicKey (proofs : List OwnershipProof) (rpId : String) : Option Bytes :=
  match proofs with
  | first :: second :: rest =>
    if ¬(first :: second :: rest).Pairwise (·.challenge ≠ ·.challenge) then none
    else
      let common := (second :: rest).foldl
        (fun common proof =>
          let keys := recoverPasskeyPublicKeys lib proof rpId
          common.filter keys.contains)
        (recoverPasskeyPublicKeys lib first rpId)
      match common with
      | [key] => some key
      | _ => none
  | _ => none

end Proofs

/-- Signed for first, then the version, then the fullest, then the address in code-point order. -/
def compareFacts (a b : WalletFacts) : ℤ :=
  let signed : ℤ := (if 0 < b.signatureCount then 1 else 0) - (if 0 < a.signatureCount then 1 else 0)
  if signed ≠ 0 then signed
  else if a.version ≠ b.version then a.version.number - b.version.number
  else if a.lamports ≠ b.lamports then if b.lamports < a.lamports then -1 else 1
  else if addressText a.walletPda < addressText b.walletPda then -1
  else if addressText b.walletPda < addressText a.walletPda then 1
  else 0

structure PickedWallet where
  adopt : Option WalletFacts
  needsConfirmation : List WalletFacts
deriving DecidableEq

/-- Adopt the one wallet the passkey has signed for, if only it and trusted keys can spend from it. -/
def pickOwnWallet (facts : List WalletFacts) : PickedWallet :=
  let ordered := facts.mergeSort fun a b => decide (compareFacts a b ≤ 0)
  match ordered.filter fun f => decide (0 < f.signatureCount) with
  | [only] => if only.controlledAlone then ⟨some only, []⟩ else ⟨none, ordered⟩
  | _ => ⟨none, ordered⟩

/-- The answers to the requests of one lookup: the candidates' scans, the slot, their wallet accounts, and then one
reading for each that is live. -/
structure LookupAnswers where
  candidates : OwnershipRpc
  slot : Except Error ℕ
  wallets : OwnershipRpc
  reading : ℕ → OwnershipRpc

section Lookup

variable (rt : Runtime) (lib : ProofLibraries) (derive : Pubkey → List Bytes → Pubkey) (answers : LookupAnswers)

def describeWalletCandidates (candidates : List PasskeyWalletCandidate) (trustedKeys watchMints : List Pubkey) :
    Except Error (List WalletFacts) :=
  if candidates = [] then .ok []
  else do
    let mints := watchedMints watchMints
    let slot ← answers.slot
    let wallets ← readAccounts answers.wallets (candidates.map (·.walletPda)) none
    let live := (candidates.zipIdx.filter fun entry =>
      isLiveWallet entry.1.programId entry.1.version (wallets.2[entry.2]?).join).map (·.1)
    let described ← live.zipIdx.mapM fun entry =>
      describeCandidate derive (answers.reading entry.2) entry.1 slot trustedKeys mints
    .ok (described.filterMap id)

structure FindOwnWalletParams where
  credentialIdHash : Bytes
  rpId : String
  proof : OwnershipProof
  trustedKeys : List Pubkey
  watchMints : List Pubkey
  includeV1 : Bool

structure FoundWallet extends PickedWallet where
  /-- Found by hash but not proven. -/
  unproven : ℕ
deriving DecidableEq

/-- The returning passkey's wallet, if the chain can say so. -/
def findOwnPasskeyWallet (programId : Pubkey) (params : FindOwnWalletParams) : Except Error FoundWallet := do
  let candidates ← findPasskeyWalletCandidates rt derive answers.candidates programId
      params.credentialIdHash params.rpId
    params.includeV1
  let proven := verifyOwnershipProof lib (·.publicKey) candidates params.proof params.rpId
  let unproven := candidates.length - proven.length
  if proven = [] then .ok ⟨⟨none, []⟩, unproven⟩
  else do
    let facts ← describeWalletCandidates derive answers proven params.trustedKeys params.watchMints
    .ok ⟨pickOwnWallet facts, unproven⟩

end Lookup

end LazorKit.Kit
