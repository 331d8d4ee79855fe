import LazorKit.Machine.Account
import Mathlib.Algebra.Field.Rat
import Mathlib.Data.Nat.Digits.Defs

/-! # The kit's passkey signing

The client library builds what a passkey signs in two phases. `prepareSecp256r1` hashes the challenge
before the authenticator has answered, over the fixed front of the auth payload; `finalizeSecp256r1`
takes the answer and builds the whole auth payload and the precompile instruction in front. JavaScript's
typed arrays are byte strings, and a number written into one is reduced to the width it is written at.
-/

namespace LazorKit.Kit

open Solana

/-- What the library throws. -/
structure Error where
  message : String
deriving DecidableEq

/-- `new TextEncoder().encode`. -/
def utf8 (text : String) : Bytes := text.toByteArray.data.toList

/-- `new Uint8Array([value])` of an integer. -/
def byteOf (value : ℤ) : UInt8 := UInt8.ofNat (value % 256).toNat

/-- The finite values of a double. -/
def IsDouble (value : ℚ) : Prop :=
  ∃ significand exponent : ℤ, |significand| < 2 ^ 53 ∧ -1074 ≤ exponent ∧ exponent ≤ 971 ∧
    value = significand * 2 ^ exponent

/-- A JavaScript number. The two zeros are one here, as they are for `===`. -/
inductive Number where
  | finite (value : ℚ) (isDouble : IsDouble value)
  | infinite (negative : Bool)
  | nan
deriving DecidableEq

/-- What `new Uint8Array` makes of a number: its integral part modulo 256, and nothing of what has none. -/
def Number.toUint8 : Number → UInt8
  | .finite value _ => byteOf (value.num.tdiv value.den)
  | .infinite _ => 0
  | .nan => 0

theorem isDouble_natCast {n : ℕ} (small : n < 2 ^ 53) : IsDouble n :=
  ⟨n, 0, by rw [Nat.abs_cast]; exact_mod_cast small, by decide, by decide, by simp⟩

/-- The number of a byte. -/
def Number.ofByte (byte : UInt8) : Number :=
  .finite byte.toNat (isDouble_natCast (byte.toNat_lt.trans (by decide)))

theorem byteOf_natCast (value : ℕ) : byteOf value = UInt8.ofNat value := by
  rw [byteOf]
  apply UInt8.toNat_inj.mp
  rw [UInt8.toNat_ofNat', UInt8.toNat_ofNat']
  omega

@[simp] theorem Number.toUint8_ofByte (byte : UInt8) : (Number.ofByte byte).toUint8 = byte := by
  rw [ofByte, toUint8, Rat.num_natCast, Rat.den_natCast, Nat.cast_one, Int.tdiv_one, byteOf_natCast, UInt8.ofNat_toNat]

def u16LE (value : ℕ) : Bytes := Bytes.ofNatLE 2 value

/-- `setBigUint64`. -/
def u64LE (value : ℤ) : Bytes := Bytes.ofNatLE 8 (value % 2 ^ 64).toNat

/-- `setBigInt64`: two's complement, so the bytes `setBigUint64` writes. -/
def i64LE (value : ℤ) : Bytes := Bytes.ofNatLE 8 (value % 2 ^ 64).toNat

/-- The digits of base58, in order. -/
def base58Alphabet : List Char := "123456789ABCDEFGHJKLMNPQRSTUVWXYZabcdefghijkmnopqrstuvwxyz".toList

/-- An address as text: the big-endian number in base 58, with a `1` for each leading zero byte. -/
def base58 (bytes : Bytes) : String :=
  String.ofList (List.replicate (bytes.takeWhile (· = 0)).length '1' ++
    (Nat.digits 58 (Bytes.toNatLE bytes.reverse)).reverse.map fun digit => base58Alphabet.getD digit '1')

def concatBytes (parts : List Bytes) : Bytes := parts.flatten

/-- The 14 bytes of the auth payload that are known before the authenticator answers. -/
def buildAuthPayloadPrefix (slot : ℤ) (counter sysvarIxIndex : ℕ) : Bytes :=
  u64LE slot ++ Bytes.ofNatLE 4 counter ++ [byteOf sysvarIxIndex, 0x80]

/-- `slot(8) counter(4) sysvar_ix_index(1) reserved(1)` and, each behind its length, the authenticator data
and the client data JSON. -/
def buildAuthPayload (slot : ℤ) (counter sysvarIxIndex : ℕ) (authenticatorData clientDataJson : Bytes) :
    Except Error Bytes := do
  let authDataLen := authenticatorData.length
  let cdjLen := clientDataJson.length
  Except.ensure (authDataLen ≤ 0xffff) ⟨s!"authenticatorData length must fit in u16 (got {authDataLen})"⟩
  Except.ensure (cdjLen ≤ 0xffff) ⟨s!"clientDataJson length must fit in u16 (got {cdjLen})"⟩
  .ok (u64LE slot ++ Bytes.ofNatLE 4 counter ++ [byteOf sysvarIxIndex, 0x80] ++ u16LE authDataLen ++
    authenticatorData ++ u16LE cdjLen ++ clientDataJson)

/-- The bytes `buildSecp256r1Challenge` feeds to the hash, in order. -/
def secp256r1ChallengeInput (discriminator authPayload signedPayload : Bytes) (payer wallet : Pubkey) (counter : ℕ)
    (programId : Pubkey) : Bytes :=
  concatBytes [discriminator, authPayload, signedPayload, payer.bytes, wallet.bytes, Bytes.ofNatLE 4 counter,
    programId.bytes]

def buildSecp256r1Challenge (sha256 : Bytes → Bytes32) (discriminator authPayload signedPayload : Bytes)
    (payer wallet : Pubkey) (counter : ℕ) (programId : Pubkey) : Bytes32 :=
  sha256 (secp256r1ChallengeInput discriminator authPayload signedPayload payer wallet counter programId)

/-- The challenge, and what the second phase needs. -/
structure PreparedSecp256r1 where
  challenge : Bytes32
  slot : ℤ
  counter : ℕ
  sysvarIxIndex : ℕ
  publicKeyBytes : Bytes

/-- What the browser gives back. -/
structure WebAuthnResponse where
  signature : Bytes
  authenticatorData : Bytes
  clientDataJsonHash : Bytes
  clientDataJson : Bytes

def prepareSecp256r1 (sha256 : Bytes → Bytes32) (discriminator signedPayload : Bytes) (sysvarIxIndex : ℕ) (slot : ℤ)
    (counter : ℕ) (payer wallet programId : Pubkey) (publicKeyBytes : Bytes) : PreparedSecp256r1 where
  challenge := buildSecp256r1Challenge sha256 discriminator (buildAuthPayloadPrefix slot counter sysvarIxIndex)
    signedPayload payer wallet counter programId
  slot := slot
  counter := counter
  sysvarIxIndex := sysvarIxIndex
  publicKeyBytes := publicKeyBytes

/-- `Secp256r1SigVerify1111111111111111111111111`. -/
def secp256r1ProgramAddress : Pubkey :=
  .ofBytes [6, 146, 13, 236, 47, 234, 113, 181, 183, 35, 129, 77, 116, 45, 169, 3, 28, 131, 231, 95,
    219, 121, 93, 86, 142, 117, 71, 128, 32, 0, 0, 0]

/-- The precompile instruction: one signature, with the offsets of the signature, the key and the message in the
instruction's own data. -/
def buildSecp256r1PrecompileIx (publicKey message signature : Bytes) : Except Error Instruction := do
  let sigLen := signature.length
  let keyLen := publicKey.length
  let messageLen := message.length
  Except.ensure (sigLen = 64) ⟨s!"Secp256r1 signature must be 64 bytes (raw r||s), got {sigLen}"⟩
  Except.ensure (keyLen = 33) ⟨s!"Secp256r1 public key must be 33 bytes (compressed), got {keyLen}"⟩
  Except.ensure (messageLen ≤ 0xffff) ⟨s!"Precompile message length must fit in u16 (got {messageLen})"⟩
  .ok {
    programId := secp256r1ProgramAddress
    accounts := []
    data := [1, 0] ++ u16LE 16 ++ u16LE 0xffff ++ u16LE 80 ++ u16LE 0xffff ++ u16LE 114 ++ u16LE messageLen ++
      u16LE 0xffff ++ signature ++ publicKey ++ [0] ++ message }

/-- The auth payload and the precompile instruction to put in front. -/
def finalizeSecp256r1 (prepared : PreparedSecp256r1) (response : WebAuthnResponse) :
    Except Error (Bytes × Instruction) := do
  let authPayload ← buildAuthPayload prepared.slot prepared.counter prepared.sysvarIxIndex
    response.authenticatorData response.clientDataJson
  let precompileIx ← buildSecp256r1PrecompileIx prepared.publicKeyBytes
    (concatBytes [response.authenticatorData, response.clientDataJsonHash]) response.signature
  .ok (authPayload, precompileIx)

/-- The domain tag every message challenge starts with. -/
def signedMessageDomain : String := "LazorKit signed message v1"

/-- A message to sign: a string, signed as its UTF-8 bytes, or bytes. -/
inductive SignedMessageInput where
  | text (message : String)
  | bytes (message : Bytes)

def messageBytes : SignedMessageInput → Bytes
  | .text message => utf8 message
  | .bytes message => message

/-- `tag ‖ SHA-256(tag ‖ message)`. -/
def signedMessageChallenge (sha256 : Bytes → Bytes32) (message : SignedMessageInput) : Bytes :=
  let tag := utf8 signedMessageDomain
  tag ++ (sha256 (tag ++ messageBytes message)).bytes

end LazorKit.Kit
