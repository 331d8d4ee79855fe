import LazorKit.Model.Kit.Secp256r1
import LazorKit.Proofs.Acceptance
import LazorKit.Proofs.ConcreteRun
import LazorKit.Soundness.ClientFields
import LazorKit.ToMathlib.BitGroups

/-! # The challenge as text

The encoder shifts letters out of three bytes at a time, with shorter last chunks. Whatever the length, it
writes the bit string of its input in groups of six, zeros behind the end, so that the text determines the
bytes. A text that passes for a 32-byte hash is therefore the text of that hash, and 43 letters long. What the
library has a passkey sign for a message is 58 bytes, whose text is longer.
-/

namespace LazorKit

open Solana

/-- The letter of six bits. -/
def base64urlChar (value : ℕ) : UInt8 := base64urlAlphabet.getD value 0

/-- The six bits of a letter. -/
def base64urlValue (letter : UInt8) : Option ℕ := base64urlAlphabet.idxOf? letter

private theorem base64urlValue_char : ∀ value < 2 ^ 6, base64urlValue (base64urlChar value) = some value := by
  decide +kernel

private theorem base64urlChar_mem {value : ℕ} (low : value < 2 ^ 6) : base64urlChar value ∈ base64urlAlphabet := by
  have inside : value < base64urlAlphabet.length := low
  rw [base64urlChar, List.getD_eq_getElem?_getD, List.getElem?_eq_getElem inside, Option.getD_some]
  exact List.getElem_mem inside

section Chunk

open BitGroups

/-- A letter of the encoder is the group at its place in the 24 bits. -/
theorem base64urlLetter_eq {group i low : ℕ} (place : 6 * i + (6 + low) = 24) {bits : List Bool} {blank : ℕ}
    (padded : bits ++ List.replicate blank false = bitsOf 24 group) :
    base64urlLetter group low = base64urlChar (ofBits (BitGroups.group 6 bits i)) := by
  have front : (bitsOf (6 * i) (group / 2 ^ (6 + low))).length = 6 * i := length_bitsOf ..
  have middle : (bitsOf 6 (group / 2 ^ low)).length = 6 * (0 + 1) := length_bitsOf ..
  have value : ofBits (BitGroups.group 6 bits i) = group / 2 ^ low % 64 := by
    rw [← group_append_false blank, padded, ← place, bitsOf_append, bitsOf_append]
    have shift {back : List Bool} : BitGroups.group 6 (bitsOf (6 * i) (group / 2 ^ (6 + low)) ++ back) i =
        BitGroups.group 6 back 0 := group_append_right (i := 0) front
    rw [shift, group_append_left (by rw [middle]), group_self (length_bitsOf ..), ofBits_bitsOf]
    rfl
  rw [value, base64urlLetter, base64urlChar, Nat.shiftRight_eq_div_pow, show (0x3f : ℕ) = 2 ^ 6 - 1 from rfl,
    Nat.and_two_pow_sub_one_eq_mod]

/-- A byte behind others, as bits. -/
theorem bitsOf_byte (width high : ℕ) (b : UInt8) :
    bitsOf (width + 8) (high * 256 + b.toNat) = bitsOf width high ++ bitsOf 8 b.toNat := by
  have bound := b.toNat_lt
  rw [bitsOf_append, ← bitsOf_mod (Nat.le_refl 8) (n := high * 256 + b.toNat)]
  rw [show (high * 256 + b.toNat) / 2 ^ 8 = high by omega, show (high * 256 + b.toNat) % 2 ^ 8 = b.toNat by omega]

private theorem bitsOf_blank (width high blank : ℕ) :
    bitsOf (width + blank) (high * 2 ^ blank) = bitsOf width high ++ List.replicate blank false := by
  rw [bitsOf_append, Nat.mul_div_cancel _ (Nat.two_pow_pos blank), ← bitsOf_mod (Nat.le_refl blank), Nat.mul_mod_left,
    bitsOf_zero]

private theorem byteBits_one (a : UInt8) :
    byteBits [a] ++ List.replicate 16 false = bitsOf 24 (a.toNat <<< 16) := by
  rw [Nat.shiftLeft_eq, bitsOf_blank 8 a.toNat 16, byteBits, List.flatMap_singleton]

private theorem byteBits_two (a b : UInt8) :
    byteBits [a, b] ++ List.replicate 8 false = bitsOf 24 (a.toNat <<< 16 ||| b.toNat <<< 8) := by
  have whole : a.toNat <<< 16 ||| b.toNat <<< 8 = (a.toNat * 256 + b.toNat) * 2 ^ 8 := by
    rw [group_two]
    omega
  rw [whole, bitsOf_blank 16 _ 8, bitsOf_byte 8, byteBits, List.flatMap_cons, List.flatMap_singleton]

private theorem byteBits_three (a b c : UInt8) :
    byteBits [a, b, c] ++ List.replicate 0 false = bitsOf 24 (a.toNat <<< 16 ||| b.toNat <<< 8 ||| c.toNat) := by
  have whole : a.toNat <<< 16 ||| b.toNat <<< 8 ||| c.toNat = (a.toNat * 256 + b.toNat) * 256 + c.toNat := by
    rw [group_three]
    omega
  rw [whole, bitsOf_byte 16, bitsOf_byte 8, byteBits, List.flatMap_cons, List.flatMap_cons, List.flatMap_singleton,
    List.replicate_zero, List.append_nil, List.append_assoc]

end Chunk

/-- The encoder writes the groups of six bits. -/
theorem base64urlEncodeNoPad_eq (data : Bytes) :
    base64urlEncodeNoPad data = BitGroups.encode 6 base64urlChar data := by
  induction data using base64urlEncodeNoPad.induct with
  | case1 => rfl
  | case2 a =>
    have letter {i low : ℕ} (place : 6 * i + (6 + low) = 24) := base64urlLetter_eq place (byteBits_one a)
    have count : BitGroups.groupCount 6 [a].length = 2 := by simp [BitGroups.groupCount]
    rw [base64urlEncodeNoPad, letter (i := 0) rfl, letter (i := 1) rfl, BitGroups.encode, count]
    rfl
  | case3 a b =>
    have letter {i low : ℕ} (place : 6 * i + (6 + low) = 24) := base64urlLetter_eq place (byteBits_two a b)
    have count : BitGroups.groupCount 6 [a, b].length = 3 := by simp [BitGroups.groupCount]
    rw [base64urlEncodeNoPad, letter (i := 0) rfl, letter (i := 1) rfl, letter (i := 2) rfl, BitGroups.encode, count]
    rfl
  | case4 a b c rest ih =>
    have letter {i low : ℕ} (place : 6 * i + (6 + low) = 24) := base64urlLetter_eq place (byteBits_three a b c)
    have whole : (BitGroups.byteBits [a, b, c]).length = 6 * 4 := BitGroups.length_byteBits _
    have count : BitGroups.groupCount 6 (a :: b :: c :: rest).length = 4 + BitGroups.groupCount 6 rest.length := by
      simp only [BitGroups.groupCount, List.length_cons]
      omega
    have split : BitGroups.byteBits (a :: b :: c :: rest) = BitGroups.byteBits [a, b, c] ++ BitGroups.byteBits rest :=
      BitGroups.byteBits_append [a, b, c] rest
    rw [base64urlEncodeNoPad, letter (i := 0) rfl, letter (i := 1) rfl, letter (i := 2) rfl, letter (i := 3) rfl, ih,
      BitGroups.encode, BitGroups.encode, count, split, BitGroups.groups_append whole, List.map_append]
    rfl

private theorem length_base64urlEncodeNoPad (data : Bytes) :
    (base64urlEncodeNoPad data).length = (4 * data.length + 2) / 3 := by
  rw [base64urlEncodeNoPad_eq, BitGroups.length_encode, BitGroups.groupCount]
  omega

private theorem decode_base64urlEncodeNoPad (data : Bytes) :
    BitGroups.decode 6 base64urlValue (base64urlEncodeNoPad data) = some data := by
  rw [base64urlEncodeNoPad_eq]
  exact BitGroups.decode_encode (by decide) (by decide) base64urlValue_char data

private theorem checkClientData_eq_ok {json : Bytes} {hash : Bytes32} :
    Secp256r1Authenticator.checkClientData json hash = .ok () ↔
      extractTopLevelStringField json typeField = .ok webauthnGet ∧
        extractTopLevelStringField json challengeField = .ok (base64urlEncodeNoPad hash.bytes) := by
  simp only [Secp256r1Authenticator.checkClientData, Except.bind_eq_ok, Except.ensure_eq_ok, exists_const, ctEq_eq_true]
  constructor
  · rintro ⟨_, type, rfl, _, challenge, rfl⟩
    exact ⟨type, challenge⟩
  · rintro ⟨type, challenge⟩
    exact ⟨_, type, rfl, _, challenge, rfl⟩

/-- A client data text whose challenge is these bytes: an object that has the member, and has it as their text
wherever it has it. -/
structure AssertionOver (json challenge : Bytes) (members : List JsonText.Member) : Prop where
  object : JsonText.ObjectText json members
  named : ∃ member ∈ members, member.key = challengeField
  text : ∀ member ∈ members, member.key = challengeField →
    member.value = JsonText.quoted (base64urlEncodeNoPad challenge)

/-- Only the text of the challenge can be read out of it. -/
theorem AssertionOver.extract_eq {json challenge text : Bytes} {members : List JsonText.Member}
    (signs : AssertionOver json challenge members) (read : extractTopLevelStringField json challengeField = .ok text) :
    text = base64urlEncodeNoPad challenge := by
  rw [extractTopLevelStringField_eq signs.object] at read
  obtain ⟨earlier, member, found⟩ := (lookupField_eq_ok signs.object.each).mp read
  obtain ⟨later, rfl⟩ := found.within
  have value := signs.text member (by simp) found.named
  rw [found.string, JsonText.quoted, JsonText.quoted] at value
  exact List.append_cancel_right (List.cons.inj value).2

private theorem length_signedMessageChallenge (sha256 : Bytes → Bytes32) (message : Kit.SignedMessageInput) :
    (Kit.signedMessageChallenge sha256 message).length = 58 := by
  have tag : (Kit.utf8 Kit.signedMessageDomain).length = 26 := by decide +kernel
  rw [Kit.signedMessageChallenge, List.length_append, tag, BytesN.length_bytes]

/-- What the comparison accepts, and what no comparison accepts. -/
theorem challenge_text :
    (∀ data, base64urlEncodeNoPad data = BitGroups.encode 6 base64urlChar data ∧
      (base64urlEncodeNoPad data).length = (4 * data.length + 2) / 3 ∧
      (∀ letter ∈ base64urlEncodeNoPad data, letter ∈ base64urlAlphabet) ∧
      BitGroups.decode 6 base64urlValue (base64urlEncodeNoPad data) = some data) ∧
    Function.Injective base64urlEncodeNoPad ∧
    (∀ text (hash : Bytes32), ctEq text (base64urlEncodeNoPad hash.bytes) = true ↔
      text = base64urlEncodeNoPad hash.bytes) ∧
    (∀ json (hash : Bytes32), Secp256r1Authenticator.checkClientData json hash = .ok () ↔
      extractTopLevelStringField json typeField = .ok webauthnGet ∧
        extractTopLevelStringField json challengeField = .ok (base64urlEncodeNoPad hash.bytes)) ∧
    ∀ dep start events i key discriminator assertion, AssertedAt dep start events i key discriminator assertion →
      ∀ sha256 message,
        extractTopLevelStringField assertion.clientDataJson challengeField ≠
          .ok (base64urlEncodeNoPad (Kit.signedMessageChallenge sha256 message)) ∧
        ∀ members, ¬AssertionOver assertion.clientDataJson (Kit.signedMessageChallenge sha256 message) members := by
  have injective : Function.Injective base64urlEncodeNoPad := by
    intro first second same
    have back := decode_base64urlEncodeNoPad first
    rw [same, decode_base64urlEncodeNoPad] at back
    exact (Option.some.inj back).symm
  refine ⟨fun data => ⟨base64urlEncodeNoPad_eq data, length_base64urlEncodeNoPad data, ?_,
    decode_base64urlEncodeNoPad data⟩,
    injective, fun text hash => ctEq_eq_true, fun json hash => checkClientData_eq_ok, ?_⟩
  · intro letter member
    rw [base64urlEncodeNoPad_eq] at member
    obtain ⟨value, low, rfl⟩ := BitGroups.mem_encode member
    exact base64urlChar_mem low
  · rintro dep start events i key discriminator assertion ⟨call, m, success, member⟩ sha256 message
    obtain ⟨_, _, _, _, _, _, _, verified⟩ := Call.execute_verified success.2 member
    obtain ⟨_, read⟩ := checkClientData_eq_ok.mp verified.clientData
    -- A hash has 43 letters and a message challenge 78.
    have apart (hash : Bytes32) :
        base64urlEncodeNoPad hash.bytes ≠ base64urlEncodeNoPad (Kit.signedMessageChallenge sha256 message) := by
      intro same
      have lengths := congrArg List.length (injective same)
      rw [hash.length_bytes, length_signedMessageChallenge] at lengths
      cases lengths
    refine ⟨?_, fun members signs => apart _ (signs.extract_eq read)⟩
    intro other
    rw [read, Except.ok.injEq] at other
    exact apart _ other

/-- An execution the sample run accepts is no signed message. -/
theorem challenge_text_sample :
    AssertedAt Sample.deployment Ledger.empty Sample.events 5 Sample.authorityA 4 Sample.executeAssertion ∧
      extractTopLevelStringField Sample.executeAssertion.clientDataJson challengeField ≠
        .ok (base64urlEncodeNoPad (Kit.signedMessageChallenge Sample.deployment.sha256 (.text "hello"))) := by
  have accepted : AssertedAt Sample.deployment Ledger.empty Sample.events 5 Sample.authorityA 4
      Sample.executeAssertion :=
    ⟨Sample.executeA, _, succeedsAt_resultAt rfl (by decide +kernel), by decide +kernel⟩
  exact ⟨accepted, (challenge_text.2.2.2.2 _ _ _ _ _ _ _ accepted _ _).1⟩

end LazorKit
