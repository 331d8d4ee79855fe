import LazorKit.Machine.Precompile
import LazorKit.Proofs.Authentication
import LazorKit.Proofs.KitLayout

/-! # A passkey assertion on the wire

The program never verifies a signature. It reads what the precompile was told to verify, and with every
offset and index pinned that is what the precompile did verify: the stored key over the authenticator data and
the hash of the client data, in the instruction's own bytes. The library writes both byte strings this is
read from, the precompile instruction and the auth payload, and on every length they hold they read back.
-/

namespace LazorKit

open Solana

/-- Everything in the precompile instruction itself, at the fixed offsets. -/
def pinnedOffsets (messageSize : ℕ) : Secp256r1SignatureOffsets where
  signatureOffset := signatureDataOffset
  signatureInstructionIndex := Precompile.ownInstruction
  publicKeyOffset := pubkeyDataOffset
  publicKeyInstructionIndex := Precompile.ownInstruction
  messageDataOffset := messageDataOffset
  messageDataSize := messageSize
  messageInstructionIndex := Precompile.ownInstruction

section Pinned

variable {data : Bytes} {size : ℕ}

/-- The record of the first signature, as the precompile reads it. -/
theorem fromBytes_eq_pinned (long : 16 ≤ data.length) :
    Secp256r1SignatureOffsets.fromBytes (data.slice 2 14) = .ok (pinnedOffsets size) ↔
      Precompile.field data 2 0 = 16 ∧ Precompile.field data 2 1 = Precompile.ownInstruction ∧
      Precompile.field data 2 2 = 80 ∧ Precompile.field data 2 3 = Precompile.ownInstruction ∧
      Precompile.field data 2 4 = 114 ∧ Precompile.field data 2 5 = size ∧
      Precompile.field data 2 6 = Precompile.ownInstruction := by
  have width : (data.slice 2 14).length = 14 := Bytes.length_slice_of_le long
  have part (position : ℕ) (inside : 2 * position + 2 ≤ 14) :
      ((data.slice 2 14).slice (2 * position) 2).toNatLE = Precompile.field data 2 position := by
    rw [Bytes.slice_slice inside, Precompile.field]
  have fields : Secp256r1SignatureOffsets.fromBytes (data.slice 2 14) = .ok
      ⟨Precompile.field data 2 0, Precompile.field data 2 1, Precompile.field data 2 2, Precompile.field data 2 3,
        Precompile.field data 2 4, Precompile.field data 2 5, Precompile.field data 2 6⟩ := by
    rw [Secp256r1SignatureOffsets.fromBytes, Except.ensure_of width, ← part 0 (by decide), ← part 1 (by decide),
      ← part 2 (by decide), ← part 3 (by decide), ← part 4 (by decide), ← part 5 (by decide), ← part 6 (by decide)]
    rfl
  rw [fields, Except.ok.injEq, pinnedOffsets, Secp256r1SignatureOffsets.mk.injEq]
  rfl

/-- With the offsets pinned, the precompile looks at the fixed windows of its own data only. -/
theorem checkedAt_of_pinned {instructions : List Bytes} {signature : Precompile.CheckedSignature}
    (long : 16 ≤ data.length)
    (pinned : Secp256r1SignatureOffsets.fromBytes (data.slice 2 14) = .ok (pinnedOffsets size)) :
    Precompile.checkedAt instructions data 2 = some signature ↔
      114 + size ≤ data.length ∧ signature = ⟨data.slice 16 64, data.slice 80 33, data.slice 114 size⟩ := by
  obtain ⟨signatureAt, ownSignature, keyAt, ownKey, messageAt, messageSize, ownMessage⟩ :=
    (fromBytes_eq_pinned long).mp pinned
  simp only [Precompile.checkedAt, signatureAt, ownSignature, keyAt, ownKey, messageAt, messageSize, ownMessage,
    Option.bind_eq_bind, Option.bind_eq_some_iff, Precompile.window_eq_some, Option.some.injEq]
  constructor
  · rintro ⟨_, ⟨_, rfl⟩, _, ⟨_, rfl⟩, _, ⟨fits, rfl⟩, rfl⟩
    exact ⟨fits, rfl⟩
  · rintro ⟨fits, rfl⟩
    exact ⟨_, ⟨by omega, rfl⟩, _, ⟨by omega, rfl⟩, _, ⟨fits, rfl⟩, rfl⟩

end Pinned

/-- The verifier accepts exactly when the precompile was told to check the key over the message, and nothing else. -/
theorem verifySecp256r1InstructionData_eq_ok {data authData : Bytes} {key : BytesN 33} {clientDataHash : Bytes32} :
    verifySecp256r1InstructionData data key.bytes authData clientDataHash = .ok () ↔
      Secp256r1SignatureOffsets.fromBytes (data.slice 2 14) = .ok (pinnedOffsets (authData.length + 32)) ∧
        ∀ instructions, Precompile.checked instructions data =
          some [⟨data.slice signatureDataOffset 64, key.bytes, authData ++ clientDataHash.bytes⟩] := by
  have message : data.slice 114 (authData.length + 32) = authData ++ clientDataHash.bytes ↔
      data.slice 114 authData.length = authData ∧ data.slice (114 + authData.length) 32 = clientDataHash.bytes := by
    rw [← Bytes.slice_append_slice]
    constructor
    · intro same
      have lengths := congrArg List.length same
      rw [List.length_append, List.length_append, Bytes.length_slice, Bytes.length_slice, clientDataHash.length_bytes]
        at lengths
      exact List.append_inj same (by rw [Bytes.length_slice]; omega)
    · rintro ⟨first, second⟩
      rw [first, second]
  simp only [verifySecp256r1InstructionData, Except.bind_eq_ok, Except.ensure_eq_ok, exists_const]
  constructor
  · rintro ⟨long, one, _, ⟨at_, own, keyAt, ownKey, messageAt, size, ownMessage⟩, pinned, signature, publicKey, hash,
      first, second, third, width, fits, sameKey, front, back⟩
    dsimp only at signature publicKey hash first second third width
    subst signature publicKey hash first second third width
    refine ⟨pinned, fun instructions => Precompile.checked_eq_singleton.mpr ⟨one, ?_⟩⟩
    refine (checkedAt_of_pinned long pinned).mpr ⟨fits, ?_⟩
    rw [message.mpr ⟨front, back⟩, ← sameKey]
    rfl
  · rintro ⟨pinned, checks⟩
    have long : 16 ≤ data.length := by
      have width : (data.slice 2 14).length = 14 := by
        simp only [Secp256r1SignatureOffsets.fromBytes, Except.bind_eq_ok, Except.ensure_eq_ok, exists_const] at pinned
        exact pinned.1
      rw [Bytes.length_slice] at width
      omega
    obtain ⟨one, here⟩ := Precompile.checked_eq_singleton.mp (checks [])
    obtain ⟨fits, same⟩ := (checkedAt_of_pinned long pinned).mp here
    rw [Precompile.CheckedSignature.mk.injEq] at same
    obtain ⟨_, sameKey, sameMessage⟩ := same
    obtain ⟨front, back⟩ := message.mp sameMessage.symm
    have enough : messageDataOffset + 32 ≤ data.length := by
      rw [messageDataOffset]
      omega
    exact ⟨long, one, enough, pinnedOffsets (authData.length + 32), pinned, rfl, rfl, rfl, rfl, rfl, rfl, rfl, fits,
      sameKey.symm, front, back⟩

/-- What the authenticator reads out of an auth payload. -/
structure ReadsAs (authPayload : Bytes) (slot counter sysvarIxIndex : ℕ) (authenticatorData clientDataJson : Bytes) :
    Prop where
  long : 18 ≤ authPayload.length
  slot : (authPayload.slice 0 8).toNatLE = slot
  counter : (authPayload.slice 8 4).toNatLE = counter
  sysvarIxIndex : (authPayload.byte 12).toNat = sysvarIxIndex
  parsed : Secp256r1Authenticator.parsePayload authPayload = .ok (authenticatorData, clientDataJson)

/-- The authenticator's checks on the values of an auth payload; of its bytes only the hashed front is left. -/
def verifyValues (dep : Deployment) (fr : Frame) (accounts : List AccountInfo) (authData signedPayload : Bytes)
    (discriminator : UInt8) (front : Bytes) (slot counter sysvarIxIndex : ℕ)
    (authenticatorData clientDataJson : Bytes) :
    Except ProgramError Assertion := do
  Except.ensure (fr.stackHeight ≤ 1) ↑AuthError.permissionDenied
  Except.ensure (slot ≤ fr.slot.toNat) ↑AuthError.invalidSignatureAge
  Except.ensure (fr.slot.toNat - slot < maxSlotAge) ↑AuthError.invalidSignatureAge
  Except.ensure (AuthorityAccountHeader.size ≤ authData.length) ↑AuthError.invalidAuthorityPayload
  let header := AuthorityAccountHeader.read authData
  let expectedCounter ← nextCounter header.counter
  Except.ensure (counter = expectedCounter) ↑AuthError.signatureReused
  Except.ensure (113 + 32 ≤ authData.length) ↑AuthError.invalidAuthorityPayload
  let payer ← accountAt accounts 0
  Except.ensure (payer.isSigner = true) .missingRequiredSignature
  Secp256r1Authenticator.checkClientData clientDataJson (dep.sha256 (challengePreimage discriminator front signedPayload
    payer.key header.wallet expectedCounter dep.programId))
  let parser ← AuthDataParser.new authenticatorData
  Except.ensure (parser.isUserPresent = true) ↑AuthError.permissionDenied
  Except.ensure (parser.rpIdHash = authData.slice 113 32) ↑AuthError.invalidPubkey
  let secpData ← Secp256r1Authenticator.precompileData fr accounts sysvarIxIndex
  verifySecp256r1InstructionData secpData (authData.slice 80 33) authenticatorData (dep.sha256 clientDataJson)
  .ok {
    authPrefix := front
    signedPayload := signedPayload
    payer := payer.key
    wallet := header.wallet
    counter := expectedCounter
    authenticatorData := authenticatorData
    clientDataJson := clientDataJson
    signature := secpData.slice signatureDataOffset 64 }

/-- The authenticator sees a payload through what it reads out of it. -/
theorem ReadsAs.verify_eq {authPayload : Bytes} {slot counter sysvarIxIndex : ℕ}
    {authenticatorData clientDataJson : Bytes}
    (reads : ReadsAs authPayload slot counter sysvarIxIndex authenticatorData clientDataJson) (dep : Deployment)
    (fr : Frame) (accounts : List AccountInfo) (authData signedPayload : Bytes) (discriminator : UInt8) :
    Secp256r1Authenticator.verify dep fr accounts authData authPayload signedPayload discriminator =
      verifyValues dep fr accounts authData signedPayload discriminator (authPayload.slice 0 14) slot counter
        sysvarIxIndex authenticatorData clientDataJson := by
  obtain ⟨long, rfl, rfl, rfl, parsed⟩ := reads
  simp only [Secp256r1Authenticator.verify, parsed, Except.ensure_of long, Except.ok_bind]
  rfl

/-- Fourteen bytes, and the two parts behind their lengths. -/
def payloadBytes (front authenticatorData clientDataJson : Bytes) : Bytes :=
  front ++
    (Kit.u16LE authenticatorData.length ++ (authenticatorData ++ (Kit.u16LE clientDataJson.length ++ clientDataJson)))

/-- The two parts are read back, unless something follows. -/
theorem parsePayload_payloadBytes {front authenticatorData clientDataJson : Bytes} (width : front.length = 14)
    (short : authenticatorData.length ≤ 0xffff) (short' : clientDataJson.length ≤ 0xffff) (extra : Bytes) :
    Secp256r1Authenticator.parsePayload (payloadBytes front authenticatorData clientDataJson ++ extra) =
      if clientDataJson ≠ [] ∧ extra = [] then .ok (authenticatorData, clientDataJson)
      else .error ↑AuthError.invalidAuthorityPayload := by
  have shape : payloadBytes front authenticatorData clientDataJson ++ extra =
      front ++ (Kit.u16LE authenticatorData.length ++ (authenticatorData ++ (Kit.u16LE clientDataJson.length ++
        (clientDataJson ++ extra)))) := by
    simp only [payloadBytes, List.append_assoc]
  have total : (payloadBytes front authenticatorData clientDataJson ++ extra).length =
      18 + authenticatorData.length + clientDataJson.length + extra.length := by
    simp only [shape, List.length_append, width, Kit.length_u16LE]
    omega
  have first : (payloadBytes front authenticatorData clientDataJson ++ extra).slice 14 2 =
      Kit.u16LE authenticatorData.length := by
    rw [shape]
    exact Bytes.slice_middle width (Kit.length_u16LE _)
  have data : (payloadBytes front authenticatorData clientDataJson ++ extra).slice 16 authenticatorData.length =
      authenticatorData := by
    rw [shape, ← List.append_assoc front]
    exact Bytes.slice_middle (by rw [List.length_append, width, Kit.length_u16LE]) rfl
  have second : (payloadBytes front authenticatorData clientDataJson ++ extra).slice (16 + authenticatorData.length) 2 =
      Kit.u16LE clientDataJson.length := by
    rw [shape, ← List.append_assoc front, ← List.append_assoc (front ++ _)]
    exact Bytes.slice_middle (by simp only [List.length_append, width, Kit.length_u16LE]) (Kit.length_u16LE _)
  have json : (payloadBytes front authenticatorData clientDataJson ++ extra).slice (16 + authenticatorData.length + 2)
      clientDataJson.length = clientDataJson := by
    rw [shape, ← List.append_assoc front, ← List.append_assoc (front ++ _), ← List.append_assoc (front ++ _ ++ _)]
    exact Bytes.slice_middle (by simp only [List.length_append, width, Kit.length_u16LE]) rfl
  simp only [Secp256r1Authenticator.parsePayload, first, Kit.toNatLE_u16LE (Nat.lt_succ_of_le short), second,
    Kit.toNatLE_u16LE (Nat.lt_succ_of_le short'), total, data, json]
  rw [Except.ensure_of (by omega), Except.ok_bind]
  split
  · next whole =>
    rw [whole.2, List.length_nil, Except.ensure_of ⟨fun zero => whole.1 (List.length_eq_zero_iff.mp zero), by omega⟩]
    rfl
  · next other =>
    rw [Except.ensure, if_neg]
    · rfl
    · rintro ⟨some_, exact_⟩
      refine other ⟨fun empty => some_ (by rw [empty]; rfl), List.length_eq_zero_iff.mp (by omega)⟩

private theorem buildAuthPayload_eq (slot : ℤ) (counter sysvarIxIndex : ℕ) {authenticatorData clientDataJson : Bytes}
    (short : authenticatorData.length ≤ 0xffff) (short' : clientDataJson.length ≤ 0xffff) :
    Kit.buildAuthPayload slot counter sysvarIxIndex authenticatorData clientDataJson =
      .ok (payloadBytes (Kit.buildAuthPayloadPrefix slot counter sysvarIxIndex) authenticatorData clientDataJson) := by
  rw [Kit.buildAuthPayload, Except.ensure_of short, Except.ensure_of short', Except.ok_bind, Except.ok_bind,
    payloadBytes, Kit.buildAuthPayloadPrefix]
  simp only [List.append_assoc]

/-- What the library writes reads back as what it was given. -/
theorem readsAs_payloadBytes (slot : UInt64) (counter : UInt32) (sysvarIxIndex : UInt8)
    {authenticatorData clientDataJson : Bytes} (short : authenticatorData.length ≤ 0xffff)
    (short' : clientDataJson.length ≤ 0xffff) (nonempty : clientDataJson ≠ []) :
    ReadsAs (payloadBytes (Kit.buildAuthPayloadPrefix slot.toNat counter.toNat sysvarIxIndex.toNat) authenticatorData
      clientDataJson) slot.toNat counter.toNat sysvarIxIndex.toNat authenticatorData clientDataJson := by
  let front := Kit.buildAuthPayloadPrefix slot.toNat counter.toNat sysvarIxIndex.toNat
  have width : front.length = 14 := by simp [front, Kit.buildAuthPayloadPrefix]
  have slotBound := slot.toNat_lt
  have counterBound := counter.toNat_lt
  have indexBound := sysvarIxIndex.toNat_lt
  have inside {offset count : ℕ} (fits : offset + count ≤ 14) :
      (payloadBytes front authenticatorData clientDataJson).slice offset count = front.slice offset count :=
    Bytes.slice_append_left (by omega)
  have shape : front = Kit.u64LE slot.toNat ++ (Bytes.ofNatLE 4 counter.toNat ++
      [Kit.byteOf sysvarIxIndex.toNat, 0x80]) := by
    simp only [front, Kit.buildAuthPayloadPrefix, List.append_assoc]
  refine ⟨?_, ?_, ?_, ?_, ?_⟩
  · have positive := List.length_pos_iff.mpr nonempty
    simp only [payloadBytes, List.length_append, Kit.length_u16LE]
    change 18 ≤ front.length + _
    omega
  · change ((payloadBytes front authenticatorData clientDataJson).slice 0 8).toNatLE = _
    rw [inside (by omega), shape, Bytes.slice_front (Kit.length_u64LE _), Kit.u64LE,
      Bytes.toNatLE_ofNatLE_of_lt (by omega)]
    omega
  · change ((payloadBytes front authenticatorData clientDataJson).slice 8 4).toNatLE = _
    rw [inside (by omega), shape, Bytes.slice_middle (Kit.length_u64LE _) (Bytes.length_ofNatLE 4 _),
      Bytes.toNatLE_ofNatLE_of_lt (by omega)]
  · change ((payloadBytes front authenticatorData clientDataJson).byte 12).toNat = _
    rw [payloadBytes, Bytes.byte_append_left (by omega), shape, ← List.append_assoc, Bytes.byte_append (by simp),
      Kit.toNat_byteOf (by omega)]
  · have whole := parsePayload_payloadBytes width short short' []
    rwa [List.append_nil, if_pos ⟨nonempty, rfl⟩] at whole

/-- The offsets the library writes, in front of the signature, the key, a blank and the message. -/
def precompileBytes (signature key message : Bytes) : Bytes :=
  [1, 0, 16, 0, 255, 255, 80, 0, 255, 255, 114, 0] ++ (Kit.u16LE message.length ++ ([255, 255] ++
    (signature ++ (key ++ ([0] ++ message)))))

private theorem pinned_precompileBytes (signature key message : Bytes) (short : message.length ≤ 0xffff) :
    Secp256r1SignatureOffsets.fromBytes ((precompileBytes signature key message).slice 2 14) =
      .ok (pinnedOffsets message.length) := by
  have long : 16 ≤ (precompileBytes signature key message).length := by
    simp only [precompileBytes, List.length_append, List.length_cons, List.length_nil, Kit.length_u16LE]
    omega
  have front {position : ℕ} (inside : 2 + 2 * position + 2 ≤ 12) :
      Precompile.field (precompileBytes signature key message) 2
      position = Precompile.field [1, 0, 16, 0, 255, 255, 80, 0, 255, 255, 114, 0] 2 position := by
    rw [Precompile.field, precompileBytes, Bytes.slice_append_left (by exact inside), Precompile.field]
  refine (fromBytes_eq_pinned long).mpr ⟨?_, ?_, ?_, ?_, ?_, ?_, ?_⟩
  · exact front (by decide)
  · exact front (by decide)
  · exact front (by decide)
  · exact front (by decide)
  · exact front (by decide)
  · have size : (precompileBytes signature key message).slice (2 + 2 * 5) 2 = Kit.u16LE message.length :=
      Bytes.slice_middle (by decide) (Kit.length_u16LE _)
    rw [Precompile.field, size, Kit.toNatLE_u16LE (Nat.lt_succ_of_le short)]
  · have last : (precompileBytes signature key message).slice (2 + 2 * 6) 2 = [255, 255] := by
      rw [precompileBytes, ← List.append_assoc]
      exact Bytes.slice_middle (by simp) rfl
    rw [Precompile.field, last]
    rfl

private theorem slice_precompileBytes {signature key : Bytes} (message : Bytes) (width : signature.length = 64)
    (keyWidth : key.length = 33) :
    (precompileBytes signature key message).length = 114 + message.length ∧
      (precompileBytes signature key message).slice 16 64 = signature ∧
      (precompileBytes signature key message).slice 80 33 = key ∧
      (precompileBytes signature key message).slice 114 message.length = message := by
  have header : ([1, 0, 16, 0, 255, 255, 80, 0, 255, 255, 114, 0] ++ Kit.u16LE message.length ++ [255, 255]).length =
      16 := by
    simp
  have shape : precompileBytes signature key message =
      ([1, 0, 16, 0, 255, 255, 80, 0, 255, 255, 114, 0] ++ Kit.u16LE message.length ++ [255, 255]) ++
        (signature ++ (key ++ ([0] ++ message))) := by
    simp only [precompileBytes, List.append_assoc]
  rw [shape]
  generalize [1, 0, 16, 0, 255, 255, 80, 0, 255, 255, 114, 0] ++ Kit.u16LE message.length ++ [255, 255] =
    front at header
  refine ⟨?_, Bytes.slice_middle header width, ?_, ?_⟩
  · simp only [List.length_append, header, width, keyWidth, List.length_singleton]
    omega
  · rw [← List.append_assoc front]
    exact Bytes.slice_middle (by rw [List.length_append, header, width]) keyWidth
  · rw [← List.append_nil message, ← List.append_assoc front, ← List.append_assoc (front ++ _),
      ← List.append_assoc (front ++ _ ++ _)]
    rw [List.append_nil]
    exact (Bytes.slice_append_right (by simp [header, width, keyWidth])).trans (by simp [header, width, keyWidth])

private theorem buildSecp256r1PrecompileIx_eq {key message signature : Bytes} (width : signature.length = 64)
    (keyWidth : key.length = 33) (short : message.length ≤ 0xffff) :
    Kit.buildSecp256r1PrecompileIx key message signature =
      .ok ⟨secp256r1Program, [], precompileBytes signature key message⟩ := by
  rw [Kit.buildSecp256r1PrecompileIx, Except.ensure_of width, Except.ensure_of keyWidth, Except.ensure_of short,
    Except.ok_bind, Except.ok_bind, Except.ok_bind, precompileBytes]
  simp only [List.append_assoc]
  rfl

/-- The verifier accepts the instruction the library builds. -/
theorem verify_precompileBytes {authenticatorData signature : Bytes} (key : BytesN 33) (hash : Bytes32)
    (short : authenticatorData.length ≤ 65503) (width : signature.length = 64) :
    verifySecp256r1InstructionData (precompileBytes signature key.bytes (authenticatorData ++ hash.bytes)) key.bytes
      authenticatorData hash = .ok () := by
  have size : (authenticatorData ++ hash.bytes).length = authenticatorData.length + 32 := by
    rw [List.length_append, hash.length_bytes]
  have pinned : Secp256r1SignatureOffsets.fromBytes _ = .ok (pinnedOffsets _) :=
    pinned_precompileBytes signature key.bytes (authenticatorData ++ hash.bytes) (by omega)
  obtain ⟨total, _, sameKey, sameMessage⟩ := slice_precompileBytes (authenticatorData ++ hash.bytes) width
    key.length_bytes
  rw [size] at pinned sameMessage total
  refine verifySecp256r1InstructionData_eq_ok.mpr ⟨pinned, fun instructions => ?_⟩
  refine Precompile.checked_eq_singleton.mpr ⟨rfl, (checkedAt_of_pinned (by omega) pinned).mpr ⟨by omega, ?_⟩⟩
  rw [sameKey, sameMessage]
  rfl

/-- What the verifier's acceptance says about the precompile, and that what the library writes is read back and
accepted. -/
theorem passkey_wire :
    (∀ data (key : BytesN 33) authData (clientDataHash : Bytes32),
      verifySecp256r1InstructionData data key.bytes authData clientDataHash = .ok () ↔
        Secp256r1SignatureOffsets.fromBytes (data.slice 2 14) = .ok (pinnedOffsets (authData.length + 32)) ∧
          ∀ instructions, Precompile.checked instructions data =
            some [⟨data.slice signatureDataOffset 64, key.bytes, authData ++ clientDataHash.bytes⟩]) ∧
    (∀ (challenge : Bytes32) (slot : UInt64) (counter : UInt32) (sysvarIxIndex : UInt8) (key : BytesN 33)
    (hash : Bytes32)
      (authenticatorData clientDataJson signature : Bytes), authenticatorData.length ≤ 65503 → clientDataJson ≠ [] →
      clientDataJson.length ≤ 65535 → signature.length = 64 →
      ∃ authPayload ix,
        Kit.buildAuthPayload slot.toNat counter.toNat sysvarIxIndex.toNat authenticatorData clientDataJson =
          .ok authPayload ∧
        Kit.buildSecp256r1PrecompileIx key.bytes (Kit.concatBytes [authenticatorData, hash.bytes]) signature = .ok ix ∧
        Kit.finalizeSecp256r1 ⟨challenge, slot.toNat, counter.toNat, sysvarIxIndex.toNat, key.bytes⟩
          ⟨signature, authenticatorData, hash.bytes, clientDataJson⟩ = .ok (authPayload, ix) ∧
        ReadsAs authPayload slot.toNat counter.toNat sysvarIxIndex.toNat authenticatorData clientDataJson ∧
        (∀ dep fr accounts authData signedPayload discriminator,
          Secp256r1Authenticator.verify dep fr accounts authData authPayload signedPayload discriminator =
            verifyValues dep fr accounts authData signedPayload discriminator
              (Kit.buildAuthPayloadPrefix slot.toNat counter.toNat sysvarIxIndex.toNat) slot.toNat counter.toNat
              sysvarIxIndex.toNat authenticatorData clientDataJson) ∧
        ix.programId = secp256r1Program ∧ ix.data.slice signatureDataOffset 64 = signature ∧
        verifySecp256r1InstructionData ix.data key.bytes authenticatorData hash = .ok ()) ∧
    ∀ front authenticatorData clientDataJson extra, front.length = 14 → authenticatorData.length ≤ 65535 →
      clientDataJson.length ≤ 65535 → extra ≠ [] →
      ∀ dep fr accounts authData signedPayload discriminator assertion,
        Secp256r1Authenticator.verify dep fr accounts authData
          (payloadBytes front authenticatorData clientDataJson ++ extra)
          signedPayload discriminator ≠ .ok assertion := by
  refine ⟨fun data key authData hash => verifySecp256r1InstructionData_eq_ok, ?_, ?_⟩
  · intro challenge slot counter sysvarIxIndex key hash authenticatorData clientDataJson signature short
      nonempty short' width
    have message : Kit.concatBytes [authenticatorData, hash.bytes] = authenticatorData ++ hash.bytes := by
      simp [Kit.concatBytes]
    have size : (authenticatorData ++ hash.bytes).length = authenticatorData.length + 32 := by
      rw [List.length_append, hash.length_bytes]
    have payload := buildAuthPayload_eq slot.toNat counter.toNat sysvarIxIndex.toNat
      (show authenticatorData.length ≤ 0xffff by omega) short'
    have precompile := buildSecp256r1PrecompileIx_eq width key.length_bytes
      (show (authenticatorData ++ hash.bytes).length ≤ 0xffff by omega)
    have reads := readsAs_payloadBytes slot counter sysvarIxIndex (show authenticatorData.length ≤ 0xffff by omega)
      short' nonempty
    obtain ⟨_, sameSignature, _⟩ := slice_precompileBytes (authenticatorData ++ hash.bytes) width key.length_bytes
    rw [message]
    refine ⟨_, _, payload, precompile, ?_, reads, ?_, rfl, sameSignature, verify_precompileBytes key hash short width⟩
    · rw [Kit.finalizeSecp256r1]
      dsimp only
      rw [message, payload, precompile]
      rfl
    · intro dep fr accounts authData signedPayload discriminator
      rw [reads.verify_eq, payloadBytes, Bytes.slice_front (by simp [Kit.buildAuthPayloadPrefix])]
  · intro front authenticatorData clientDataJson extra width short short' more dep fr accounts authData signedPayload
      discriminator assertion accepted
    have parsed := (verify_eq_ok accepted).parsed
    rw [parsePayload_payloadBytes width short short', if_neg (fun whole => more whole.2)] at parsed
    cases parsed

/-- A short assertion. -/
theorem passkey_wire_sample :
    (∃ authPayload, Kit.buildAuthPayload 1010 2 4 (List.replicate 37 1) [123, 125] = .ok authPayload ∧
      ReadsAs authPayload 1010 2 4 (List.replicate 37 1) [123, 125]) ∧
    ∀ dep fr accounts authData signedPayload discriminator assertion,
      Secp256r1Authenticator.verify dep fr accounts authData
        (payloadBytes (List.replicate 14 0) (List.replicate 37 1) [123, 125] ++ [0]) signedPayload discriminator ≠
          .ok assertion := by
  constructor
  · obtain ⟨authPayload, _, built, _, _, reads, _⟩ := passkey_wire.2.1 (.fill 0) 1010 2 4 (.fill 2) (.fill 3)
      (List.replicate 37 1) [123, 125] (List.replicate 64 9) (by decide) (by decide) (by decide) (by decide)
    exact ⟨authPayload, built, reads⟩
  · exact passkey_wire.2.2 _ _ _ _ (by decide) (by decide) (by decide) (by decide)

end LazorKit
