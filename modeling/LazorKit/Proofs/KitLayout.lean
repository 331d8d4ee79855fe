import LazorKit.Model.Kit.Client
import LazorKit.Proofs.SignedArguments

/-! # What the kit writes is what the program reads

The builders' byte strings, taken apart by the program's parsers. Key material delimits itself, so it parses
back whatever follows it; the policy and the action buffer are read behind their lengths; the rest is the auth
payload. Each instruction's data is its discriminator, the signed data payload and the auth payload.
-/

namespace LazorKit.Kit

open Solana

@[simp] theorem length_u16LE (value : ℕ) : (u16LE value).length = 2 := Bytes.length_ofNatLE 2 value

@[simp] theorem length_u64LE (value : ℤ) : (u64LE value).length = 8 := Bytes.length_ofNatLE 8 _

@[simp] theorem length_i64LE (value : ℤ) : (i64LE value).length = 8 := Bytes.length_ofNatLE 8 _

theorem toNatLE_u16LE {value : ℕ} (bound : value < 2 ^ 16) : (u16LE value).toNatLE = value :=
  Bytes.toNatLE_ofNatLE_of_lt (by simpa using bound)

/-- A bigint comes back reduced to 64 bits. -/
theorem toNatLE_i64LE (value : ℤ) : ((i64LE value).toNatLE : ℤ) = value % 2 ^ 64 := by
  have nonneg : 0 ≤ value % 2 ^ 64 := Int.emod_nonneg _ (by decide)
  have bound : value % 2 ^ 64 < 2 ^ 64 := Int.emod_lt_of_pos _ (by decide)
  rw [i64LE, Bytes.toNatLE_ofNatLE_of_lt (by omega), Int.toNat_of_nonneg nonneg]

theorem toNat_byteOf {value : ℕ} (bound : value < 256) : (byteOf value).toNat = value := by
  have small : ((value : ℤ) % 256).toNat = value := by omega
  rw [byteOf, small, UInt8.toNat_ofNat']
  omega

/-- An rpId of the length a credential may have. -/
def CreateWalletOwner.NamesRp : CreateWalletOwner → Prop
  | .ed25519 _ => True
  | .secp256r1 _ _ rpId => 1 ≤ (utf8 rpId).length ∧ (utf8 rpId).length ≤ 253

/-- The type byte of an owner. -/
def CreateWalletOwner.typeByte : CreateWalletOwner → UInt8
  | .ed25519 _ => 0
  | .secp256r1 _ _ _ => 1

/-- The key the program parsed is the one the caller named. -/
def CreateWalletOwner.IsKey : CreateWalletOwner → AuthorityKey → Prop
  | .ed25519 publicKey, key => key.idSeed = publicKey.bytes ∧ key.fullAuthData = publicKey.bytes
  | .secp256r1 credentialIdHash compressedPubkey rpId, key =>
    key.idSeed = credentialIdHash ∧ key.fullAuthData.slice 0 32 = credentialIdHash ∧
      key.fullAuthData.slice 32 33 = compressedPubkey ∧
      key.fullAuthData.slice 66 (key.fullAuthData.byte 65).toNat = utf8 rpId

/-- The key material as an instruction carries it. -/
def OwnerFields.keyBytes (fields : OwnerFields) : Bytes :=
  concatBytes (fields.credentialOrPubkey :: passkeyParts fields.authType fields.secp256r1Pubkey fields.rpId)

/-- The fields of an owner parse back, by either of the program's readers and whatever follows. -/
structure OwnerFields.Reads (fields : OwnerFields) (owner : CreateWalletOwner) : Prop where
  typeByte : byteOf fields.authType = owner.typeByte
  nonzero : fields.credentialOrPubkey.isZero = false
  isKey : owner.IsKey ⟨fields.credentialOrPubkey, fields.keyBytes⟩
  parse : ∀ rest, parseAuthorityKey owner.typeByte (fields.keyBytes ++ rest) =
    .ok ⟨fields.credentialOrPubkey, fields.keyBytes⟩
  parseNew : ∀ rest, parseNewOwnerKey owner.typeByte (fields.keyBytes ++ rest) =
    .ok ⟨fields.credentialOrPubkey, fields.keyBytes⟩

private theorem OwnerFields.reads_ed25519 {publicKey : Pubkey} (nonzero : publicKey.bytes.isZero = false) :
    OwnerFields.Reads ⟨authTypeEd25519, publicKey.bytes, none, none⟩ (.ed25519 publicKey) := by
  have keyBytes : OwnerFields.keyBytes ⟨authTypeEd25519, publicKey.bytes, none, none⟩ = publicKey.bytes := by
    simp [OwnerFields.keyBytes, passkeyParts, concatBytes]
  have front (rest : Bytes) : Bytes.slice (publicKey.bytes ++ rest) 0 32 = publicKey.bytes :=
    Bytes.slice_front publicKey.length_bytes
  have long (rest : Bytes) : 32 ≤ (publicKey.bytes ++ rest).length := by
    rw [List.length_append, publicKey.length_bytes]
    omega
  constructor
  case typeByte => rfl
  case nonzero => exact nonzero
  case isKey => exact ⟨rfl, keyBytes⟩
  case parse =>
    intro rest
    rw [keyBytes]
    simp only [parseAuthorityKey, CreateWalletOwner.typeByte, Except.bind_eq_ok, Except.ensure_eq_ok, exists_const,
      front]
    exact ⟨long rest, nonzero, trivial⟩
  case parseNew =>
    intro rest
    rw [keyBytes]
    simp only [parseNewOwnerKey, CreateWalletOwner.typeByte, Except.bind_eq_ok, Except.ensure_eq_ok, exists_const,
      front]
    exact ⟨long rest, trivial⟩

private theorem OwnerFields.reads_secp256r1 {credentialIdHash compressedPubkey : Bytes} {rpId : String}
    (hashWidth : credentialIdHash.length = 32) (keyWidth : compressedPubkey.length = 33)
    (hashNonzero : credentialIdHash.isZero = false) (keyNonzero : compressedPubkey.isZero = false)
    (named : 1 ≤ (utf8 rpId).length ∧ (utf8 rpId).length ≤ 253) :
    OwnerFields.Reads ⟨authTypeSecp256r1, credentialIdHash, some compressedPubkey, some rpId⟩
      (.secp256r1 credentialIdHash compressedPubkey rpId) := by
  have nonempty : rpId ≠ "" := by
    rintro rfl
    exact absurd named.1 (by decide)
  have keyBytes : OwnerFields.keyBytes ⟨authTypeSecp256r1, credentialIdHash, some compressedPubkey, some rpId⟩ =
      credentialIdHash ++ (compressedPubkey ++ byteOf (utf8 rpId).length :: utf8 rpId) := by
    simp [OwnerFields.keyBytes, passkeyParts, concatBytes, nonempty]
  have lengthByte : (byteOf (utf8 rpId).length).toNat = (utf8 rpId).length := toNat_byteOf (by omega)
  -- every part of the material, read off the front of a longer string
  have hash (rest : Bytes) : Bytes.slice (credentialIdHash ++ (compressedPubkey ++
      byteOf (utf8 rpId).length :: utf8 rpId) ++ rest) 0 32 = credentialIdHash := by
    rw [List.append_assoc]
    exact Bytes.slice_front hashWidth
  have key (rest : Bytes) : Bytes.slice (credentialIdHash ++ (compressedPubkey ++
      byteOf (utf8 rpId).length :: utf8 rpId) ++ rest) 32 33 = compressedPubkey := by
    rw [List.append_assoc, List.append_assoc]
    exact Bytes.slice_middle hashWidth keyWidth
  have lengthAt (rest : Bytes) : Bytes.byte (credentialIdHash ++ (compressedPubkey ++
      byteOf (utf8 rpId).length :: utf8 rpId) ++ rest) 65 = byteOf (utf8 rpId).length := by
    rw [← List.append_assoc, List.append_assoc (credentialIdHash ++ compressedPubkey), List.cons_append]
    exact Bytes.byte_append (by simp [hashWidth, keyWidth])
  have name (rest : Bytes) : Bytes.slice (credentialIdHash ++ (compressedPubkey ++
      byteOf (utf8 rpId).length :: utf8 rpId) ++ rest) 66 (utf8 rpId).length = utf8 rpId := by
    have regroup : credentialIdHash ++ (compressedPubkey ++ byteOf (utf8 rpId).length :: utf8 rpId) ++ rest =
        (credentialIdHash ++ compressedPubkey ++ [byteOf (utf8 rpId).length]) ++ (utf8 rpId ++ rest) := by
      simp
    rw [regroup]
    exact Bytes.slice_middle (by simp [hashWidth, keyWidth]) rfl
  have width : (credentialIdHash ++ (compressedPubkey ++ byteOf (utf8 rpId).length :: utf8 rpId)).length =
      66 + (utf8 rpId).length := by
    simp [hashWidth, keyWidth]
    omega
  have whole (rest : Bytes) : Bytes.slice (credentialIdHash ++ (compressedPubkey ++
      byteOf (utf8 rpId).length :: utf8 rpId) ++ rest) 0 (66 + (utf8 rpId).length) =
        credentialIdHash ++ (compressedPubkey ++ byteOf (utf8 rpId).length :: utf8 rpId) :=
    Bytes.slice_front width
  have long (rest : Bytes) : 66 + (utf8 rpId).length ≤ (credentialIdHash ++ (compressedPubkey ++
      byteOf (utf8 rpId).length :: utf8 rpId) ++ rest).length := by
    rw [List.length_append, width]
    omega
  constructor
  case typeByte => rfl
  case nonzero => exact hashNonzero
  case isKey =>
    have hash := hash []
    have key := key []
    have lengthAt := lengthAt []
    have name := name []
    rw [List.append_nil] at hash key lengthAt name
    refine ⟨rfl, ?_, ?_, ?_⟩
    · rw [keyBytes, hash]
    · rw [keyBytes, key]
    · rw [keyBytes, lengthAt, lengthByte, name]
  case parse =>
    intro rest
    have long := long rest
    rw [keyBytes]
    simp only [parseAuthorityKey, CreateWalletOwner.typeByte, Except.bind_eq_ok, Except.ensure_eq_ok, exists_const,
      hash, key, lengthAt, lengthByte, whole]
    exact ⟨by omega, ⟨hashNonzero, keyNonzero⟩, by omega, long, trivial⟩
  case parseNew =>
    intro rest
    have long := long rest
    rw [keyBytes]
    simp only [parseNewOwnerKey, CreateWalletOwner.typeByte, Except.bind_eq_ok, Except.ensure_eq_ok, exists_const,
      hash, key, lengthAt, lengthByte, whole]
    exact ⟨by omega, keyNonzero, by omega, long, trivial⟩

theorem resolveOwnerFields_reads {owner : CreateWalletOwner} {fields : OwnerFields}
    (resolved : resolveOwnerFields owner = .ok fields) (named : owner.NamesRp) : fields.Reads owner := by
  cases owner with
  | ed25519 publicKey =>
    simp only [resolveOwnerFields, assertNonZeroBytes, Except.bind_eq_ok, Except.ensure_eq_ok, exists_const] at resolved
    obtain ⟨nonzero, result⟩ := resolved
    cases Except.ok.inj result
    exact OwnerFields.reads_ed25519 nonzero
  | secp256r1 credentialIdHash compressedPubkey rpId =>
    simp only [resolveOwnerFields, assertByteLength, assertNonZeroBytes, Except.bind_eq_ok, Except.ensure_eq_ok,
      exists_const] at resolved
    obtain ⟨hashWidth, keyWidth, hashNonzero, keyNonzero, result⟩ := resolved
    cases Except.ok.inj result
    exact OwnerFields.reads_secp256r1 hashWidth keyWidth hashNonzero keyNonzero named

theorem createAddAuthorityIx_data (params : AddAuthorityParams) :
    (createAddAuthorityIx params).data = 1 :: (buildDataPayloadForAdd params.newType params.newRole
      params.credentialOrPubkey params.secp256r1Pubkey params.rpId params.policy ++ params.authPayload.getD []) := by
  cases payload : params.authPayload <;>
    simp [createAddAuthorityIx, buildDataPayloadForAdd, concatBytes, discAddAuthority, payload]

theorem createTransferOwnershipIx_data (params : TransferOwnershipParams) :
    (createTransferOwnershipIx params).data = 3 :: (buildDataPayloadForTransfer params.newType params.credentialOrPubkey
      params.secp256r1Pubkey params.rpId ++ params.authPayload.getD []) := by
  cases payload : params.authPayload <;>
    simp [createTransferOwnershipIx, buildDataPayloadForTransfer, concatBytes, discTransferOwnership, payload]

/-- The session payload, written as one concatenation. -/
theorem buildDataPayloadForSession_eq {sessionKey : Bytes} (width : sessionKey.length = 32) (expiresAt : ℤ)
    (actionsBuffer : Option Bytes) :
    buildDataPayloadForSession sessionKey expiresAt actionsBuffer =
      sessionKey ++ i64LE expiresAt ++ u16LE (actionsBuffer.getD []).length ++ actionsBuffer.getD [] := by
  have lengthBytes (n : ℕ) : [byteOf (n % 256 : ℕ), byteOf (n / 256 % 256 : ℕ)] = u16LE n := by
    have low : byteOf (n % 256 : ℕ) = UInt8.ofNat (n % 256) := by
      rw [byteOf]
      congr 1
      omega
    have high : byteOf (n / 256 % 256 : ℕ) = UInt8.ofNat (n / 256 % 256) := by
      rw [byteOf]
      congr 1
      omega
    rw [low, high]
    rfl
  -- the buffer is filled from the front, each part behind the one before
  have filled (n : ℕ) : ((Bytes.splice (List.replicate (42 + n) 0) 0 sessionKey).splice 32 (i64LE expiresAt)).splice 40
      (u16LE n) = sessionKey ++ i64LE expiresAt ++ u16LE n ++ List.replicate n 0 := by
    have key : Bytes.splice (List.replicate (42 + n) 0) 0 sessionKey = sessionKey ++ List.replicate (10 + n) 0 := by
      have left : 42 + n - (0 + sessionKey.length) = 10 + n := by omega
      rw [Bytes.splice, List.take_zero, List.nil_append, List.drop_replicate, left]
    rw [key, Bytes.splice_blank width, length_i64LE,
      Bytes.splice_blank (by simp [width]), length_u16LE]
    have left : 10 + n - 8 - 2 = n := by omega
    rw [left]
  unfold buildDataPayloadForSession
  simp only [lengthBytes, filled]
  cases actionsBuffer with
  | none => simp
  | some actions =>
    dsimp only [Option.getD_some]
    split
    · rw [Bytes.splice_blank (by simp [width])]
      simp
    · have none : actions = [] := List.eq_nil_of_length_eq_zero (by omega)
      simp [none]

theorem createCreateSessionIx_data {params : CreateSessionParams} (width : params.sessionKey.length = 32) :
    (createCreateSessionIx params).data = 5 :: (buildDataPayloadForSession params.sessionKey params.expiresAt
      params.actionsBuffer ++ params.authPayload.getD []) := by
  rw [buildDataPayloadForSession_eq width]
  have buffer : (if 0 < (params.actionsBuffer.getD []).length then [params.actionsBuffer.getD []] else []).flatten =
      params.actionsBuffer.getD [] := by
    split
    · simp
    · have none : params.actionsBuffer.getD [] = [] := List.eq_nil_of_length_eq_zero (by omega)
      simp [none]
  cases payload : params.authPayload <;>
    simp [createCreateSessionIx, concatBytes, discCreateSession, payload, buffer]

section Parse

variable {fields : OwnerFields} {owner : CreateWalletOwner}

/-- A buffer the program takes: valid actions within the program's limit. -/
structure ValidBuffer (buffer : Bytes) : Prop where
  valid : validateActionsBuffer buffer = .ok ()
  bounded : buffer.length ≤ 2048

/-- AddAuthority's parser on a header, key material and a policy behind its length, whatever follows. -/
theorem parse_addAuthority (header : Bytes) (key : AuthorityKey) {policy : Bytes} (width : header.length = 8)
    (parses : ∀ rest, parseAuthorityKey (header.byte 0) (key.fullAuthData ++ rest) = .ok key)
    (buffer : ValidBuffer policy) (rest : Bytes) :
    AddAuthorityArgs.parse (header ++ (key.fullAuthData ++ (u16LE policy.length ++ (policy ++ rest)))) =
      .ok ⟨header.byte 0, header.byte 1, key, policy, 8 + key.fullAuthData.length + 2 + policy.length⟩ := by
  have bounded := buffer.bounded
  have long : (header ++ (key.fullAuthData ++ (u16LE policy.length ++ (policy ++ rest)))).length =
      8 + key.fullAuthData.length + 2 + policy.length + rest.length := by
    simp [width]
    omega
  have keyAt : List.drop 8 (header ++ (key.fullAuthData ++ (u16LE policy.length ++ (policy ++ rest)))) =
      key.fullAuthData ++ (u16LE policy.length ++ (policy ++ rest)) := List.drop_left' width
  have lengthAt : Bytes.slice (header ++ (key.fullAuthData ++ (u16LE policy.length ++ (policy ++ rest))))
      (8 + key.fullAuthData.length) 2 = u16LE policy.length := by
    rw [← List.append_assoc]
    exact Bytes.slice_middle (by simp [width]) (length_u16LE _)
  have policyAt : Bytes.slice (header ++ (key.fullAuthData ++ (u16LE policy.length ++ (policy ++ rest))))
      (8 + key.fullAuthData.length + 2) policy.length = policy := by
    rw [← List.append_assoc, ← List.append_assoc]
    exact Bytes.slice_middle (by simp [width]; omega) rfl
  have policyLen : (u16LE policy.length).toNatLE = policy.length := toNatLE_u16LE (by omega)
  have checked : (if policy.isEmpty then Except.ok () else validateActionsBuffer policy) = .ok () := by
    split
    · rfl
    · exact buffer.valid
  have parsedPolicy : parsePolicy (header ++ (key.fullAuthData ++ (u16LE policy.length ++ (policy ++ rest))))
      (8 + key.fullAuthData.length) = .ok ⟨policy, 8 + key.fullAuthData.length + 2 + policy.length⟩ := by
    simp only [parsePolicy, Except.bind_eq_ok, Except.ensure_eq_ok, exists_const]
    refine ⟨by omega, ?_⟩
    rw [if_pos (by omega), lengthAt, policyLen, policyAt]
    simp only [Except.bind_eq_ok, Except.ensure_eq_ok, exists_const]
    exact ⟨bounded, by omega, trivial⟩
  simp only [AddAuthorityArgs.parse, Except.bind_eq_ok, Except.ensure_eq_ok, exists_const]
  refine ⟨by omega, key, ?_, ⟨policy, _⟩, parsedPolicy, (), checked, ?_⟩
  · rw [keyAt, Bytes.byte_append_left (by omega), parses]
  · rw [Bytes.byte_append_left (by omega), Bytes.byte_append_left (by omega)]

/-- AddAuthority's arguments come back, and the auth payload begins where the data payload ends. -/
theorem parse_buildDataPayloadForAdd (reads : fields.Reads owner) (role : ℤ) {policy : Option Bytes}
    (buffer : ValidBuffer (policy.getD [])) (authPayload : Bytes) :
    AddAuthorityArgs.parse (buildDataPayloadForAdd fields.authType role fields.credentialOrPubkey fields.secp256r1Pubkey
        fields.rpId policy ++ authPayload) =
      .ok ⟨owner.typeByte, byteOf role, ⟨fields.credentialOrPubkey, fields.keyBytes⟩, policy.getD [],
        (buildDataPayloadForAdd fields.authType role fields.credentialOrPubkey fields.secp256r1Pubkey fields.rpId
          policy).length⟩ := by
  have layout : buildDataPayloadForAdd fields.authType role fields.credentialOrPubkey fields.secp256r1Pubkey fields.rpId
      policy = (owner.typeByte :: byteOf role :: List.replicate 6 0) ++
        (fields.keyBytes ++ (u16LE (policy.getD []).length ++ policy.getD [])) := by
    simp [buildDataPayloadForAdd, OwnerFields.keyBytes, concatBytes, reads.typeByte]
  have width : (buildDataPayloadForAdd fields.authType role fields.credentialOrPubkey fields.secp256r1Pubkey fields.rpId
      policy).length = 8 + fields.keyBytes.length + 2 + (policy.getD []).length := by
    rw [layout]
    simp
    omega
  have parsed := parse_addAuthority (owner.typeByte :: byteOf role :: List.replicate 6 0)
    ⟨fields.credentialOrPubkey, fields.keyBytes⟩ (by simp) reads.parse buffer authPayload
  rw [width, layout, List.append_assoc, List.append_assoc, List.append_assoc]
  exact parsed

theorem parse_buildDataPayloadForTransfer (reads : fields.Reads owner) (authPayload : Bytes) :
    TransferOwnershipArgs.parse (buildDataPayloadForTransfer fields.authType fields.credentialOrPubkey
        fields.secp256r1Pubkey fields.rpId ++ authPayload) =
      .ok ⟨owner.typeByte, ⟨fields.credentialOrPubkey, fields.keyBytes⟩⟩ := by
  have layout :
      buildDataPayloadForTransfer fields.authType fields.credentialOrPubkey fields.secp256r1Pubkey fields.rpId ++
      authPayload = owner.typeByte :: (fields.keyBytes ++ authPayload) := by
    simp [buildDataPayloadForTransfer, OwnerFields.keyBytes, concatBytes, reads.typeByte]
  rw [layout]
  simp only [TransferOwnershipArgs.parse, Except.bind_eq_ok, Except.ensure_eq_ok, exists_const]
  refine ⟨by simp, _, reads.parseNew authPayload, reads.nonzero, ?_, rfl⟩
  simp only [List.length_cons, List.length_append]
  omega

theorem parse_buildDataPayloadForSession (sessionKey : Pubkey) (expiresAt : ℤ) {actionsBuffer : Option Bytes}
    (buffer : ValidBuffer (actionsBuffer.getD [])) (authPayload : Bytes) :
    ParsedCreateSessionArgs.fromBytes (buildDataPayloadForSession sessionKey.bytes expiresAt actionsBuffer ++
        authPayload) =
      .ok ⟨sessionKey, (i64LE expiresAt).toNatLE, actionsBuffer.getD [],
        (buildDataPayloadForSession sessionKey.bytes expiresAt actionsBuffer).length⟩ := by
  rw [buildDataPayloadForSession_eq sessionKey.length_bytes]
  generalize actionsBuffer.getD [] = actions at buffer
  have bounded := buffer.bounded
  have keyWidth := sessionKey.length_bytes
  have width : (sessionKey.bytes ++ i64LE expiresAt ++ u16LE actions.length ++ actions).length =
      42 + actions.length := by
    simp [keyWidth]
    omega
  have keyAt : readKey (sessionKey.bytes ++ i64LE expiresAt ++ u16LE actions.length ++ actions ++ authPayload) 0 =
      sessionKey := by
    rw [readKey, List.append_assoc, List.append_assoc, List.append_assoc, Bytes.slice_front keyWidth,
      BytesN.ofBytes_bytes]
  have expiryAt : Bytes.slice (sessionKey.bytes ++ i64LE expiresAt ++ u16LE actions.length ++ actions ++ authPayload)
      32 8 = i64LE expiresAt := by
    rw [List.append_assoc, List.append_assoc, List.append_assoc]
    exact Bytes.slice_middle keyWidth (length_i64LE _)
  have lengthAt : Bytes.slice (sessionKey.bytes ++ i64LE expiresAt ++ u16LE actions.length ++ actions ++ authPayload)
      40 2 = u16LE actions.length := by
    rw [List.append_assoc, List.append_assoc]
    exact Bytes.slice_middle (by simp [keyWidth]) (length_u16LE _)
  have actionsAt : Bytes.slice (sessionKey.bytes ++ i64LE expiresAt ++ u16LE actions.length ++ actions ++ authPayload)
      42 actions.length = actions := by
    rw [List.append_assoc]
    exact Bytes.slice_middle (by simp [keyWidth]) rfl
  have actionsLen : (u16LE actions.length).toNatLE = actions.length := toNatLE_u16LE (by omega)
  have long : (sessionKey.bytes ++ i64LE expiresAt ++ u16LE actions.length ++ actions ++ authPayload).length =
      42 + actions.length + authPayload.length := by
    rw [List.length_append, width]
  simp only [ParsedCreateSessionArgs.fromBytes, Except.bind_eq_ok, Except.ensure_eq_ok, exists_const, keyAt, expiryAt]
  refine ⟨by omega, ?_⟩
  rw [if_pos (by omega), lengthAt, actionsLen, actionsAt, width]
  simp only [Except.bind_eq_ok, Except.ensure_eq_ok, exists_const]
  refine ⟨bounded, ?_⟩
  split
  · simp only [Except.bind_eq_ok, Except.ensure_eq_ok, exists_const]
    exact ⟨by omega, (), buffer.valid, trivial⟩
  · have none : actions = [] := List.eq_nil_of_length_eq_zero (by omega)
    rw [none]
    rfl

end Parse

end LazorKit.Kit
