import LazorKit.Proofs.Challenge
import LazorKit.Proofs.CompactStream

/-! # What each instruction puts under a signature

An authenticated instruction parses its arguments from its data and its account list and hands one
byte string to the authenticator. `signedArguments` pairs the two for all eight of them; the byte
string determines the arguments, although each grammar is different and none is delimited.
-/

namespace LazorKit

open Solana

/-- The arguments an authenticated instruction acts on. -/
inductive SignedArguments where
  | addAuthority (args : AddAuthorityArgs)
  | removeAuthority (target refund : Pubkey)
  | transferOwnership (args : TransferOwnershipArgs) (refund : Pubkey)
  | execute (compactBytes : Bytes) (instructions : List CompactInstruction) (accountsHash : Bytes32)
  | createSession (args : ParsedCreateSessionArgs)
  | authorize (instructionsHash accountsHash : Bytes32) (expiryOffset : ℕ)
  | revokeSession (session refund : Pubkey)
  | migrateWallet (destination wallet refund : Pubkey) (sources : List Pubkey)

/-- The arguments an instruction parses, and the payload it has signed. -/
def signedArguments (rt : Runtime) (discriminator : UInt8) (accounts : List AccountInfo) (data : Bytes) :
    Except ProgramError (SignedArguments × Bytes) :=
  match discriminator with
  | 1 => do
    let args ← AddAuthorityArgs.parse data
    let payer ← accountAt accounts 0
    .ok (.addAuthority args, data.take args.dataPayloadLen ++ payer.key.bytes)
  | 2 => do
    let target ← accountAt accounts 3
    let refund ← accountAt accounts 4
    .ok (.removeAuthority target.key refund.key, target.key.bytes ++ refund.key.bytes)
  | 3 => do
    let args ← TransferOwnershipArgs.parse data
    let payer ← accountAt accounts 0
    let refund ← accountAt accounts 4
    .ok (.transferOwnership args refund.key,
      data.take args.dataPayloadLen ++ payer.key.bytes ++ refund.key.bytes)
  | 4 => do
    let parsed ← parseCompactInstructionsRefWithLen data
    let hash ← computeAccountsHash rt accounts parsed.1
    .ok (.execute (data.take parsed.2) parsed.1 hash, data.take parsed.2 ++ hash.bytes)
  | 5 => do
    let args ← ParsedCreateSessionArgs.fromBytes data
    let payer ← accountAt accounts 0
    .ok (.createSession args, data.take args.argsEndOffset ++ payer.key.bytes)
  | 6 => do
    Except.ensure (66 ≤ data.length) .invalidInstructionData
    .ok (.authorize (readKey data 0) (readKey data 32) (data.slice 64 2).toNatLE,
      (readKey data 0).bytes ++ (readKey data 32).bytes ++ Bytes.ofNatLE 2 (data.slice 64 2).toNatLE)
  | 9 => do
    let session ← accountAt accounts 3
    let refund ← accountAt accounts 4
    .ok (.revokeSession session.key refund.key, session.key.bytes ++ refund.key.bytes)
  | 17 => do
    let destination ← accountAt accounts 4
    let wallet ← accountAt accounts 1
    let refund ← accountAt accounts 5
    let sources ← migrationSources accounts (data.byte 0).toNat
    .ok (.migrateWallet destination.key wallet.key refund.key (sources.map (·.key)),
      migrationPayload destination.key wallet.key refund.key (data.byte 0) sources)
  | _ => .error .invalidInstructionData

/-- Only these instructions sign anything. -/
theorem signedArguments_discriminator {rt : Runtime} {discriminator : UInt8} {accounts : List AccountInfo}
    {data : Bytes} {result : SignedArguments × Bytes}
    (success : signedArguments rt discriminator accounts data = .ok result) :
    (discriminator = 1 ∨ discriminator = 2 ∨ discriminator = 3 ∨ discriminator = 5 ∨ discriminator = 6 ∨
      discriminator = 9) ∨ discriminator = 4 ∨ discriminator = 17 := by
  unfold signedArguments at success
  split at success
  case h_9 => cases success
  all_goals decide

section Prefixes

variable {data data' : Bytes}

/-- Equal key types read equal keys off strings that agree over either key. -/
theorem parseAuthorityKey_agree {kind : UInt8} {count : ℕ} {key key' : AuthorityKey}
    (agree : Bytes.AgreeUpTo count data data') (parsed : parseAuthorityKey kind data = .ok key)
    (parsed' : parseAuthorityKey kind data' = .ok key') (fits : key.fullAuthData.length ≤ count) :
    key = key' := by
  unfold parseAuthorityKey at parsed parsed'
  split at parsed
  · simp only [Except.bind_eq_ok, Except.ensure_eq_ok, exists_const] at parsed parsed'
    obtain ⟨long, _, result⟩ := parsed
    obtain ⟨_, _, result'⟩ := parsed'
    cases Except.ok.inj result
    cases Except.ok.inj result'
    rw [Bytes.length_slice_of_le (by omega)] at fits
    rw [agree.slice _ _ (by omega)]
  · simp only [Except.bind_eq_ok, Except.ensure_eq_ok, exists_const] at parsed parsed'
    obtain ⟨_, _, _, long, result⟩ := parsed
    obtain ⟨_, _, _, _, result'⟩ := parsed'
    cases Except.ok.inj result
    cases Except.ok.inj result'
    rw [Bytes.length_slice_of_le (by omega)] at fits
    rw [agree.slice 0 32 (by omega), agree.byte (i := 65) (by omega),
      agree.slice 0 _ (by rw [← agree.byte (i := 65) (by omega)]; omega)]
  · cases parsed

private theorem parseNewOwnerKey_agree {kind : UInt8} {count : ℕ} {key key' : AuthorityKey}
    (agree : Bytes.AgreeUpTo count data data') (parsed : parseNewOwnerKey kind data = .ok key)
    (parsed' : parseNewOwnerKey kind data' = .ok key') (fits : key.fullAuthData.length ≤ count) :
    key = key' := by
  unfold parseNewOwnerKey at parsed parsed'
  split at parsed
  · simp only [Except.bind_eq_ok, Except.ensure_eq_ok, exists_const] at parsed parsed'
    obtain ⟨long, result⟩ := parsed
    obtain ⟨_, result'⟩ := parsed'
    cases Except.ok.inj result
    cases Except.ok.inj result'
    rw [Bytes.length_slice_of_le (by omega)] at fits
    rw [agree.slice _ _ (by omega)]
  · simp only [Except.bind_eq_ok, Except.ensure_eq_ok, exists_const] at parsed parsed'
    obtain ⟨_, _, _, long, result⟩ := parsed
    obtain ⟨_, _, _, _, result'⟩ := parsed'
    cases Except.ok.inj result
    cases Except.ok.inj result'
    rw [Bytes.length_slice_of_le (by omega)] at fits
    rw [agree.slice 0 32 (by omega), agree.byte (i := 65) (by omega),
      agree.slice 0 _ (by rw [← agree.byte (i := 65) (by omega)]; omega)]
  · cases parsed

/-- Where the signed part of AddAuthority's data ends: behind the key, or behind a policy whose
length the end then gives. -/
theorem AddAuthorityArgs.parse_layout {args : AddAuthorityArgs} (parsed : AddAuthorityArgs.parse data = .ok args) :
    args.authorityType = data.byte 0 ∧ args.newRole = data.byte 1 ∧
      args.dataPayloadLen ≤ data.length ∧
      ((args.policy = [] ∧ args.dataPayloadLen = 8 + args.key.fullAuthData.length) ∨
        (8 + args.key.fullAuthData.length + 2 ≤ args.dataPayloadLen ∧
          args.policy = data.slice (8 + args.key.fullAuthData.length + 2)
            (args.dataPayloadLen - (8 + args.key.fullAuthData.length + 2)))) := by
  simp only [AddAuthorityArgs.parse, Except.bind_eq_ok, Except.ensure_eq_ok, exists_const] at parsed
  obtain ⟨_, key, parsedKey, policy, parsedPolicy, _, _, result⟩ := parsed
  cases Except.ok.inj result
  simp only [parsePolicy, Except.bind_eq_ok, Except.ensure_eq_ok, exists_const] at parsedPolicy
  obtain ⟨long, parsedPolicy⟩ := parsedPolicy
  split at parsedPolicy
  · simp only [Except.bind_eq_ok, Except.ensure_eq_ok, exists_const] at parsedPolicy
    obtain ⟨_, fits, result⟩ := parsedPolicy
    cases Except.ok.inj result
    refine ⟨rfl, rfl, fits, .inr ⟨by simp, ?_⟩⟩
    simp
  · cases Except.ok.inj parsedPolicy
    exact ⟨rfl, rfl, long, .inl ⟨rfl, rfl⟩⟩

private theorem AddAuthorityArgs.parse_inj {args args' : AddAuthorityArgs}
    (parsed : AddAuthorityArgs.parse data = .ok args) (parsed' : AddAuthorityArgs.parse data' = .ok args')
    (same : data.take args.dataPayloadLen = data'.take args'.dataPayloadLen) : args = args' := by
  obtain ⟨kind, role, fits, shape⟩ := AddAuthorityArgs.parse_layout parsed
  obtain ⟨kind', role', fits', shape'⟩ := AddAuthorityArgs.parse_layout parsed'
  have ends := Bytes.take_inj fits fits' same
  rw [← ends] at same shape'
  have agree := Bytes.AgreeUpTo.of_take same
  have long : 8 + args.key.fullAuthData.length ≤ args.dataPayloadLen := by omega
  have kinds : args.authorityType = args'.authorityType := by rw [kind, kind', agree.byte (by omega)]
  have roles : args.newRole = args'.newRole := by rw [role, role', agree.byte (by omega)]
  have first := (AddAuthorityArgs.parse_eq_ok parsed).1
  have second := (AddAuthorityArgs.parse_eq_ok parsed').1
  rw [← kinds] at second
  have keys := parseAuthorityKey_agree (agree.drop 8) first second (by omega)
  have policies : args.policy = args'.policy := by
    rw [← keys] at shape'
    rcases shape with ⟨empty, short⟩ | ⟨full, policy⟩ <;> rcases shape' with ⟨empty', short'⟩ | ⟨full', policy'⟩
    · rw [empty, empty']
    · omega
    · omega
    · rw [policy, policy', agree.slice _ _ (by omega)]
  cases args
  cases args'
  simp only [AddAuthorityArgs.mk.injEq]
  exact ⟨kinds, roles, keys, policies, ends⟩

private theorem TransferOwnershipArgs.parse_inj {args args' : TransferOwnershipArgs}
    (parsed : TransferOwnershipArgs.parse data = .ok args) (parsed' : TransferOwnershipArgs.parse data' = .ok args')
    (same : data.take args.dataPayloadLen = data'.take args'.dataPayloadLen) : args = args' := by
  have ends := Bytes.take_inj (TransferOwnershipArgs.parse_eq_ok parsed).2
    (TransferOwnershipArgs.parse_eq_ok parsed').2 same
  rw [← ends] at same
  have agree := Bytes.AgreeUpTo.of_take same
  have long : args.dataPayloadLen = 1 + args.key.fullAuthData.length := rfl
  simp only [TransferOwnershipArgs.parse, Except.bind_eq_ok, Except.ensure_eq_ok, exists_const] at parsed parsed'
  obtain ⟨_, key, parsedKey, _, _, result⟩ := parsed
  obtain ⟨_, key', parsedKey', _, _, result'⟩ := parsed'
  cases Except.ok.inj result
  cases Except.ok.inj result'
  have kinds := agree.byte (i := 0) (by omega)
  rw [← kinds] at parsedKey'
  have keys := parseNewOwnerKey_agree (agree.drop 1) parsedKey parsedKey' (by simp only at long; omega)
  rw [kinds, keys]

/-- Where CreateSession's arguments end, and what the end says about the actions. -/
theorem ParsedCreateSessionArgs.fromBytes_layout {args : ParsedCreateSessionArgs}
    (parsed : ParsedCreateSessionArgs.fromBytes data = .ok args) :
    40 ≤ args.argsEndOffset ∧ args.argsEndOffset ≤ data.length ∧ args.sessionKey = readKey data 0 ∧
      args.expiresAt = (data.slice 32 8).toNatLE ∧ args.actionsBytes = data.slice 42 (args.argsEndOffset - 42) := by
  simp only [ParsedCreateSessionArgs.fromBytes, Except.bind_eq_ok, Except.ensure_eq_ok, exists_const] at parsed
  obtain ⟨long, parsed⟩ := parsed
  split at parsed
  · next full =>
    simp only [Except.bind_eq_ok, Except.ensure_eq_ok, exists_const] at parsed
    obtain ⟨_, parsed⟩ := parsed
    split at parsed
    · simp only [Except.bind_eq_ok, Except.ensure_eq_ok, exists_const] at parsed
      obtain ⟨fits, _, _, result⟩ := parsed
      cases Except.ok.inj result
      exact ⟨by dsimp only; omega, fits, rfl, rfl, by simp⟩
    · cases Except.ok.inj parsed
      exact ⟨by simp, full, rfl, rfl, by simp [Bytes.slice]⟩
  · cases Except.ok.inj parsed
    exact ⟨by simp, long, rfl, rfl, by simp [Bytes.slice]⟩

private theorem readKey_agree {count offset : ℕ} (agree : Bytes.AgreeUpTo count data data')
    (fits : offset + 32 ≤ count) :
    readKey data offset = readKey data' offset := by
  rw [readKey, readKey, agree.slice _ _ fits]

private theorem ParsedCreateSessionArgs.fromBytes_inj {args args' : ParsedCreateSessionArgs}
    (parsed : ParsedCreateSessionArgs.fromBytes data = .ok args)
    (parsed' : ParsedCreateSessionArgs.fromBytes data' = .ok args')
    (same : data.take args.argsEndOffset = data'.take args'.argsEndOffset) : args = args' := by
  obtain ⟨long, fits, sessionKey, expiresAt, actions⟩ := ParsedCreateSessionArgs.fromBytes_layout parsed
  obtain ⟨_, fits', sessionKey', expiresAt', actions'⟩ := ParsedCreateSessionArgs.fromBytes_layout parsed'
  have ends := Bytes.take_inj fits fits' same
  rw [← ends] at same actions'
  have agree := Bytes.AgreeUpTo.of_take same
  have actionsSame : args.actionsBytes = args'.actionsBytes := by
    rw [actions, actions']
    rcases Nat.lt_or_ge args.argsEndOffset 42 with short | full
    · rw [Nat.sub_eq_zero_of_le (by omega)]
      simp [Bytes.slice]
    · exact agree.slice _ _ (by omega)
  have keys : args.sessionKey = args'.sessionKey := by
    rw [sessionKey, sessionKey', readKey_agree agree (by omega)]
  have expiries : args.expiresAt = args'.expiresAt := by rw [expiresAt, expiresAt', agree.slice _ _ (by omega)]
  cases args
  cases args'
  simp only [ParsedCreateSessionArgs.mk.injEq]
  exact ⟨keys, expiries, actionsSame, ends⟩

end Prefixes

private theorem bytes_append_inj {first first' second second' : Pubkey}
    (same : first.bytes ++ second.bytes = first'.bytes ++ second'.bytes) : first = first' ∧ second = second' := by
  obtain ⟨one, two⟩ := List.append_inj same (by rw [first.length_bytes, first'.length_bytes])
  exact ⟨BytesN.ext_bytes one, BytesN.ext_bytes two⟩

private theorem append_bytes_inj {front front' : Bytes} {key key' : Pubkey}
    (same : front ++ key.bytes = front' ++ key'.bytes) : front = front' ∧ key = key' := by
  obtain ⟨one, two⟩ := List.append_inj' same (by rw [key.length_bytes, key'.length_bytes])
  exact ⟨one, BytesN.ext_bytes two⟩

private theorem flatMap_bytes_inj {keys keys' : List Pubkey} (width : keys.length = keys'.length)
    (same : keys.flatMap (·.bytes) = keys'.flatMap (·.bytes)) : keys = keys' := by
  rw [List.flatMap_def, List.flatMap_def] at same
  have widths (keys : List Pubkey) : ∀ bytes ∈ keys.map (·.bytes), bytes.length = 32 := by
    simp [BytesN.length_bytes]
  have parts := Bytes.flatten_injective (by simpa using width) (widths keys) (widths keys') same
  exact BytesN.bytes_injective.list_map parts

private theorem migrationSources_length {accounts : List AccountInfo} {count : ℕ} {sources : List AccountInfo}
    (listed : migrationSources accounts count = .ok sources) : sources.length = count := by
  have lengths := (Except.mapM_eq_ok.mp listed).length_eq
  rw [List.length_range] at lengths
  exact lengths.symm

private theorem migrationPayload_inj {destination destination' wallet wallet' refund refund' : Pubkey}
    {count count' : UInt8} {sources sources' : List AccountInfo} (width : sources.length = count.toNat)
    (width' : sources'.length = count'.toNat)
    (same : migrationPayload destination wallet refund count sources =
      migrationPayload destination' wallet' refund' count' sources') :
    destination = destination' ∧ wallet = wallet' ∧ refund = refund' ∧
      sources.map (·.key) = sources'.map (·.key) := by
  have widths (a b : Pubkey) : a.bytes.length = b.bytes.length := by rw [a.length_bytes, b.length_bytes]
  simp only [migrationPayload, List.append_assoc] at same
  obtain ⟨one, same⟩ := List.append_inj same (widths _ _)
  obtain ⟨two, same⟩ := List.append_inj same (widths _ _)
  obtain ⟨three, same⟩ := List.append_inj same rfl
  obtain ⟨four, same⟩ := List.append_inj same (widths _ _)
  have counts : count = count' := by simpa using three
  refine ⟨BytesN.ext_bytes one, BytesN.ext_bytes two, BytesN.ext_bytes four, flatMap_bytes_inj ?_ ?_⟩
  · rw [List.length_map, List.length_map, width, width', counts]
  · simpa [List.flatMap_map] using same

/-- One payload of one instruction, one set of arguments. -/
theorem signedArguments_inj {rt rt' : Runtime} {discriminator : UInt8} {accounts accounts' : List AccountInfo}
    {data data' payload : Bytes} {args args' : SignedArguments}
    (first : signedArguments rt discriminator accounts data = .ok (args, payload))
    (second : signedArguments rt' discriminator accounts' data' = .ok (args', payload)) : args = args' := by
  unfold signedArguments at first second
  split at first <;> simp only [Except.bind_eq_ok, Except.ensure_eq_ok, exists_const] at first second
  · -- AddAuthority
    obtain ⟨parsed, parse, payer, _, result⟩ := first
    obtain ⟨parsed', parse', payer', _, result'⟩ := second
    obtain ⟨rfl, rfl⟩ := Prod.mk.inj (Except.ok.inj result)
    obtain ⟨rfl, same⟩ := Prod.mk.inj (Except.ok.inj result')
    rw [AddAuthorityArgs.parse_inj parse parse' (append_bytes_inj same.symm).1]
  · -- RemoveAuthority
    obtain ⟨target, _, refund, _, result⟩ := first
    obtain ⟨target', _, refund', _, result'⟩ := second
    obtain ⟨rfl, rfl⟩ := Prod.mk.inj (Except.ok.inj result)
    obtain ⟨rfl, same⟩ := Prod.mk.inj (Except.ok.inj result')
    obtain ⟨targets, refunds⟩ := bytes_append_inj same
    rw [targets, refunds]
  · -- TransferOwnership
    obtain ⟨parsed, parse, payer, _, refund, _, result⟩ := first
    obtain ⟨parsed', parse', payer', _, refund', _, result'⟩ := second
    obtain ⟨rfl, rfl⟩ := Prod.mk.inj (Except.ok.inj result)
    obtain ⟨rfl, same⟩ := Prod.mk.inj (Except.ok.inj result')
    obtain ⟨fronts, refunds⟩ := append_bytes_inj same.symm
    rw [TransferOwnershipArgs.parse_inj parse parse' (append_bytes_inj fronts).1, refunds]
  · -- Execute
    obtain ⟨⟨ixs, len⟩, parse, hash, _, result⟩ := first
    obtain ⟨⟨ixs', len'⟩, parse', hash', _, result'⟩ := second
    obtain ⟨rfl, rfl⟩ := Prod.mk.inj (Except.ok.inj result)
    obtain ⟨rfl, same⟩ := Prod.mk.inj (Except.ok.inj result')
    obtain ⟨fronts, hashes⟩ := append_bytes_inj same.symm
    have lists := parseCompactInstructionsRefWithLen_inj parse parse' fronts
    dsimp only at lists fronts ⊢
    rw [lists, fronts, hashes]
  · -- CreateSession
    obtain ⟨parsed, parse, payer, _, result⟩ := first
    obtain ⟨parsed', parse', payer', _, result'⟩ := second
    obtain ⟨rfl, rfl⟩ := Prod.mk.inj (Except.ok.inj result)
    obtain ⟨rfl, same⟩ := Prod.mk.inj (Except.ok.inj result')
    rw [ParsedCreateSessionArgs.fromBytes_inj parse parse' (append_bytes_inj same.symm).1]
  · -- Authorize
    obtain ⟨_, result⟩ := first
    obtain ⟨_, result'⟩ := second
    obtain ⟨rfl, rfl⟩ := Prod.mk.inj (Except.ok.inj result)
    obtain ⟨rfl, same⟩ := Prod.mk.inj (Except.ok.inj result')
    obtain ⟨hashes, offsets⟩ := List.append_inj' same (by simp)
    obtain ⟨instructions, accounts⟩ := bytes_append_inj hashes
    rw [instructions, accounts, ofNatLE_injective (Bytes.toNatLE_slice_lt) (Bytes.toNatLE_slice_lt) offsets]
  · -- RevokeSession
    obtain ⟨session, _, refund, _, result⟩ := first
    obtain ⟨session', _, refund', _, result'⟩ := second
    obtain ⟨rfl, rfl⟩ := Prod.mk.inj (Except.ok.inj result)
    obtain ⟨rfl, same⟩ := Prod.mk.inj (Except.ok.inj result')
    obtain ⟨sessions, refunds⟩ := bytes_append_inj same
    rw [sessions, refunds]
  · -- MigrateWallet
    obtain ⟨destination, _, wallet, _, refund, _, sources, listed, result⟩ := first
    obtain ⟨destination', _, wallet', _, refund', _, sources', listed', result'⟩ := second
    obtain ⟨rfl, rfl⟩ := Prod.mk.inj (Except.ok.inj result)
    obtain ⟨rfl, same⟩ := Prod.mk.inj (Except.ok.inj result')
    obtain ⟨destinations, wallets, refunds, lists⟩ :=
      migrationPayload_inj (migrationSources_length listed) (migrationSources_length listed') same.symm
    rw [destinations, wallets, refunds, lists]
  · cases first

section Accepted

variable {dep : Deployment} {fr : Frame} {accounts : List AccountInfo} {data : Bytes} {reg reg' : Registry}
  {discriminator : UInt8} {approvals : List Approval}

theorem AuthStep.assertion {authority key : Pubkey} {authPayload signedPayload old new : Bytes} {approval : Approval}
    {used : UInt8} {assertion : Assertion}
    (step : AuthStep dep fr accounts authority authPayload signedPayload discriminator old new approval)
    (member : Approval.authority key used (some assertion) ∈ [approval]) :
    key = authority ∧ (AuthorityAccountHeader.read old).authorityType = 1 ∧
      Verified dep fr accounts old authPayload signedPayload discriminator assertion := by
  have same := List.mem_singleton.mp member
  cases step with
  | ed25519 => cases same
  | secp256r1 kind verified =>
    cases same
    exact ⟨rfl, kind, verified⟩

private theorem accountAt_of_keyAt {i : ℕ} {key : Pubkey} (listed : KeyAt accounts i key) :
    ∃ acc, accountAt accounts i = .ok acc ∧ acc.key = key := by
  obtain ⟨acc, found, same⟩ := listed
  exact ⟨acc, accountAt_eq_ok.mpr found, same⟩

/-- An accepted assertion is over the payload of the instruction's own arguments. -/
theorem Transition.signedArguments {key : Pubkey} {used : UInt8} {assertion : Assertion}
    (transition : Transition dep fr accounts data reg discriminator approvals reg')
    (member : Approval.authority key used (some assertion) ∈ approvals) :
    ∃ args, signedArguments dep.toRuntime discriminator accounts data = .ok (args, assertion.signedPayload) := by
  cases transition with
  | protocol | reclaimLegacy | closeLegacy | createWallet | executeDeferred | reclaimDeferred
  | closeExpiredSession | executeSession => simp at member
  | migrate _ step signs =>
    obtain ⟨_, _, verified⟩ := step.assertion member
    obtain ⟨_, _, _, sources, destinationAt, walletAt, refundAt, listed, payload⟩ := signs
    obtain ⟨_, destinationFound, rfl⟩ := accountAt_of_keyAt destinationAt
    obtain ⟨_, walletFound, rfl⟩ := accountAt_of_keyAt walletAt
    obtain ⟨_, refundFound, rfl⟩ := accountAt_of_keyAt refundAt
    rw [verified.signedPayload, payload]
    simp only [LazorKit.signedArguments, Except.bind_eq_ok]
    exact ⟨_, _, destinationFound, _, walletFound, _, refundFound, _, listed, rfl⟩
  | addAuthority parsed _ acting _ _ _ _ _ _ _ _ payerAt =>
    obtain ⟨_, _, verified⟩ := acting.step.assertion member
    obtain ⟨_, payerFound, rfl⟩ := accountAt_of_keyAt payerAt
    rw [verified.signedPayload]
    simp only [LazorKit.signedArguments, Except.bind_eq_ok]
    exact ⟨_, _, parsed, _, payerFound, rfl⟩
  | removeAuthority _ acting _ _ _ _ _ targetAt refundAt =>
    obtain ⟨_, _, verified⟩ := acting.step.assertion member
    obtain ⟨_, targetFound, rfl⟩ := accountAt_of_keyAt targetAt
    obtain ⟨_, refundFound, rfl⟩ := accountAt_of_keyAt refundAt
    rw [verified.signedPayload]
    simp only [LazorKit.signedArguments, Except.bind_eq_ok]
    exact ⟨_, _, targetFound, _, refundFound, rfl⟩
  | transferOwnership parsed _ acting _ _ _ _ _ _ payerAt refundAt =>
    obtain ⟨_, _, verified⟩ := acting.step.assertion member
    obtain ⟨_, payerFound, rfl⟩ := accountAt_of_keyAt payerAt
    obtain ⟨_, refundFound, rfl⟩ := accountAt_of_keyAt refundAt
    rw [verified.signedPayload]
    simp only [LazorKit.signedArguments, Except.bind_eq_ok]
    exact ⟨_, _, parsed, _, payerFound, _, refundFound, rfl⟩
  | execute _ acting _ signs =>
    obtain ⟨_, kind, verified⟩ := acting.step.assertion member
    obtain ⟨_, _, _, parsed, hashed, payload⟩ := signs kind
    rw [verified.signedPayload, payload]
    simp only [LazorKit.signedArguments, Except.bind_eq_ok]
    exact ⟨_, _, parsed, _, hashed, rfl⟩
  | createSession parsed _ acting _ _ _ _ _ _ payerAt =>
    obtain ⟨_, _, verified⟩ := acting.step.assertion member
    obtain ⟨_, payerFound, rfl⟩ := accountAt_of_keyAt payerAt
    rw [verified.signedPayload]
    simp only [LazorKit.signedArguments, Except.bind_eq_ok]
    exact ⟨_, _, parsed, _, payerFound, rfl⟩
  | authorize long _ acting =>
    obtain ⟨_, _, verified⟩ := acting.step.assertion member
    rw [verified.signedPayload]
    simp only [LazorKit.signedArguments, Except.bind_eq_ok, Except.ensure_eq_ok, exists_const]
    exact ⟨_, long, rfl⟩
  | revokeSession _ acting _ _ _ _ sessionAt refundAt =>
    obtain ⟨_, _, verified⟩ := acting.step.assertion member
    obtain ⟨_, sessionFound, rfl⟩ := accountAt_of_keyAt sessionAt
    obtain ⟨_, refundFound, rfl⟩ := accountAt_of_keyAt refundAt
    rw [verified.signedPayload]
    simp only [LazorKit.signedArguments, Except.bind_eq_ok]
    exact ⟨_, _, sessionFound, _, refundFound, rfl⟩

end Accepted

end LazorKit
