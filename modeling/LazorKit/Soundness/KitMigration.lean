import LazorKit.Proofs.VaultTokens
import LazorKit.Soundness.KitRequests
import LazorKit.Soundness.Migration

/-! # What the kit's migration carries

A migration closes the v1 wallet, so a token account it loses on the way through its passes is stranded unseen,
and one it should not have kept makes the whole migration fail. Every account of the vault ends up on one of the two
lists of the plan; what is on the first can be moved, into a destination nobody else has a right over; and what the
owner signs is what MigrateWallet rebuilds from the instruction.
-/

namespace LazorKit.Kit

open Solana

/-- An existing destination account that is the vault's alone. -/
structure ReceivesFor (tokenProgram vault : Pubkey) (info : Account) : Prop where
  program : info.owner = tokenProgram
  length : tokenAccountLen ≤ info.data.length
  holder : readKey info.data 32 = vault
  delegate : (info.data.slice tokenDelegate 4).toNatLE = 0 ∨ readKey info.data (tokenDelegate + 4) = vault
  closeAuthority : (info.data.slice tokenCloseAuthority 4).toNatLE = 0 ∨
    readKey info.data (tokenCloseAuthority + 4) = vault

private theorem grantAt_eq_none {entry : Pubkey × Bytes} {tokenProgram vault : Pubkey} {trustedKeys : List Pubkey}
    {slot : GrantKind × ℕ} : grantAt entry tokenProgram vault trustedKeys slot = none ↔
      (entry.2.slice slot.2 4).toNatLE = 0 ∨ readKey entry.2 (slot.2 + 4) = vault := by
  simp only [grantAt]
  split
  · next unset => simp [unset]
  · next set =>
    split
    · next own => simp [own]
    · next foreign => simp [set, foreign]

/-- The check of a destination finds nothing exactly in an account that is the vault's alone. -/
theorem destinationTokenAccountProblem_eq_none {dest tokenProgram vault : Pubkey} {info : Account} :
    destinationTokenAccountProblem dest info tokenProgram vault = none ↔ ReceivesFor tokenProgram vault info := by
  simp only [destinationTokenAccountProblem]
  constructor
  · intro clear
    split_ifs at clear with program short holder
    have grants : grantsOn [(dest, info.data)] tokenProgram vault [] = [] :=
      List.head?_eq_none_iff.mp (Option.map_eq_none_iff.mp clear)
    simp only [grantsOn, List.flatMap_cons, List.flatMap_nil, List.append_nil, short, if_false,
      List.filterMap_eq_nil_iff, List.forall_mem_cons, grantAt_eq_none] at grants
    push Not at program holder
    exact ⟨program, Nat.le_of_not_lt short, holder, grants.1, grants.2.1⟩
  · intro receives
    have short : ¬ info.data.length < tokenAccountLen := Nat.not_lt.mpr receives.length
    have grants : grantsOn [(dest, info.data)] tokenProgram vault [] = [] := by
      simp only [grantsOn, List.flatMap_cons, List.flatMap_nil, List.append_nil, short, if_false,
        List.filterMap_eq_nil_iff, List.forall_mem_cons, grantAt_eq_none]
      exact ⟨receives.delegate, receives.closeAuthority, fun _ member => absurd member List.not_mem_nil⟩
    simp [receives.program, receives.holder, short, grants]

section Plan

variable {rt : Runtime} {derive : Pubkey → List Bytes → Pubkey} {reads : MigrationReads} {v2Vault : Pubkey}

/-- Each account to check has the state of its own destination on record. -/
theorem destinationStates_read {vettedAt : Option ℕ} {toCheck : List V1VaultToken}
    {destState : OrderedMap Pubkey DestinationState}
    (success : destinationStates derive reads v2Vault vettedAt toCheck = .ok destState)
    (distinct : (toCheck.map (·.ata)).Nodup) {token : V1VaultToken} (member : token ∈ toCheck) :
    ∃ info, Answered (reads.destinations vettedAt)
        (getAssociatedTokenAddress derive token.mint v2Vault token.tokenProgram) info ∧
      destState.get? token.ata = destinationState derive v2Vault token info := by
  simp only [destinationStates, Except.bind_eq_ok, Except.ok.injEq] at success
  obtain ⟨rows, read, rfl⟩ := success
  obtain ⟨members, answered⟩ := readPages_rows read
  rw [← members] at member
  obtain ⟨row, listed, rfl⟩ := List.mem_map.mp member
  refine ⟨row.2, answered row listed, ?_⟩
  rw [← members, List.map_map] at distinct
  exact @OrderedMap.get?_foldl_set_filterMap _ _ _ _ rows (fun row => row.1.ata)
    (fun row => destinationState derive v2Vault row.1 row.2) distinct row listed

private theorem isSystemAccount_of_destinationState {token : V1VaultToken} {info : Option Account}
    {state : DestinationState}
    (found : destinationState derive v2Vault token info = some state) : isSystemAccount info = false := by
  obtain ⟨acc, rfl, made⟩ := Option.bind_eq_some_iff.mp found
  split at made
  · cases made
  · next other => exact Bool.eq_false_of_not_eq_true other

/-- The last passes lose no account either. -/
theorem admitDestinations_perm (destState : OrderedMap Pubkey DestinationState) (movable : List V1VaultToken)
    (skipped : List SkippedToken) :
    ((admitDestinations destState movable skipped).1 ++
      (admitDestinations destState movable skipped).2.map (·.token)).Perm (movable ++ skipped.map (·.token)) := by
  have there := skipPass_perm
    (fun t => if (destState.get? t.ata).any (·.frozen) then some .destinationFrozen else none) movable
  have arriving := skipPass_perm
    (fun t => if (destState.get? t.ata).any (fun d => !d.frozen) then none else some .frozenOnArrival)
    ((skipped.filter fun s => s.reason = .frozenOnArrival).map (·.token))
  have split : ((skipped.filter fun s => s.reason = .frozenOnArrival) ++
      skipped.filter fun s => s.reason ≠ .frozenOnArrival).Perm skipped := by
    simpa only [decide_not] using List.filter_append_perm (fun s : SkippedToken => decide (s.reason = .frozenOnArrival))
      skipped
  have whole :=
    there.append (arriving.append_right ((skipped.filter fun s => s.reason ≠ .frozenOnArrival).map (·.token)))
  rw [← List.map_append] at whole
  refine List.Perm.trans ?_ (whole.trans ((split.map _).append_left _))
  simp only [admitDestinations, List.map_append, List.perm_iff_count, List.count_append]
  intro token
  omega

/-- What makes a token account fit to move, given its data, its mint and what is at its destination. -/
structure Movable (exclude : List Pubkey) (v2Vault : Pubkey) (token : V1VaultToken) (data : Bytes) (mint : Account)
    (dest : Option Account) : Prop where
  included : token.ata ∉ exclude
  unblocked : ∀ reason, ¬ AccountBlocks data reason
  mintProgram : mint.owner = token.tokenProgram
  mintBlocks : token.tokenProgram = splToken2022Program → ∀ reason, MintBlocks mint.data reason →
    reason = .frozenOnArrival ∧ isSystemAccount dest = false
  destination : ∀ info, dest = some info → isSystemAccount dest = false →
    tokenAccountFrozen info.data = false ∧ ReceivesFor token.tokenProgram v2Vault info

/-- A classified token is fit to move if its destination is free or clean, and there if the mint needs it. -/
theorem Classified.movable {exclude : List Pubkey} {vault : Pubkey} {token : V1VaultToken}
    {data : Bytes} {dest : Option Account} {reason : Option UnmovableReason}
    (classified : Classified reads.mints exclude token reason) (late : reason = none ∨ reason = some .frozenOnArrival)
    (listed : ListedAs reads.decodeAddress reads.tokenAccounts vault token data)
    (arrives : reason = some .frozenOnArrival → isSystemAccount dest = false)
    (clean : ∀ state, destinationState derive v2Vault token dest = some state →
      state.frozen = false ∧ state.problem = none) :
    ∃ mint, Answered reads.mints token.mint (some mint) ∧ Movable exclude v2Vault token data mint dest := by
  obtain ⟨included, mint, answered, rfl⟩ := classified
  have own : token.blocker ≠ some .frozenOnArrival := by
    rw [listed.blocker]
    exact tokenAccountBlocker_ne_frozenOnArrival data
  obtain ⟨unblocked, _, info, rfl, owned, blocker⟩ := unmovableReason_late late own
  refine ⟨info, answered.resolve_left (by simp), included, ?_, owned, ?_, ?_⟩
  · exact not_accountBlocks (listed.blocker ▸ unblocked)
  · intro token2022 reason blocks
    rw [← blocker token2022] at late arrives
    obtain ⟨rfl, frozen⟩ := mintBlocker_of_mintBlocks blocks late
    exact ⟨rfl, arrives frozen⟩
  · rintro state rfl exists_
    have found := clean _ (by simp only [destinationState, Option.bind_some, exists_]; rfl)
    exact ⟨found.1, destinationTokenAccountProblem_eq_none.mp found.2⟩

/-- The state an admitted token has on record, whichever pass admitted it. -/
theorem mem_admitDestinations {destState : OrderedMap Pubkey DestinationState} {movable : List V1VaultToken}
    {skipped : List SkippedToken} {token : V1VaultToken}
    (member : token ∈ (admitDestinations destState movable skipped).1) :
    (token ∈ movable ∧ ∀ state, destState.get? token.ata = some state → state.frozen = false) ∨
      (∃ entry ∈ skipped, entry.reason = .frozenOnArrival ∧ entry.token = token ∧
        ∃ state, destState.get? token.ata = some state ∧ state.frozen = false) := by
  rcases List.mem_append.mp member with moved | arrived
  · obtain ⟨kept, free⟩ := mem_kept.mp moved
    refine .inl ⟨kept, fun state there => ?_⟩
    simpa [there] using free
  · obtain ⟨arrival, free⟩ := mem_kept.mp arrived
    obtain ⟨entry, listed, rfl⟩ := List.mem_map.mp arrival
    obtain ⟨listed, reason⟩ := List.mem_filter.mp listed
    refine .inr ⟨entry, listed, of_decide_eq_true reason, rfl, ?_⟩
    simpa [Option.any_eq_true] using free

private theorem riggedDestinations_eq_nil {destState : OrderedMap Pubkey DestinationState} {tokens : List V1VaultToken}
    (clean : riggedDestinations destState tokens = []) {token : V1VaultToken} (member : token ∈ tokens)
    {state : DestinationState} (there : destState.get? token.ata = some state) : state.problem = none := by
  have found := List.filterMap_eq_nil_iff.mp clean token member
  simpa [there] using found

/-- The triage loses nothing, and what it keeps is fit to move. -/
theorem planTokens_spec {v1Vault v2Wallet : Pubkey} {vettedAt : Option ℕ} {exclude : List Pubkey}
    {vaultTokens tokens : List V1VaultToken} {skippedTokens : List SkippedToken}
    (success : planTokens derive reads v1Vault v2Wallet v2Vault vettedAt exclude = .ok (tokens, skippedTokens))
    (enumerated : enumerateV1VaultTokens reads.decodeAddress reads.tokenAccounts v1Vault = .ok vaultTokens) :
    (tokens ++ skippedTokens.map (·.token)).Perm vaultTokens ∧ tokens.length ≤ 255 ∧
      ((vaultTokens.map (·.ata)).Nodup → ∀ token ∈ tokens, ∃ data mint dest,
        ListedAs reads.decodeAddress reads.tokenAccounts v1Vault token data ∧
        Answered reads.mints token.mint (some mint) ∧
        Answered (reads.destinations vettedAt)
          (getAssociatedTokenAddress derive token.mint v2Vault token.tokenProgram) dest ∧
        Movable exclude v2Vault token data mint dest) := by
  simp only [planTokens, enumerated, Except.ok_bind, Except.bind_eq_ok, Except.ensure_eq_ok, exists_const,
    Except.ok.injEq, Prod.mk.injEq] at success
  obtain ⟨⟨movable, skipped⟩, classifies, destState, reading, clean, count, rfl, rfl⟩ := success
  obtain ⟨partition, kept, arrivals⟩ := classifyV1VaultTokens_spec classifies
  refine ⟨(admitDestinations_perm destState movable skipped).trans partition, count, fun distinct token member => ?_⟩
  have checked : ((movable ++ (skipped.filter fun s => s.reason = .frozenOnArrival).map (·.token)).map
      (·.ata)).Nodup := by
    refine List.Nodup.sublist ?_ ((partition.map (·.ata)).nodup_iff.mpr distinct)
    exact ((List.filter_sublist.map _).append_left movable).map _
  have problem {state : DestinationState} (there : destState.get? token.ata = some state) : state.problem = none :=
    riggedDestinations_eq_nil clean member there
  rcases mem_admitDestinations member with ⟨moved, free⟩ | ⟨entry, listed, reason, rfl, state, there, free⟩
  · obtain ⟨dest, answered, record⟩ := destinationStates_read reading checked (List.mem_append_left _ moved)
    obtain ⟨data, row⟩ := listedAs_of_enumerate enumerated (partition.subset (List.mem_append_left _ moved))
    obtain ⟨mint, there, fit⟩ := (kept token moved).movable (.inl rfl) row (fun arrival => by cases arrival)
      (fun state found => ⟨free state (record.trans found), problem (record.trans found)⟩)
    exact ⟨data, mint, dest, row, there, answered, fit⟩
  · have arriving : entry ∈ skipped.filter fun s => s.reason = .frozenOnArrival :=
      List.mem_filter.mpr ⟨listed, decide_eq_true reason⟩
    obtain ⟨dest, answered, record⟩ := destinationStates_read reading checked
      (List.mem_append_right _ (List.mem_map_of_mem arriving))
    obtain ⟨data, row⟩ := listedAs_of_enumerate enumerated
      (partition.subset (List.mem_append_right _ (List.mem_map_of_mem listed)))
    have found : destinationState derive v2Vault entry.token dest = some state := record.symm.trans there
    have exists_ : isSystemAccount dest = false := isSystemAccount_of_destinationState found
    obtain ⟨mint, minted, fit⟩ := (arrivals entry listed reason).movable (.inr rfl) row (fun _ => exists_)
      (fun other same => Option.some.inj (found.symm.trans same) ▸ ⟨free, problem there⟩)
    exact ⟨data, mint, dest, row, minted, answered, fit⟩

end Plan

private theorem migrationSources_of_keyAt {accounts : List AccountInfo} {keys : List Pubkey}
    (each : ∀ i key, keys[i]? = some key → KeyAt accounts (9 + i * tokenAccountsPerMigration) key) :
    ∃ sources, migrationSources accounts keys.length = .ok sources ∧ sources.map (·.key) = keys := by
  simp only [migrationSources, Except.mapM_eq_ok]
  induction keys using List.reverseRecOn with
  | nil => exact ⟨[], .nil, rfl⟩
  | append_singleton front last ih =>
    obtain ⟨sources, related, same⟩ := ih fun i key found => each i key (by
      rw [List.getElem?_append_left (List.getElem?_eq_some_iff.mp found).1]
      exact found)
    obtain ⟨acc, found, rfl⟩ := each front.length last (by simp)
    refine ⟨sources ++ [acc], ?_, by simp [same]⟩
    rw [List.length_append, List.length_singleton, List.range_succ]
    exact List.rel_append related (.cons (accountAt_eq_ok.mpr found) .nil)

/-- Each token of the instruction takes four accounts, its source first. -/
theorem getElem?_tokenMetas (tokens : List MigrateTokenPair) (i : ℕ) :
    ((tokens.flatMap fun t => [writableMeta t.sourceAta, writableMeta t.destAta, readonlyMeta t.mint,
      readonlyMeta t.tokenProgram]).map (·.pubkey))[i * tokenAccountsPerMigration]? =
        (tokens.map (·.sourceAta))[i]? := by
  induction tokens generalizing i with
  | nil => rfl
  | cons token rest ih =>
    cases i with
    | zero => rfl
    | succ i =>
      rw [List.map_cons, List.getElem?_cons_succ, ← ih i, Nat.succ_mul]
      rfl

/-- MigrateWallet reads back what the instruction was built from, and rebuilds the kit's payload. -/
theorem signedArguments_createMigrateWalletIx {params : MigrateWalletParams} {accounts : List AccountInfo}
    (handed : HandedTo (createMigrateWalletIx params) accounts) (few : params.tokens.length ≤ 255) (rt : Runtime)
    (authPayload : Bytes) :
    signedArguments rt 17 accounts (byteOf params.tokens.length :: authPayload) =
      .ok (.migrateWallet params.destination params.v1Wallet params.refundDestination (params.tokens.map (·.sourceAta)),
        migrationSignedPayload params.destination params.v1Wallet params.refundDestination params.tokens) := by
  have count : (byteOf params.tokens.length).toNat = (params.tokens.map (·.sourceAta)).length := by
    rw [List.length_map, toNat_byteOf (by omega)]
  obtain ⟨wallet, walletAt, isWallet⟩ : KeyAt accounts 1 params.v1Wallet := handed.keyAt rfl
  obtain ⟨destination, destinationAt, isDestination⟩ : KeyAt accounts 4 params.destination := handed.keyAt rfl
  obtain ⟨refund, refundAt, isRefund⟩ : KeyAt accounts 5 params.refundDestination := handed.keyAt rfl
  have each (i : ℕ) (key : Pubkey) (found : (params.tokens.map (·.sourceAta))[i]? = some key) :
      KeyAt accounts (9 + i * tokenAccountsPerMigration) key := by
    apply handed.keyAt
    rw [createMigrateWalletIx, List.map_append, List.getElem?_append_right (by simp), ← found, ← getElem?_tokenMetas]
    simp only [List.length_map, List.length_cons, List.length_nil, Nat.add_sub_cancel_left]
  obtain ⟨sources, listed, same⟩ := migrationSources_of_keyAt each
  simp only [signedArguments, Except.bind_eq_ok, accountAt_eq_ok]
  refine ⟨destination, destinationAt, wallet, walletAt, refund, refundAt, sources, ?_, ?_⟩
  · rw [← listed, ← count]
    rfl
  · have keys := congrArg (fun keys : List Pubkey => (keys.map (·.bytes)).flatten) same
    simp only [List.map_map, Function.comp_def] at keys
    have front : Bytes.byte (byteOf params.tokens.length :: authPayload) 0 = byteOf params.tokens.length := rfl
    rw [isWallet, isDestination, isRefund, same, migrationPayload, List.flatMap_def, keys, front]
    simp [migrationSignedPayload, concatBytes]

/-- The program whose accounts a plan migrates, and where their rent goes. -/
def MigrateV1WalletParams.v1Program (params : MigrateV1WalletParams) (rt : Runtime) : Pubkey :=
  params.v1ProgramId.getD (legacyProgramIdFor rt.programId)

def MigrateV1WalletParams.refund (params : MigrateV1WalletParams) : Pubkey := params.refundDestination.getD params.payer

/-- What the owner signs for a plan. -/
def MigrationPlan.signedPayload (plan : MigrationPlan) (derive : Pubkey → List Bytes → Pubkey) (refund : Pubkey) :
    Bytes :=
  migrationSignedPayload plan.v2Vault plan.v1.wallet refund (plan.tokens.map (migrateTokenPair derive plan.v2Vault))

/-- The instruction lists the plan's tokens with their destinations, mints and programs. From it MigrateWallet reads the
plan's destination, wallet, refund destination and source accounts, as many and in the order they are listed, and
rebuilds the payload; the rest of the data is the auth payload. -/
def Rebuilds (plan : MigrationPlan) (derive : Pubkey → List Bytes → Pubkey) (refund program : Pubkey) (ix : Instruction)
    (authPayload : Bytes) : Prop :=
  ix.programId = program ∧ ix.data = [17, byteOf plan.tokens.length] ++ authPayload ∧
    (ix.accounts.drop 9).map (·.pubkey) = (plan.tokens.flatMap fun t =>
      [t.ata, getAssociatedTokenAddress derive t.mint plan.v2Vault t.tokenProgram, t.mint, t.tokenProgram]) ∧
    ∀ rt accounts, HandedTo ix accounts →
      signedArguments rt 17 accounts (ix.data.drop 1) =
        .ok (.migrateWallet plan.v2Vault plan.v1.wallet refund (plan.tokens.map (·.ata)),
          plan.signedPayload derive refund)

/-- What there is to send rebuilds the payload; a passkey's challenge is over it, for every answer of the
authenticator. -/
def MigrateStep.Signs (sha256 : Bytes → Bytes32) (plan : MigrationPlan) (derive : Pubkey → List Bytes → Pubkey)
    (refund program : Pubkey) : MigrateStep → Prop
  | .ed25519 instruction instructions =>
    Rebuilds plan derive refund program instruction [] ∧ ∃ harvests, instructions = harvests ++ [instruction]
  | .secp256r1 challenge finalize => ∀ response instructions, finalize response = .ok instructions →
    ∃ harvests precompileIx ix authPayload,
      instructions = harvests ++ [precompileIx, ix] ∧ Rebuilds plan derive refund program ix authPayload ∧
      ∀ v1 : Runtime, v1.programId = program → v1.sha256 = sha256 → ∀ accounts, HandedTo ix accounts →
        ∃ signing input, SignedAlike v1 accounts 17 authPayload (plan.signedPayload derive refund) challenge signing
          input plan.v1.wallet

/-- A plan that accounts for every token account of the vault: each is on one of the two lists, once; those to move
are fit to, by what the node answered no earlier than the destination's vet; and what is signed is what the program
rebuilds. -/
structure AccountsForAll (rt : Runtime) (derive : Pubkey → List Bytes → Pubkey) (reads : MigrationReads)
    (params : MigrateV1WalletParams) (vaultTokens : List V1VaultToken) (plan : MigrationPlan) : Prop where
  partition : (plan.tokens ++ plan.skippedTokens.map (·.token)).Perm vaultTokens
  once : ∀ token ∈ vaultTokens,
    (plan.tokens.map (·.ata)).count token.ata + (plan.skippedTokens.map (·.token.ata)).count token.ata = 1
  movable : ∃ fields destination, resolveOwnerFields params.owner = .ok fields ∧
    chooseDestination rt reads params fields.authType = .ok destination ∧ plan.destinationWallet = destination.wallet ∧
    ∀ token ∈ plan.tokens, ∃ data mint dest,
      ListedAs reads.decodeAddress reads.tokenAccounts plan.v1.vault token data ∧
      Answered reads.mints token.mint (some mint) ∧
      Answered (reads.destinations destination.vettedAt)
        (getAssociatedTokenAddress derive token.mint plan.v2Vault token.tokenProgram) dest ∧
      Movable params.excludeTokenAccounts plan.v2Vault token data mint dest
  count : plan.tokens.length ≤ 255
  signs : plan.migrate.Signs rt.sha256 plan derive params.refund (params.v1Program rt)

private theorem rebuilds_createMigrateWalletIx {plan : MigrationPlan} {derive : Pubkey → List Bytes → Pubkey}
    {ix : MigrateWalletParams} (few : plan.tokens.length ≤ 255) (destination : ix.destination = plan.v2Vault)
    (wallet : ix.v1Wallet = plan.v1.wallet)
    (tokens : ix.tokens = plan.tokens.map (migrateTokenPair derive plan.v2Vault)) :
    Rebuilds plan derive ix.refundDestination ix.programId (createMigrateWalletIx ix) (ix.authPayload.getD []) := by
  have count : ix.tokens.length = plan.tokens.length := by rw [tokens, List.length_map]
  have data : (createMigrateWalletIx ix).data = [17, byteOf plan.tokens.length] ++ ix.authPayload.getD [] := by
    simp [createMigrateWalletIx, concatBytes, discMigrateWallet, count]
  have listed : ((createMigrateWalletIx ix).accounts.drop 9).map (·.pubkey) = plan.tokens.flatMap fun t =>
      [t.ata, getAssociatedTokenAddress derive t.mint plan.v2Vault t.tokenProgram, t.mint, t.tokenProgram] := by
    have metas : (createMigrateWalletIx ix).accounts.drop 9 = ix.tokens.flatMap fun t =>
        [writableMeta t.sourceAta, writableMeta t.destAta, readonlyMeta t.mint, readonlyMeta t.tokenProgram] := rfl
    rw [metas, tokens, List.flatMap_map, List.map_flatMap]
    rfl
  refine ⟨rfl, data, listed, fun rt accounts handed => ?_⟩
  have read := signedArguments_createMigrateWalletIx handed (by omega) rt (ix.authPayload.getD [])
  rw [data, ← count]
  apply read.trans
  rw [destination, wallet, tokens, List.map_map]
  rfl

private theorem readChallengeInputs_key {reads : ChallengeReads} {authorityPda : Pubkey} {key : Bytes} {slot : Option ℤ}
    {inputs : ChallengeInputs} (read : readChallengeInputs reads authorityPda (some key) slot = .ok inputs) :
    key = inputs.publicKeyBytes := by
  simp only [readChallengeInputs, Except.bind_eq_ok, Except.ok.injEq, exists_eq_left'] at read
  obtain ⟨_, _, _, _, rfl⟩ := read
  rfl

section Main

variable {rt : Runtime} {derive : Pubkey → List Bytes → Pubkey} {reads : MigrationReads}
  {params : MigrateV1WalletParams}
  {plan : MigrationPlan} {vaultTokens : List V1VaultToken}

/-- Whatever the node answers, a plan for a vault of distinct token accounts accounts for all of them. -/
theorem migrateV1Wallet_accountsForAll (success : migrateV1Wallet rt derive reads params = .ok plan)
    (enumerated : enumerateV1VaultTokens reads.decodeAddress reads.tokenAccounts plan.v1.vault = .ok vaultTokens)
    (distinct : (vaultTokens.map (·.ata)).Nodup) : AccountsForAll rt derive reads params vaultTokens plan := by
  simp only [migrateV1Wallet, Except.bind_eq_ok, Except.ensure_eq_ok, exists_const, Except.ok.injEq] at success
  obtain ⟨fields, owner, _, v1, _, _, _, destination, chosen, ⟨tokens, skippedTokens⟩, planned, created, _, migrate,
    step, rfl⟩ := success
  dsimp only at enumerated
  obtain ⟨partition, few, movable⟩ := planTokens_spec planned enumerated
  constructor
  case partition => exact partition
  case once =>
    intro token member
    have there : token.ata ∈ (tokens ++ skippedTokens.map (·.token)).map (·.ata) :=
      List.mem_map_of_mem (partition.symm.subset member)
    have each := List.count_eq_one_of_mem ((partition.map (·.ata)).nodup_iff.mpr distinct) there
    rwa [List.map_append, List.count_append, List.map_map] at each
  case movable => exact ⟨fields, destination, owner, chosen, rfl, movable distinct⟩
  case count => exact few
  case signs =>
    cases owner : params.owner with
    | ed25519 publicKey =>
      rw [owner] at step
      cases Except.ok.inj step
      exact ⟨rebuilds_createMigrateWalletIx few rfl rfl rfl, _, rfl⟩
    | secp256r1 credentialIdHash compressedPubkey rpId =>
      rw [owner] at step
      obtain ⟨inputs, read, made⟩ := Except.bind_eq_ok.mp step
      cases Except.ok.inj made
      intro response instructions final
      simp only [finalizeMigrateWallet, Except.bind_eq_ok, Except.ok.injEq] at final
      obtain ⟨⟨authPayload, precompileIx⟩, signed, rfl⟩ := final
      refine ⟨_, precompileIx, _, authPayload, rfl, rebuilds_createMigrateWalletIx few rfl rfl rfl, ?_⟩
      intro v1Runtime program hash accounts handed
      have key : compressedPubkey = inputs.publicKeyBytes := readChallengeInputs_key read
      have same (payload : Bytes) : prepareSecp256r1 rt.sha256 [discMigrateWallet] payload sysvarIxIndexMigrateWallet
          inputs.slot inputs.counter params.payer v1.wallet (params.v1Program rt) compressedPubkey =
          buildPasskeySigning v1Runtime 17 sysvarIxIndexMigrateWallet payload inputs params.payer v1.wallet := by
        rw [buildPasskeySigning, hash, program, key]
        rfl
      rw [MigrateV1WalletParams.v1Program] at same
      rw [same] at signed ⊢
      exact ⟨_, _, signedAlike signed (by decide) (handed.keyAt rfl) (handed.keyAt rfl)⟩

end Main

namespace Sample

open LazorKit.Sample

/-- The passkey's v1 wallet at the v1 deployment. -/
def v1 : V1Accounts where
  wallet := bytes32 0xb9852b8e9e9ae50dbc082c2f069bf5d13279755dc03423dc65dbe8bbda87f30e
  vault := bytes32 0x2b5770b3aa29bad6b5a1f05542cd93913240d3aa2bc92a74646a0946794af886
  authority := bytes32 0x28c63fa991d8904ee8ec120e85b8617cb49fe846f6983cddf60ff572b9f4cd50

def plainMint : Pubkey := .fill 20
def freezingMint : Pubkey := .fill 23

/-- The v2 vault's token accounts. -/
def plainAta : Pubkey := bytes32 0x870b78c34c8ff846c0a7eabde95f685e4248ee7718013fe3740c79043aa6da5c
def freezingAta : Pubkey := bytes32 0x5ac1a2fcf034269ee329ca0a438ad23512d51d7443d66ed94a91c74b8a7bee83

def derive (program : Pubkey) (seeds : List Bytes) : Pubkey :=
  lookup [((programIdMainnetV1, [v1SeedWallet, userSeed.bytes]), v1.wallet),
    ((programIdMainnetV1, [v1SeedVault, v1.wallet.bytes]), v1.vault),
    ((programIdMainnetV1, [v1SeedAuthority, v1.wallet.bytes, credentialA.bytes]), v1.authority),
    ((associatedTokenProgram, [vault.bytes, splTokenProgram.bytes, plainMint.bytes]), plainAta),
    ((associatedTokenProgram, [vault.bytes, splToken2022Program.bytes, freezingMint.bytes]), freezingAta)]
    (program, seeds)

/-- The v1 Owner, a passkey that has signed once. -/
def v1AuthorityBytes : Bytes :=
  [2, 1, 0, 255, 1, 0, 0, 0, 1, 0, 0, 0, 0, 0, 0, 0] ++ v1.wallet.bytes ++ credentialA.bytes ++ passkey ++
    rpIdHash.bytes

/-- A token account with a delegate option and a state. -/
def tokenBytes (mint holder : Pubkey) (delegate : Bytes) (state : UInt8) : Bytes :=
  mint.bytes ++ holder.bytes ++ Bytes.ofNatLE 8 700 ++ delegate ++ [state] ++ List.replicate 56 0

def noDelegate : Bytes := List.replicate 36 0

/-- A Token-2022 mint whose accounts are frozen when they are made. -/
def freezingMintBytes : Bytes := List.replicate 165 0 ++ [1, 6, 0, 1, 0, 2]

def decodeAddress (bytes : Bytes) : Except Error Pubkey := do
  let got := bytes.length
  Except.ensure (32 ≤ got) ⟨s!"Codec [fixCodecSize] expected 32 bytes, got {got}."⟩
  .ok (readKey bytes 0)

/-- The vault holds a plain account, a frozen one, and one of the freezing mint, for which the v2 vault has an account
already. What stands at the plain destination is given. -/
def migrationReads (there : Option Account) : MigrationReads where
  v1State := .ok fun key =>
    if key = v1.wallet then some ⟨946560, programIdMainnetV1, [1, 255, 1, 0, 0, 0, 0, 0]⟩
    else if key = v1.authority then some ⟨1900080, programIdMainnetV1, v1AuthorityBytes⟩
    else none
  v1AuthorityAccount _ := .ok (some v1AuthorityBytes)
  signedPasskeyAuthorities := .ok []
  vetDestination _ := .ok ⟨none, 1, 1000⟩
  randomBytes := userSeed.bytes
  walletAccount _ := .ok none
  tokenAccounts _ program := .ok (
    if program = splTokenProgram then
      [(.fill 21, tokenBytes plainMint v1.vault noDelegate 1), (.fill 25, tokenBytes plainMint v1.vault noDelegate 2)]
    else [(.fill 26, tokenBytes freezingMint v1.vault noDelegate 1)])
  decodeAddress := decodeAddress
  mints _ := .ok fun key =>
    if key = plainMint then some ⟨1461600, splTokenProgram, List.replicate 82 0⟩
    else if key = freezingMint then some ⟨2000000, splToken2022Program, freezingMintBytes⟩
    else none
  destinations _ _ := .ok fun key =>
    if key = freezingAta then some ⟨2039280, splToken2022Program, tokenBytes freezingMint vault noDelegate 1⟩
    else if key = plainAta then there
    else none
  createWallet _ := .ok [⟨programId, [], createWalletData⟩]
  challenge := { reads with counterAccount := fun _ => .ok (some v1AuthorityBytes) }

def migrationParams : MigrateV1WalletParams where
  payer := payer
  owner := .secp256r1 credentialA.bytes passkey "lazorkit.com"
  userSeed := some userSeed.bytes
  v1Wallet := none
  destinationUserSeed := none
  v1ProgramId := none
  excludeTokenAccounts := []
  refundDestination := none

/-- The runtime with the digest of the migration's challenge. -/
def migrationRuntime : Runtime :=
  { runtime with
    sha256 := lookup (digests ++ [(secp256r1ChallengeInput [17] (buildAuthPayloadPrefix 1010 2 7)
      (vault.bytes ++ v1.wallet.bytes ++ [2] ++ payer.bytes ++ (.fill 21 : Pubkey).bytes ++ (.fill 26 : Pubkey).bytes)
      payer v1.wallet 2 programIdMainnetV1,
      bytes32 0x181e005c86f9e9fd8790aed273b1f0d97d0be3475170522cbbfa4eb66706c7ad)]) }

/-- A token account of the v2 vault with the v2 vault itself as its delegate. -/
def delegating : Account :=
  ⟨2039280, splTokenProgram, tokenBytes plainMint vault ([1, 0, 0, 0] ++ vault.bytes) 1⟩

end Sample

/-- The plain account and the one of the freezing mint move, and the frozen one stays. -/
theorem migrateV1Wallet_accountsForAll_sample : ∃ plan vaultTokens,
    migrateV1Wallet Sample.migrationRuntime Sample.derive (Sample.migrationReads none) Sample.migrationParams =
      .ok plan ∧
    enumerateV1VaultTokens Sample.decodeAddress (Sample.migrationReads none).tokenAccounts plan.v1.vault =
      .ok vaultTokens ∧
    (vaultTokens.map (·.ata)).Nodup ∧
    AccountsForAll Sample.migrationRuntime Sample.derive (Sample.migrationReads none) Sample.migrationParams vaultTokens
      plan := by
  obtain ⟨_, success⟩ := Except.exists_of_succeeded
    (show (migrateV1Wallet Sample.migrationRuntime Sample.derive (Sample.migrationReads none) Sample.migrationParams >>=
      fun plan => enumerateV1VaultTokens Sample.decodeAddress (Sample.migrationReads none).tokenAccounts
        plan.v1.vault >>= fun vaultTokens =>
          Except.ensure ((vaultTokens.map (·.ata)).Nodup ∧ plan.tokens.length = 2) ⟨""⟩).succeeded = true by
      decide +kernel)
  simp only [Except.bind_eq_ok, Except.ensure_eq_ok] at success
  obtain ⟨plan, planned, vaultTokens, enumerated, distinct, _⟩ := success
  exact ⟨plan, vaultTokens, planned, enumerated, distinct,
    migrateV1Wallet_accountsForAll planned enumerated distinct⟩

/-- A destination may have a delegate: the v2 vault itself. -/
theorem migrateV1Wallet_admits_delegate :
    ¬ ∀ (rt : Runtime) (derive : Pubkey → List Bytes → Pubkey) (reads : MigrationReads) (params : MigrateV1WalletParams)
      (plan : MigrationPlan) (vaultTokens : List V1VaultToken), migrateV1Wallet rt derive reads params = .ok plan →
        enumerateV1VaultTokens reads.decodeAddress reads.tokenAccounts plan.v1.vault = .ok vaultTokens →
          (vaultTokens.map (·.ata)).Nodup →
          ∀ token ∈ plan.tokens, ∀ vettedAt info,
            Answered (reads.destinations vettedAt)
              (getAssociatedTokenAddress derive token.mint plan.v2Vault token.tokenProgram) (some info) →
            isSystemAccount (some info) = false → (info.data.slice tokenDelegate 4).toNatLE = 0 := by
  intro always
  obtain ⟨_, success⟩ := Except.exists_of_succeeded
    (show (migrateV1Wallet Sample.migrationRuntime Sample.derive (Sample.migrationReads (some Sample.delegating))
      Sample.migrationParams >>= fun plan =>
        enumerateV1VaultTokens Sample.decodeAddress (Sample.migrationReads (some Sample.delegating)).tokenAccounts
          plan.v1.vault >>= fun vaultTokens => Except.ensure ((vaultTokens.map (·.ata)).Nodup ∧ ∃ token ∈ plan.tokens,
          getAssociatedTokenAddress Sample.derive token.mint plan.v2Vault token.tokenProgram = Sample.plainAta)
          ⟨""⟩).succeeded = true by decide +kernel)
  simp only [Except.bind_eq_ok, Except.ensure_eq_ok] at success
  obtain ⟨plan, planned, vaultTokens, enumerated, distinct, token, member, there⟩ := success
  have unset := always _ _ _ _ plan vaultTokens planned enumerated distinct token member none Sample.delegating
    ⟨0, _, rfl, by rw [there]; decide +kernel⟩ (by decide +kernel)
  exact absurd unset (by decide +kernel)

end LazorKit.Kit
