import LazorKit.Model.Kit.OwnWallet
import LazorKit.Soundness.ChallengeText
import Mathlib.Data.Prod.Lex
import Mathlib.Data.String.Basic

/-! # The rule by which a wallet is chosen

The kit's answer is a function of what the chain says, not of the order in which a node or a caller lists it. The
comparison is that of a lexicographic order, in which only a wallet with itself is a tie, since addresses can be read
back from their text. The key that several proofs determine is the only one that all of them verify against.
-/

namespace LazorKit.Kit

open Solana

/-- The number that base-58 text stands for. -/
def base58Value (text : String) : ℕ := Nat.ofDigits 58 (text.toList.map base58Alphabet.idxOf).reverse

private theorem idxOf_base58Alphabet {digit : ℕ} (low : digit < 58) :
    base58Alphabet.idxOf (base58Alphabet.getD digit '1') = digit := by
  have all : ∀ digit < 58, base58Alphabet.idxOf (base58Alphabet.getD digit '1') = digit := by decide +kernel
  exact all digit low

private theorem base58Value_base58 (bytes : Bytes) : base58Value (base58 bytes) = Bytes.toNatLE bytes.reverse := by
  have zeros (count : ℕ) : Nat.ofDigits 58 (List.replicate count (base58Alphabet.idxOf '1')) = 0 := by
    rw [show base58Alphabet.idxOf '1' = 0 by decide +kernel]
    exact Nat.ofDigits_replicate_zero
  have digits : (Nat.digits 58 (Bytes.toNatLE bytes.reverse)).map
      (fun digit => base58Alphabet.idxOf (base58Alphabet.getD digit '1')) =
        Nat.digits 58 (Bytes.toNatLE bytes.reverse) := by
    apply List.map_congr_left (g := id) (fun digit member => idxOf_base58Alphabet ?_) |>.trans (List.map_id _)
    exact Nat.digits_lt_base (by decide) member
  rw [base58Value, base58, String.toList_ofList, List.map_append, List.map_map, List.reverse_append, List.map_reverse,
    List.reverse_reverse, Nat.ofDigits_append, List.map_replicate, List.reverse_replicate, zeros, Nat.mul_zero,
    Nat.add_zero, Function.comp_def, digits, Nat.ofDigits_digits]

private theorem addressText_injective : Function.Injective addressText := by
  intro first second same
  have values := congrArg base58Value same
  rw [addressText, addressText, base58Value_base58, base58Value_base58] at values
  apply BytesN.bytes_injective
  apply List.reverse_injective
  rw [← Bytes.ofNatLE_toNatLE first.bytes.reverse, ← Bytes.ofNatLE_toNatLE second.bytes.reverse, values,
    List.length_reverse, List.length_reverse, first.length_bytes, second.length_bytes]

/-- What a wallet is compared by: signed for, version, lamports from the most, address. -/
def precedence (f : WalletFacts) : ℕ ×ₗ ℕ ×ₗ ℕᵒᵈ ×ₗ String :=
  toLex (if 0 < f.signatureCount then 0 else 1, toLex (f.version.number, toLex (OrderDual.toDual f.lamports,
    addressText f.walletPda)))

private theorem number_injective : Function.Injective WalletVersion.number := by
  intro first second same
  cases first <;> cases second <;> first | rfl | cases same

private theorem then_le_zero {first rest : ℤ} :
    (if first ≠ 0 then first else rest) ≤ 0 ↔ first < 0 ∨ first = 0 ∧ rest ≤ 0 := by
  split_ifs <;> omega

private theorem ascending_le_zero {m n : ℕ} {rest : ℤ} :
    (if m ≠ n then (m : ℤ) - n else rest) ≤ 0 ↔ m < n ∨ m = n ∧ rest ≤ 0 := by
  split_ifs <;> omega

private theorem descending_le_zero {m n : ℕ} {rest : ℤ} :
    (if m ≠ n then if n < m then -1 else 1 else rest) ≤ 0 ↔ n < m ∨ m = n ∧ rest ≤ 0 := by
  split_ifs <;> omega

private theorem text_le_zero {first second : String} :
    (if first < second then (-1 : ℤ) else if second < first then 1 else 0) ≤ 0 ↔ first ≤ second := by
  rcases lt_trichotomy first second with less | same | more
  · simp [less, less.le]
  · simp [same]
  · simp [more, more.not_gt, more.not_ge]

private theorem then_eq_zero {first rest : ℤ} : (if first ≠ 0 then first else rest) = 0 ↔ first = 0 ∧ rest = 0 := by
  split_ifs <;> omega

private theorem ascending_eq_zero {m n : ℕ} {rest : ℤ} :
    (if m ≠ n then (m : ℤ) - n else rest) = 0 ↔ m = n ∧ rest = 0 := by
  split_ifs <;> omega

private theorem descending_eq_zero {m n : ℕ} {rest : ℤ} :
    (if m ≠ n then if n < m then -1 else 1 else rest) = 0 ↔ m = n ∧ rest = 0 := by
  rcases lt_trichotomy m n with less | same | more
  · simp [less.ne, less.not_gt]
  · simp [same]
  · simp [more, more.ne']

private theorem text_eq_zero {first second : String} :
    (if first < second then (-1 : ℤ) else if second < first then 1 else 0) = 0 ↔ first = second := by
  rcases lt_trichotomy first second with less | same | more
  · simp [less, less.ne]
  · simp [same]
  · simp [more, more.not_gt, more.ne']

private theorem compareFacts_le_zero (a b : WalletFacts) : compareFacts a b ≤ 0 ↔ precedence a ≤ precedence b := by
  have version : a.version ≠ b.version ↔ a.version.number ≠ b.version.number := number_injective.ne_iff.symm
  have signed : ((if 0 < b.signatureCount then 1 else 0) - (if 0 < a.signatureCount then 1 else 0) : ℤ) < 0 ↔
      (if 0 < a.signatureCount then 0 else 1) < if 0 < b.signatureCount then 0 else 1 := by
    split_ifs <;> decide
  have alike : ((if 0 < b.signatureCount then 1 else 0) - (if 0 < a.signatureCount then 1 else 0) : ℤ) = 0 ↔
      (if 0 < a.signatureCount then 0 else 1) = if 0 < b.signatureCount then 0 else 1 := by
    split_ifs <;> decide
  simp only [compareFacts, version, then_le_zero, ascending_le_zero, descending_le_zero, text_le_zero, signed, alike,
    precedence, Prod.Lex.toLex_le_toLex, OrderDual.toDual_lt_toDual, OrderDual.toDual_inj]

variable {facts facts' : List WalletFacts}

/-- Only wallets of one version and address are alike in the order. -/
theorem precedence_eq {a b : WalletFacts} (same : precedence a = precedence b) :
    a.version = b.version ∧ a.walletPda = b.walletPda := by
  have parts := toLex.injective same
  simp only [Prod.mk.injEq] at parts
  have inner := toLex.injective parts.2
  simp only [Prod.mk.injEq] at inner
  have last := toLex.injective inner.2
  simp only [Prod.mk.injEq] at last
  exact ⟨number_injective inner.1, addressText_injective last.2⟩

/-- No two wallets are alike in what the kit compares. -/
theorem walletPda_eq_of_tie {a b : WalletFacts} (tie : compareFacts a b = 0) :
    a.version = b.version ∧ a.walletPda = b.walletPda := by
  have version : a.version ≠ b.version ↔ a.version.number ≠ b.version.number := number_injective.ne_iff.symm
  simp only [compareFacts, version, then_eq_zero, ascending_eq_zero, descending_eq_zero, text_eq_zero] at tie
  obtain ⟨_, number, _, text⟩ := tie
  exact ⟨number_injective number, addressText_injective text⟩

/-- The facts in the order they are shown. -/
def inOrder (facts : List WalletFacts) : List WalletFacts := facts.mergeSort fun a b => decide (compareFacts a b ≤ 0)

private theorem pairwise_inOrder : (inOrder facts).Pairwise fun a b => precedence a ≤ precedence b := by
  have sorted : (inOrder facts).Pairwise fun a b => decide (compareFacts a b ≤ 0) = true := by
    apply List.pairwise_mergeSort
    · intro a b c
      simp only [decide_eq_true_eq, compareFacts_le_zero]
      exact le_trans
    · intro a b
      simp only [Bool.or_eq_true, decide_eq_true_eq, compareFacts_le_zero]
      exact le_total _ _
  exact sorted.imp fun related => (compareFacts_le_zero _ _).mp (of_decide_eq_true related)

/-- The order of the list does not matter, if no two entries are of one wallet. -/
theorem inOrder_perm (perm : facts.Perm facts')
    (apart : ∀ a ∈ facts, ∀ b ∈ facts, a.version = b.version → a.walletPda = b.walletPda → a = b) :
    inOrder facts = inOrder facts' := by
  have same : (inOrder facts).Perm (inOrder facts') :=
    (List.mergeSort_perm facts _).trans (perm.trans (List.mergeSort_perm facts' _).symm)
  apply same.eq_of_pairwise _ pairwise_inOrder pairwise_inOrder
  intro a b inFirst inSecond before after
  have listed : b ∈ facts := perm.mem_iff.mpr ((List.mergeSort_perm facts' _).mem_iff.mp inSecond)
  obtain ⟨version, wallet⟩ := precedence_eq (le_antisymm before after)
  exact apart a ((List.mergeSort_perm facts _).mem_iff.mp inFirst) b listed version wallet

private theorem filter_inOrder_eq {f : WalletFacts} (p : WalletFacts → Bool) :
    (inOrder facts).filter p = [f] ↔ facts.filter p = [f] := by
  have perm := (List.mergeSort_perm facts fun a b => decide (compareFacts a b ≤ 0)).filter p
  constructor
  · intro only
    exact List.perm_singleton.mp (perm.symm.trans (by rw [← only]; rfl))
  · intro only
    exact List.perm_singleton.mp (perm.trans (by rw [only]))

/-- Either one wallet is adopted, or all are shown. -/
theorem pickOwnWallet_cases (facts : List WalletFacts) :
    (∃ f, (facts.filter fun f => decide (0 < f.signatureCount)) = [f] ∧ f.controlledAlone = true ∧
      pickOwnWallet facts = ⟨some f, []⟩) ∨
    (∀ f, (facts.filter fun f => decide (0 < f.signatureCount)) = [f] → f.controlledAlone = false) ∧
      pickOwnWallet facts = ⟨none, inOrder facts⟩ := by
  have sorted : (facts.mergeSort fun a b => decide (compareFacts a b ≤ 0)) = inOrder facts := rfl
  unfold pickOwnWallet
  rw [sorted]
  dsimp only
  split
  · next only signed =>
    by_cases alone : only.controlledAlone = true
    · exact .inl ⟨only, (filter_inOrder_eq _).mp signed, alone, if_pos alone⟩
    · refine .inr ⟨fun f is => ?_, if_neg alone⟩
      have same := signed.symm.trans ((filter_inOrder_eq _).mpr is)
      cases List.singleton_inj.mp same
      exact Bool.eq_false_iff.mpr alone
  · next several =>
    exact .inr ⟨fun f is => absurd ((filter_inOrder_eq _).mpr is) (several f), rfl⟩

theorem adopt_eq_some {f : WalletFacts} : (pickOwnWallet facts).adopt = some f ↔
    (facts.filter fun f => decide (0 < f.signatureCount)) = [f] ∧ f.controlledAlone = true := by
  rcases pickOwnWallet_cases facts with ⟨only, signed, alone, picked⟩ | ⟨shared, picked⟩
  · rw [picked, signed, List.singleton_inj, Option.some_inj]
    constructor
    · rintro rfl
      exact ⟨rfl, alone⟩
    · exact And.left
  · rw [picked]
    constructor
    · intro is
      cases is
    · rintro ⟨signed, alone⟩
      rw [shared f signed] at alone
      cases alone

/-- The pick depends on the wallets alone. It adopts exactly the one wallet that the passkey has signed for, if that
is controlled alone; otherwise it shows every wallet, those that come first in the order first. Only a wallet with
itself is a tie. -/
theorem pick_by_rule (perm : facts.Perm facts')
    (apart : ∀ a ∈ facts, ∀ b ∈ facts, a.version = b.version → a.walletPda = b.walletPda → a = b) :
    pickOwnWallet facts' = pickOwnWallet facts ∧
      (∀ f, (pickOwnWallet facts).adopt = some f ↔
        (facts.filter fun f => decide (0 < f.signatureCount)) = [f] ∧ f.controlledAlone = true) ∧
      ((pickOwnWallet facts).adopt ≠ none → (pickOwnWallet facts).needsConfirmation = []) ∧
      ((pickOwnWallet facts).adopt = none → (pickOwnWallet facts).needsConfirmation.Perm facts ∧
        (pickOwnWallet facts).needsConfirmation.Pairwise fun a b => precedence a ≤ precedence b) ∧
      ∀ a ∈ facts, ∀ b ∈ facts, compareFacts a b = 0 → a = b := by
  have same : pickOwnWallet facts' = pickOwnWallet facts := by
    unfold pickOwnWallet
    rw [show (facts'.mergeSort fun a b => decide (compareFacts a b ≤ 0)) = _ from (inOrder_perm perm apart).symm]
    rfl
  have untied : ∀ a ∈ facts, ∀ b ∈ facts, compareFacts a b = 0 → a = b := by
    intro a listed b listed' tie
    obtain ⟨version, wallet⟩ := walletPda_eq_of_tie tie
    exact apart a listed b listed' version wallet
  refine ⟨same, fun f => adopt_eq_some, ?_⟩
  rcases pickOwnWallet_cases facts with ⟨only, signed, alone, picked⟩ | ⟨shared, picked⟩
  · rw [picked]
    exact ⟨fun _ => rfl, fun nothing => absurd nothing (Option.some_ne_none _), untied⟩
  · rw [picked]
    exact ⟨fun adopted => absurd rfl adopted, fun _ => ⟨List.mergeSort_perm facts _, pairwise_inOrder⟩, untied⟩

namespace Sample

/-- A wallet that nobody else can spend from. -/
def alone (wallet : Pubkey) (lamports signatureCount : ℕ) : WalletFacts where
  version := .v2
  programId := .fill 0
  walletPda := wallet
  vaultPda := .fill 1
  authorityPda := .fill 2
  publicKey := List.replicate 33 3
  lamports := lamports
  slot := 1000
  otherAuthorities := []
  liveSessions := []
  pendingDeferred := []
  vaultIsSystemAccount := true
  tokenGrants := []
  controlledAlone := true
  signatureCount := signatureCount

end Sample

/-- A planted wallet that is fuller is passed over, wherever it is listed. -/
theorem pick_by_rule_sample :
    pickOwnWallet [Sample.alone (.fill 5) 900 0, Sample.alone (.fill 4) 10 3] =
        pickOwnWallet [Sample.alone (.fill 4) 10 3, Sample.alone (.fill 5) 900 0] ∧
      (pickOwnWallet [Sample.alone (.fill 4) 10 3, Sample.alone (.fill 5) 900 0]).adopt =
        some (Sample.alone (.fill 4) 10 3) := by
  obtain ⟨same, adopts, _⟩ :=
    pick_by_rule (List.Perm.swap (Sample.alone (.fill 5) 900 0) (Sample.alone (.fill 4) 10 3) []) (by decide +kernel)
  exact ⟨same, (adopts _).mpr (by decide +kernel)⟩

section Resolve

variable {lib : ProofLibraries} {proof : OwnershipProof} {proofs proofs' rest : List OwnershipProof} {rpId : String}
  {digest : Bytes32} {key : Bytes}

/-- A recovery id gives the key, and the proof verifies against it. -/
def Recovers (lib : ProofLibraries) (proof : OwnershipProof) (digest : Bytes32) (entry : SignatureFormat × ℕ)
    (key : Bytes) : Prop :=
  lib.recoverPublicKey entry.1 proof.signature entry.2 digest = some key ∧ key.length = 33 ∧
    p256Verifies lib proof.signature digest key = true

private theorem mem_recoverStep {keys : List Bytes} {entry : SignatureFormat × ℕ} :
    key ∈ recoverStep lib proof digest keys entry ↔ key ∈ keys ∨ Recovers lib proof digest entry key := by
  unfold recoverStep Recovers
  split
  · next none => simp [none]
  · next found some =>
    rw [some, Option.some_inj]
    split_ifs with width fails known
    · refine (or_iff_left ?_).symm
      rintro ⟨rfl, long, _⟩
      exact width long
    · refine (or_iff_left ?_).symm
      rintro ⟨rfl, _, verifies⟩
      rw [fails] at verifies
      cases verifies
    · refine (or_iff_left_of_imp ?_).symm
      rintro ⟨rfl, _⟩
      exact List.contains_iff_mem.mp known
    · rw [List.mem_append, List.mem_singleton]
      apply or_congr_right
      constructor
      · rintro rfl
        exact ⟨rfl, not_not.mp width, by simpa using fails⟩
      · rintro ⟨rfl, _⟩
        rfl

private theorem nodup_recoverStep {keys : List Bytes} {entry : SignatureFormat × ℕ} (nodup : keys.Nodup) :
    (recoverStep lib proof digest keys entry).Nodup := by
  unfold recoverStep
  split
  · exact nodup
  · next found some =>
    split_ifs with width fails known
    · exact nodup
    · exact nodup
    · exact nodup
    · apply List.nodup_append.mpr
      refine ⟨nodup, List.nodup_singleton _, fun key member other isNew same => known ?_⟩
      rw [List.mem_singleton.mp isNew] at same
      exact List.contains_iff_mem.mpr (same ▸ member)

private theorem mem_foldl_recoverStep {entries : List (SignatureFormat × ℕ)} {keys : List Bytes} :
    key ∈ entries.foldl (recoverStep lib proof digest) keys ↔
      key ∈ keys ∨ ∃ entry ∈ entries, Recovers lib proof digest entry key := by
  induction entries generalizing keys with
  | nil => simp
  | cons entry entries ih => rw [List.foldl_cons, ih, mem_recoverStep, List.exists_mem_cons_iff, or_assoc]

private theorem nodup_foldl_recoverStep {entries : List (SignatureFormat × ℕ)} {keys : List Bytes}
    (nodup : keys.Nodup) :
    (entries.foldl (recoverStep lib proof digest) keys).Nodup := by
  induction entries generalizing keys with
  | nil => exact nodup
  | cons entry entries ih => exact ih (nodup_recoverStep nodup)

private theorem nodup_recoverPasskeyPublicKeys : (recoverPasskeyPublicKeys lib proof rpId).Nodup := by
  unfold recoverPasskeyPublicKeys
  split
  · exact List.nodup_nil
  · exact nodup_foldl_recoverStep List.nodup_nil

/-- The keys a proof leaves: each is recovered from it, and verifies. -/
theorem mem_recoverPasskeyPublicKeys : key ∈ recoverPasskeyPublicKeys lib proof rpId ↔
    ∃ digest, assertionDigest lib proof rpId = some digest ∧
      ∃ format, ∃ recovery < 4, Recovers lib proof digest (format, recovery) key := by
  unfold recoverPasskeyPublicKeys
  split
  · next none => simp [none]
  · next digest some =>
    rw [mem_foldl_recoverStep, some]
    simp only [List.not_mem_nil, false_or, Option.some_inj, exists_eq_left']
    constructor
    · rintro ⟨⟨format, recovery⟩, listed, recovers⟩
      simp only [List.mem_flatMap, List.mem_map, List.mem_range, Prod.mk.injEq] at listed
      obtain ⟨_, _, _, low, rfl, rfl⟩ := listed
      exact ⟨_, _, low, recovers⟩
    · rintro ⟨format, recovery, low, recovers⟩
      refine ⟨(format, recovery), ?_, recovers⟩
      apply List.mem_flatMap.mpr
      exact ⟨format, by cases format <;> decide, List.mem_map_of_mem (List.mem_range.mpr low)⟩

/-- Filtering by one proof after the other. -/
theorem mem_foldl_common {common : List Bytes} :
    key ∈ rest.foldl (fun common proof => common.filter (recoverPasskeyPublicKeys lib proof rpId).contains) common ↔
      key ∈ common ∧ ∀ proof ∈ rest, key ∈ recoverPasskeyPublicKeys lib proof rpId := by
  induction rest generalizing common with
  | nil => simp
  | cons proof rest ih =>
    rw [List.foldl_cons, ih, List.mem_filter, List.contains_iff_mem, List.forall_mem_cons, and_assoc]

private theorem nodup_foldl_common {common : List Bytes} (nodup : common.Nodup) :
    (rest.foldl (fun common proof => common.filter (recoverPasskeyPublicKeys lib proof rpId).contains)
      common).Nodup := by
  induction rest generalizing common with
  | nil => exact nodup
  | cons proof rest ih => exact ih (nodup.filter _)

private theorem eq_singleton_iff {keys : List Bytes} (nodup : keys.Nodup) :
    keys = [key] ↔ ∀ other, other ∈ keys ↔ other = key := by
  constructor
  · rintro rfl other
    exact List.mem_singleton
  · intro only
    apply List.perm_singleton.mp
    apply (List.perm_ext_iff_of_nodup nodup (List.nodup_singleton key)).mpr
    intro other
    rw [only other, List.mem_singleton]

private theorem resolvePasskeyPublicKey_eq_some : resolvePasskeyPublicKey lib proofs rpId = some key ↔
    2 ≤ proofs.length ∧ proofs.Pairwise (·.challenge ≠ ·.challenge) ∧
      ∀ other, (∀ proof ∈ proofs, other ∈ recoverPasskeyPublicKeys lib proof rpId) ↔ other = key := by
  match proofs with
  | [] => simp [resolvePasskeyPublicKey]
  | [only] => simp [resolvePasskeyPublicKey]
  | first :: second :: rest =>
    have long : 2 ≤ (first :: second :: rest).length := by simp
    rw [and_iff_right long, resolvePasskeyPublicKey]
    by_cases apart : (first :: second :: rest).Pairwise (·.challenge ≠ ·.challenge)
    · rw [if_neg (not_not.mpr apart), and_iff_right apart]
      have common (other : Bytes) : other ∈ (second :: rest).foldl
          (fun common proof => common.filter (recoverPasskeyPublicKeys lib proof rpId).contains)
          (recoverPasskeyPublicKeys lib first rpId) ↔
          ∀ proof ∈ first :: second :: rest, other ∈ recoverPasskeyPublicKeys lib proof rpId := by
        rw [mem_foldl_common, List.forall_mem_cons (a := first)]
      simp only [← common]
      rw [← eq_singleton_iff (nodup_foldl_common nodup_recoverPasskeyPublicKeys)]
      split
      · next only single => rw [single, Option.some_inj, List.singleton_inj]
      · next several =>
        constructor
        · intro is
          cases is
        · intro is
          exact absurd is (several key)
    · rw [if_pos apart]
      constructor
      · intro is
        cases is
      · rintro ⟨is, _⟩
        exact absurd is apart

/-- A key is resolved exactly if it alone is left by every one of several proofs over different challenges, in
whichever order they come; every proof then verifies against it. -/
theorem resolve_by_rule (perm : proofs.Perm proofs') :
    (∀ key, resolvePasskeyPublicKey lib proofs rpId = some key ↔
      2 ≤ proofs.length ∧ proofs.Pairwise (·.challenge ≠ ·.challenge) ∧
        ∀ other, (∀ proof ∈ proofs, other ∈ recoverPasskeyPublicKeys lib proof rpId) ↔ other = key) ∧
      resolvePasskeyPublicKey lib proofs' rpId = resolvePasskeyPublicKey lib proofs rpId ∧
      ∀ key, resolvePasskeyPublicKey lib proofs rpId = some key → ∀ proof ∈ proofs,
        verifyOwnershipProof lib id [key] proof rpId = [key] := by
  refine ⟨fun key => resolvePasskeyPublicKey_eq_some, ?_, ?_⟩
  · apply Option.ext
    intro key
    rw [resolvePasskeyPublicKey_eq_some, resolvePasskeyPublicKey_eq_some, perm.length_eq,
      perm.pairwise_iff fun apart => Ne.symm apart]
    simp only [perm.mem_iff]
  · intro key resolved proof listed
    obtain ⟨_, _, only⟩ := resolvePasskeyPublicKey_eq_some.mp resolved
    obtain ⟨digest, covers, _, _, _, recovers⟩ := mem_recoverPasskeyPublicKeys.mp ((only key).mpr rfl proof listed)
    obtain ⟨_, _, verifies⟩ := recovers
    rw [verifyOwnershipProof, covers]
    exact List.filter_eq_self.mpr fun other member => by rwa [List.mem_singleton.mp member]

end Resolve

namespace Sample

/-- `A–Z a–z 0–9 + /`. -/
def base64Alphabet : Bytes :=
  [65, 66, 67, 68, 69, 70, 71, 72, 73, 74, 75, 76, 77, 78, 79, 80, 81, 82, 83, 84, 85, 86, 87, 88, 89, 90, 97, 98, 99,
    100, 101, 102, 103, 104, 105, 106, 107, 108, 109, 110, 111, 112, 113, 114, 115, 116, 117, 118, 119, 120, 121, 122,
    48, 49, 50, 51, 52, 53, 54, 55, 56, 57, 43, 47]

def base64Letter (group place : ℕ) : UInt8 := base64Alphabet.getD (group / 64 ^ place % 64) 0

/-- Base64 with padding, three bytes to four letters. -/
def base64 : Bytes → Bytes
  | [] => []
  | [a] =>
    let group := a.toNat * 65536
    [base64Letter group 3, base64Letter group 2, 61, 61]
  | [a, b] =>
    let group := a.toNat * 65536 + b.toNat * 256
    [base64Letter group 3, base64Letter group 2, base64Letter group 1, 61]
  | a :: b :: c :: rest =>
    let group := a.toNat * 65536 + b.toNat * 256 + c.toNat
    base64Letter group 3 :: base64Letter group 2 :: base64Letter group 1 :: base64Letter group 0 :: base64 rest

/-- The signer's key, which both proofs leave. -/
def signer : Bytes := List.replicate 33 3

/-- Libraries for which an assertion leaves its signer's key and another that depends on the signature. -/
def twoKeys : ProofLibraries where
  sha256 _ := .fill 0
  parseClientData json := some ⟨some webauthnGet, some json⟩
  verifies format signature _ key := format = .compact && (key = signer || key = 2 :: signature)
  recoverPublicKey format signature recovery _ :=
    if format = .compact ∧ recovery < 2 then some (if recovery = 0 then signer else 2 :: signature) else none
  base64 := base64

/-- An assertion over a challenge of one repeated byte. -/
def proofOver (b : UInt8) : OwnershipProof where
  challenge := List.replicate 32 b
  signature := List.replicate 32 b
  authenticatorData := List.replicate 32 0 ++ [1, 0, 0, 0, 0]
  clientDataJson := base64UrlNoPad twoKeys (List.replicate 32 b)

end Sample

/-- Each of two proofs leaves two keys, and both together the signer's. -/
theorem resolve_by_rule_sample :
    resolvePasskeyPublicKey Sample.twoKeys [Sample.proofOver 8, Sample.proofOver 7] "lazorkit.com" =
        some Sample.signer ∧
      (recoverPasskeyPublicKeys Sample.twoKeys (Sample.proofOver 7) "lazorkit.com").length = 2 := by
  have same : resolvePasskeyPublicKey Sample.twoKeys [Sample.proofOver 8, Sample.proofOver 7] "lazorkit.com" =
      resolvePasskeyPublicKey Sample.twoKeys [Sample.proofOver 7, Sample.proofOver 8] "lazorkit.com" :=
    (resolve_by_rule (List.Perm.swap (Sample.proofOver 8) (Sample.proofOver 7) [])).2.1
  exact ⟨same.trans (by decide +kernel), by decide +kernel⟩

end LazorKit.Kit
