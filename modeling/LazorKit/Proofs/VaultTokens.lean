import LazorKit.Model.Kit.Migration

/-! # Triage of the vault's token accounts

What each pass over the token accounts keeps and what it leaves behind, and why. A pass neither loses an account
nor lists one twice; the pages of a list put together are the list; and each blocker says that none of its reasons
applies when it gives none.
-/

namespace LazorKit.Kit

open Solana

private theorem flatten_pages {α : Type*} (list : List α) : (pages list).flatten = list := by
  have front (count : ℕ) :
      ((List.range count).map fun page => (list.drop (100 * page)).take 100).flatten = list.take (100 * count) := by
    induction count with
    | zero => simp
    | succ count ih =>
      rw [List.range_succ, List.map_append, List.flatten_append, ih, Nat.mul_succ, List.take_add]
      simp
  rw [pages, front]
  exact List.take_of_length_le (by omega)

/-- The node answered for an address. -/
def Answered (views : ℕ → Except Error (Pubkey → Option Account)) (address : Pubkey) (account : Option Account) :
    Prop :=
  ∃ page view, views page = .ok view ∧ view address = account

/-- Every member is answered once, and in order. -/
theorem readPages_rows {α : Type} {views : ℕ → Except Error (Pubkey → Option Account)} {address : α → Pubkey}
    {list : List α} {rows : List (α × Option Account)} (success : readPages views address list = .ok rows) :
    rows.map Prod.fst = list ∧ ∀ row ∈ rows, Answered views (address row.1) row.2 := by
  simp only [readPages, Except.bind_eq_ok, Except.mapM_eq_ok, Except.ok.injEq] at success
  obtain ⟨answers, each, rfl⟩ := success
  have collected (numbered : List (List α × ℕ)) (answers : List (List (α × Option Account)))
      (each : List.Forall₂ (fun page answer => ∃ view, views page.2 = .ok view ∧
        (page.1.map fun item => (item, view (address item))) = answer) numbered answers) :
      answers.flatten.map Prod.fst = (numbered.map Prod.fst).flatten ∧
        ∀ row ∈ answers.flatten, Answered views (address row.1) row.2 := by
    induction each with
    | nil => exact ⟨rfl, fun _ member => absurd member List.not_mem_nil⟩
    | cons head _ ih =>
      obtain ⟨view, answered, rfl⟩ := head
      refine ⟨?_, ?_⟩
      · rw [List.flatten_cons, List.map_append, List.map_map, ih.1, List.map_cons, List.flatten_cons]
        simp [Function.comp_def]
      · intro row member
        rw [List.flatten_cons, List.mem_append] at member
        rcases member with here | later
        · obtain ⟨item, _, rfl⟩ := List.mem_map.mp here
          exact ⟨_, view, answered, rfl⟩
        · exact ih.2 row later
  obtain ⟨members, answered⟩ := collected _ _ each
  refine ⟨?_, answered⟩
  rw [members, List.zipIdx_map_fst, flatten_pages]

section Pass

variable {reason : V1VaultToken → Option UnmovableReason} {tokens : List V1VaultToken}

/-- A pass loses nothing and adds nothing. -/
theorem skipPass_perm (reason : V1VaultToken → Option UnmovableReason) (tokens : List V1VaultToken) :
    ((skipPass reason tokens).1 ++ (skipPass reason tokens).2.map (·.token)).Perm tokens := by
  induction tokens with
  | nil => exact .refl _
  | cons token rest ih =>
    rw [skipPass]
    cases why : reason token with
    | none => exact ih.cons token
    | some why => exact List.perm_middle.trans (ih.cons token)

theorem mem_kept {token : V1VaultToken} :
    token ∈ (skipPass reason tokens).1 ↔ token ∈ tokens ∧ reason token = none := by
  induction tokens with
  | nil => simp [skipPass]
  | cons first rest ih =>
    rw [skipPass]
    cases why : reason first with
    | none =>
      simp only [List.mem_cons, ih]
      constructor
      · rintro (rfl | ⟨later, none⟩)
        · exact ⟨.inl rfl, why⟩
        · exact ⟨.inr later, none⟩
      · rintro ⟨rfl | later, none⟩
        · exact .inl rfl
        · exact .inr ⟨later, none⟩
    | some why =>
      simp only [List.mem_cons, ih]
      constructor
      · rintro ⟨later, none⟩
        exact ⟨.inr later, none⟩
      · rintro ⟨rfl | later, none⟩
        · rw [none] at why
          cases why
        · exact ⟨later, none⟩

private theorem mem_skipped {skipped : SkippedToken} (member : skipped ∈ (skipPass reason tokens).2) :
    skipped.token ∈ tokens ∧ reason skipped.token = some skipped.reason := by
  induction tokens with
  | nil => cases member
  | cons first rest ih =>
    rw [skipPass] at member
    cases why : reason first with
    | none =>
      rw [why] at member
      exact ⟨List.mem_cons_of_mem _ (ih member).1, (ih member).2⟩
    | some why' =>
      rw [why] at member
      rcases List.mem_cons.mp member with rfl | later
      · exact ⟨List.mem_cons_self .., why⟩
      · exact ⟨List.mem_cons_of_mem _ (ih later).1, (ih later).2⟩

end Pass

/-- What keeps a token account from being moved at all. -/
inductive AccountBlocks (data : Bytes) : UnmovableReason → Prop
  | frozen (state : data.byte tokenStateOffset = tokenStateFrozen) : AccountBlocks data .frozen
  | nonTransferable (extended : (tlvExtensions data).has extNonTransferableAccount = true) :
      AccountBlocks data .nonTransferable
  | cpiGuard (value : Bytes) (extended : (tlvExtensions data).get? extCpiGuard = some value)
      (locked : value.head? ≠ some 0) : AccountBlocks data .cpiGuard

/-- What keeps every account of a Token-2022 mint from being moved. -/
inductive MintBlocks (data : Bytes) : UnmovableReason → Prop
  | nonTransferable (extended : (tlvExtensions data).has extNonTransferable = true) : MintBlocks data .nonTransferable
  | transferHook (value : Bytes) (extended : (tlvExtensions data).get? extTransferHook = some value)
      (long : 64 ≤ value.length) (named : (value.slice 32 32).isZero = false) : MintBlocks data .transferHook
  | paused (value : Bytes) (extended : (tlvExtensions data).get? extPausable = some value) (long : 33 ≤ value.length)
      (set : value.byte 32 ≠ 0) : MintBlocks data .paused
  | frozenOnArrival (value : Bytes) (extended : (tlvExtensions data).get? extDefaultAccountState = some value)
      (state : value.head? = some tokenStateFrozen) : MintBlocks data .frozenOnArrival

theorem not_accountBlocks {data : Bytes} (clear : tokenAccountBlocker data = none) (reason : UnmovableReason) :
    ¬ AccountBlocks data reason := by
  dsimp only [tokenAccountBlocker] at clear
  split_ifs at clear with state extended guard
  intro blocks
  cases blocks with
  | frozen frozen => exact state frozen
  | nonTransferable forbids => exact extended forbids
  | cpiGuard value found locked => exact guard (by simp [found, locked])

theorem tokenAccountBlocker_ne_frozenOnArrival (data : Bytes) :
    tokenAccountBlocker data ≠ some .frozenOnArrival := by
  dsimp only [tokenAccountBlocker]
  split_ifs <;> simp

private theorem isSome_mintTransferHook {data value : Bytes}
    (extended : (tlvExtensions data).get? extTransferHook = some value) (long : 64 ≤ value.length)
    (named : (value.slice 32 32).isZero = false) : (mintTransferHook data).isSome = true := by
  simp only [mintTransferHook, extended]
  rw [if_neg (by omega), if_pos named]
  rfl

/-- Frozen-on-arrival comes last: where it is the answer, or none is, no other reason applies. -/
theorem mintBlocker_of_mintBlocks {data : Bytes} {reason : UnmovableReason} (blocks : MintBlocks data reason)
    (late : mintBlocker data = none ∨ mintBlocker data = some .frozenOnArrival) :
    reason = .frozenOnArrival ∧ mintBlocker data = some .frozenOnArrival := by
  dsimp only [mintBlocker] at late ⊢
  cases blocks with
  | nonTransferable extended => simp [extended] at late
  | transferHook value extended long named =>
    simp only [isSome_mintTransferHook extended long named, if_true] at late
    split_ifs at late <;> simp at late
  | paused value extended long set =>
    have paused : ((tlvExtensions data).get? extPausable).any
        (fun pausable => decide (33 ≤ pausable.length ∧ pausable.byte 32 ≠ 0)) = true := by simp [extended, long, set]
    simp only [paused, if_true] at late
    split_ifs at late <;> simp at late
  | frozenOnArrival value extended state =>
    have frozen : ((tlvExtensions data).get? extDefaultAccountState).any
        (fun value => decide (value.head? = some tokenStateFrozen)) = true := by simp [extended, state]
    simp only [frozen, if_true] at late ⊢
    split_ifs at late ⊢ <;> simp at late ⊢

/-- A token account of the vault, with its data, as the node lists it. -/
structure ListedAs (decodeAddress : Bytes → Except Error Pubkey) (rows : TokenRows) (vault : Pubkey)
    (token : V1VaultToken) (data : Bytes) : Prop where
  listed : ∃ value, rows vault token.tokenProgram = .ok value ∧ (token.ata, data) ∈ value
  read : vaultTokenOf decodeAddress token.tokenProgram (token.ata, data) = .ok token

/-- What a row of the answer turns into. -/
theorem vaultTokenOf_eq_ok {decodeAddress : Bytes → Except Error Pubkey} {tokenProgram : Pubkey}
    {entry : Pubkey × Bytes} {token : V1VaultToken} (read : vaultTokenOf decodeAddress tokenProgram entry = .ok token) :
    token.ata = entry.1 ∧ token.tokenProgram = tokenProgram ∧ token.blocker = tokenAccountBlocker entry.2 := by
  simp only [vaultTokenOf, Except.bind_eq_ok] at read
  obtain ⟨_, _, _, _, made⟩ := read
  cases Except.ok.inj made
  exact ⟨rfl, rfl, rfl⟩

theorem ListedAs.blocker {decodeAddress : Bytes → Except Error Pubkey} {rows : TokenRows} {vault : Pubkey}
    {token : V1VaultToken} {data : Bytes} (listed : ListedAs decodeAddress rows vault token data) :
    token.blocker = tokenAccountBlocker data :=
  (vaultTokenOf_eq_ok listed.read).2.2

theorem listedAs_of_enumerate {decodeAddress : Bytes → Except Error Pubkey} {rows : TokenRows} {vault : Pubkey}
    {tokens : List V1VaultToken} (success : enumerateV1VaultTokens decodeAddress rows vault = .ok tokens)
    {token : V1VaultToken} (member : token ∈ tokens) : ∃ data, ListedAs decodeAddress rows vault token data := by
  simp only [enumerateV1VaultTokens, Except.bind_eq_ok, Except.mapM_eq_ok, Except.ok.injEq] at success
  obtain ⟨answers, each, rfl⟩ := success
  obtain ⟨answer, there, here⟩ := List.mem_flatten.mp member
  obtain ⟨tokenProgram, _, value, answered, rows⟩ := each.exists_left there
  obtain ⟨entry, listed, read⟩ := rows.exists_left here
  obtain ⟨sameAta, rfl, _⟩ := vaultTokenOf_eq_ok read
  refine ⟨entry.2, ⟨value, answered, ?_⟩, ?_⟩
  · rw [sameAta]
    exact listed
  · rw [sameAta]
    exact read

/-- A token the second pass keeps, or skips only because its mint freezes new accounts, has a mint of its own program
that nothing else blocks. -/
theorem unmovableReason_late {mint : Option Account} {token : V1VaultToken}
    (late : unmovableReason mint token = none ∨ unmovableReason mint token = some .frozenOnArrival)
    (own : token.blocker ≠ some .frozenOnArrival) :
    token.blocker = none ∧ token.frozen = false ∧ ∃ info, mint = some info ∧ info.owner = token.tokenProgram ∧
      (token.tokenProgram = splToken2022Program → mintBlocker info.data = unmovableReason mint token) := by
  cases blocker : token.blocker with
  | some reason =>
    have same : unmovableReason mint token = some reason := by simp [unmovableReason, blocker]
    rw [same, ← blocker] at late
    rcases late with none | arrival
    · rw [blocker] at none
      cases none
    · exact absurd arrival own
  | none =>
    cases frozen : token.frozen with
    | true => simp [unmovableReason, blocker, frozen] at late
    | false =>
      cases mint with
      | none => simp [unmovableReason, blocker, frozen] at late
      | some info =>
        by_cases owned : info.owner = token.tokenProgram
        · refine ⟨rfl, rfl, info, rfl, owned, fun token2022 => ?_⟩
          simp [unmovableReason, blocker, frozen, owned, token2022]
        · simp [unmovableReason, blocker, frozen, owned] at late

/-- What the first two passes found for a token: it is not excluded, and with the answer for its mint the second pass
came to this reason. -/
def Classified (views : ℕ → Except Error (Pubkey → Option Account)) (exclude : List Pubkey) (token : V1VaultToken)
    (reason : Option UnmovableReason) : Prop :=
  token.ata ∉ exclude ∧ ∃ mint, (mint = none ∨ Answered views token.mint mint) ∧ unmovableReason mint token = reason

/-- Classification loses no account, and what it says of each it keeps or skips on arrival. -/
theorem classifyV1VaultTokens_spec {views : ℕ → Except Error (Pubkey → Option Account)}
    {tokens movable : List V1VaultToken} {exclude : List Pubkey} {skipped : List SkippedToken}
    (success : classifyV1VaultTokens views tokens exclude = .ok (movable, skipped)) :
    (movable ++ skipped.map (·.token)).Perm tokens ∧
      (∀ token ∈ movable, Classified views exclude token none) ∧
      ∀ entry ∈ skipped, entry.reason = .frozenOnArrival →
        Classified views exclude entry.token (some .frozenOnArrival) := by
  simp only [classifyV1VaultTokens, Except.bind_eq_ok, Except.ok.injEq, Prod.mk.injEq] at success
  obtain ⟨infos, read, rfl, rfl⟩ := success
  have answered := (readPages_rows read).2
  have mintOf (mint : Pubkey) :
      (OrderedMap.get? (infos.foldl (fun map entry => OrderedMap.set map entry.1 entry.2) []) mint).join = none ∨
        Answered views mint
          (OrderedMap.get? (infos.foldl (fun map entry => OrderedMap.set map entry.1 entry.2) []) mint).join := by
    cases found : OrderedMap.get? (infos.foldl (fun map entry => OrderedMap.set map entry.1 entry.2) []) mint with
    | none => exact .inl rfl
    | some info =>
      right
      exact OrderedMap.get?_foldl_set (P := Answered views) answered (fun _ _ unset => by cases unset) found
  refine ⟨?_, ?_, ?_⟩
  · have first := skipPass_perm (fun token => if exclude.contains token.ata then some .excluded else none) tokens
    have second := skipPass_perm (fun token => unmovableReason
      (OrderedMap.get? (infos.foldl (fun map entry => OrderedMap.set map entry.1 entry.2) []) token.mint).join token)
      (skipPass (fun token => if exclude.contains token.ata then some .excluded else none) tokens).1
    rw [List.map_append]
    refine List.Perm.trans ?_ ((second.append_right _).trans first)
    rw [List.append_assoc]
    exact List.perm_append_comm.append_left _
  · intro token kept
    obtain ⟨candidate, reason⟩ := mem_kept.mp kept
    obtain ⟨_, included⟩ := mem_kept.mp candidate
    refine ⟨fun listed => ?_, _, mintOf token.mint, reason⟩
    rw [if_pos (List.contains_iff_mem.mpr listed)] at included
    cases included
  · intro entry member arrival
    rcases List.mem_append.mp member with early | late
    · obtain ⟨_, reason⟩ := mem_skipped early
      split at reason
      · rw [arrival] at reason
        cases reason
      · cases reason
    · obtain ⟨candidate, reason⟩ := mem_skipped late
      obtain ⟨_, included⟩ := mem_kept.mp candidate
      refine ⟨fun listed => ?_, _, mintOf entry.token.mint, reason.trans (congrArg some arrival)⟩
      rw [if_pos (List.contains_iff_mem.mpr listed)] at included
      cases included

end LazorKit.Kit
