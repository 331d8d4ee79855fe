import LazorKit.Proofs.PolicyCommit

/-! # The grammar of policy buffers

A policy is written as its actions one behind the other. `PolicyAction` is an action as data, with the
size its type asks for; `encode` writes a list of them. The creation-time gate accepts a buffer exactly
when it is the encoding of a well-formed list, and the views it was parsed into are the places where
the actions were written.
-/

namespace LazorKit

open Solana

namespace ActionType

/-- The byte a type is written as. -/
def toU8 : ActionType → UInt8
  | .solLimit => 1
  | .solRecurringLimit => 2
  | .solMaxPerTx => 3
  | .tokenLimit => 4
  | .tokenRecurringLimit => 5
  | .tokenMaxPerTx => 6
  | .programWhitelist => 10
  | .programBlacklist => 11

private theorem fromU8_toU8 (kind : ActionType) : fromU8 kind.toU8 = .ok kind := by
  cases kind <;> rfl

private theorem toU8_of_fromU8 {value : UInt8} {kind : ActionType} (known : fromU8 value = .ok kind) :
    value = kind.toU8 := by
  unfold fromU8 at known
  split at known <;> cases known <;> rfl

private theorem expectedDataSize_lt (kind : ActionType) : kind.expectedDataSize < 256 ^ 2 := by
  cases kind <;> decide

end ActionType

/-- An action: a known type, the slot it expires at, and data of exactly the type's size. -/
structure PolicyAction where
  kind : ActionType
  expiresAt : UInt64
  data : Bytes
  sized : data.length = kind.expectedDataSize
deriving DecidableEq

namespace PolicyAction

/-- Header and data. -/
def toBytes (action : PolicyAction) : Bytes :=
  action.kind.toU8 ::
    (Bytes.ofNatLE 2 action.data.length ++ (Bytes.ofNatLE 8 action.expiresAt.toNat ++ action.data))

/-- The mint of a token action, or the program of a list entry. -/
def subject (action : PolicyAction) : Bytes := action.data.slice 0 32

/-- One of the action's numbers. -/
def field (action : PolicyAction) (offset : ℕ) : ℕ :=
  storedU64 action.data (action.kind.fieldBase + offset)

/-- The view of an action written at `cursor`. -/
def viewAt (cursor : ℕ) (action : PolicyAction) : ActionView :=
  ⟨action.kind, action.expiresAt.toNat, cursor + actionHeaderSize, action.data.length⟩

theorem length_toBytes (action : PolicyAction) : action.toBytes.length = actionHeaderSize + action.data.length := by
  simp only [toBytes, List.length_cons, List.length_append, Bytes.length_ofNatLE, actionHeaderSize]
  omega

/-- The actions one behind the other. -/
def encode (actions : List PolicyAction) : Bytes := actions.flatMap toBytes

theorem encode_cons (action : PolicyAction) (rest : List PolicyAction) :
    encode (action :: rest) = action.toBytes ++ encode rest := List.flatMap_cons

/-- The actions with the places where they are written, from `cursor` on. -/
def placed : ℕ → List PolicyAction → List (ℕ × PolicyAction)
  | _, [] => []
  | cursor, action :: rest => (cursor, action) :: placed (cursor + action.toBytes.length) rest

/-- The views of actions written from `cursor` on. -/
def views (cursor : ℕ) (actions : List PolicyAction) : List ActionView :=
  (placed cursor actions).map fun place => viewAt place.1 place.2

theorem map_snd_placed (cursor : ℕ) (actions : List PolicyAction) :
    (placed cursor actions).map Prod.snd = actions := by
  induction actions generalizing cursor with
  | nil => rfl
  | cons action rest ih => rw [placed, List.map_cons, ih]

private theorem length_views (cursor : ℕ) (actions : List PolicyAction) :
    (views cursor actions).length = actions.length := by
  rw [views, List.length_map, ← List.length_map (f := Prod.snd), map_snd_placed]

theorem mem_iff_placed (cursor : ℕ) {actions : List PolicyAction} {action : PolicyAction} :
    action ∈ actions ↔ ∃ place ∈ placed cursor actions, place.2 = action := by
  nth_rewrite 1 [← map_snd_placed cursor actions]
  exact List.mem_map

/-- A relation between any two of the actions, told by the places they are written at. -/
theorem pairwise_views {cursor : ℕ} {actions : List PolicyAction} {R : ActionView → ActionView → Prop}
    {Q : PolicyAction → PolicyAction → Prop}
    (same : ∀ first ∈ placed cursor actions, ∀ second ∈ placed cursor actions,
      R (viewAt first.1 first.2) (viewAt second.1 second.2) ↔ Q first.2 second.2) :
    (views cursor actions).Pairwise R ↔ actions.Pairwise Q := by
  nth_rewrite 2 [← map_snd_placed cursor actions]
  rw [views, List.pairwise_map, List.pairwise_map]
  exact List.Pairwise.iff_of_mem fun first second => same _ first _ second

theorem wellSized_views (cursor : ℕ) (actions : List PolicyAction) : WellSized (views cursor actions) := by
  intro view member
  obtain ⟨place, _, rfl⟩ := List.mem_map.mp member
  exact place.2.sized

/-- Every action is read back where it was written. -/
theorem slice_placed (front : Bytes) {actions : List PolicyAction} {place : ℕ × PolicyAction}
    (member : place ∈ placed front.length actions) :
    Bytes.slice (front ++ encode actions) (place.1 + actionHeaderSize) place.2.data.length = place.2.data := by
  induction actions generalizing front with
  | nil => cases member
  | cons action rest ih =>
    cases member with
    | head =>
      let header := action.kind.toU8 ::
        (Bytes.ofNatLE 2 action.data.length ++ Bytes.ofNatLE 8 action.expiresAt.toNat)
      have split : front ++ encode (action :: rest) = (front ++ header) ++ (action.data ++ encode rest) := by
        simp only [header, encode_cons, toBytes, List.cons_append, List.append_assoc]
      rw [split]
      exact Bytes.slice_middle (by simp [header, actionHeaderSize]) rfl
    | tail _ later =>
      rw [encode_cons, ← List.append_assoc]
      exact ih _ (by rwa [List.length_append])

/-- A window of an action's data, where the action was written. -/
theorem slice_placed_inside (front : Bytes) {actions : List PolicyAction} {place : ℕ × PolicyAction}
    (member : place ∈ placed front.length actions) {start width : ℕ} (inside : start + width ≤ place.2.data.length) :
    Bytes.slice (front ++ encode actions) (place.1 + actionHeaderSize + start) width =
      place.2.data.slice start width := by
  rw [← Bytes.slice_slice inside, slice_placed front member]

/-- The header walk over an encoding meets exactly its actions. -/
theorem parses_encode (front : Bytes) (actions : List PolicyAction) :
    Parses (front ++ encode actions) front.length (views front.length actions) := by
  induction actions generalizing front with
  | nil => simp [Parses, views, placed, encode]
  | cons action rest ih =>
    have size := action.length_toBytes
    have next := ih (front ++ action.toBytes)
    rw [List.append_assoc, ← encode_cons, List.length_append] at next
    have total : (front ++ encode (action :: rest)).length =
        front.length + (actionHeaderSize + action.data.length) + (encode rest).length := by
      rw [encode_cons, List.length_append, List.length_append, size]
      omega
    refine ⟨by omega, ?_, ?_, ?_, rfl, ?_, ?_⟩
    · rw [encode_cons, toBytes, List.cons_append, Bytes.byte_append rfl]
      exact action.kind.fromU8_toU8
    · have split : front ++ encode (action :: rest) = (front ++ [action.kind.toU8]) ++
          (Bytes.ofNatLE 2 action.data.length ++
            (Bytes.ofNatLE 8 action.expiresAt.toNat ++ (action.data ++ encode rest))) := by
        simp only [encode_cons, toBytes, List.cons_append, List.append_assoc, List.nil_append]
      rw [split, Bytes.slice_middle (by simp) (by simp), Bytes.toNatLE_ofNatLE_of_lt]
      · rfl
      · rw [action.sized]
        exact action.kind.expectedDataSize_lt
    · have split : front ++ encode (action :: rest) =
          (front ++ action.kind.toU8 :: Bytes.ofNatLE 2 action.data.length) ++
            (Bytes.ofNatLE 8 action.expiresAt.toNat ++ (action.data ++ encode rest)) := by
        simp only [encode_cons, toBytes, List.cons_append, List.append_assoc]
      rw [split, Bytes.slice_middle (by simp) (by simp), Bytes.toNatLE_ofNatLE_of_lt action.expiresAt.toNat_lt]
      rfl
    · simp only [viewAt]
      omega
    · have shift : front.length + actionHeaderSize + action.data.length = front.length + action.toBytes.length := by
        omega
      simp only [viewAt, shift]
      exact next

/-- A header and well-sized data behind it are an action written there. -/
theorem exists_viewAt {buf : Bytes} {cursor : ℕ} {view : ActionView} {rest : List ActionView}
    (parses : Parses buf cursor (view :: rest)) (sized : view.dataLen = view.actionType.expectedDataSize) :
    ∃ action, view = viewAt cursor action ∧ buf.slice cursor action.toBytes.length = action.toBytes := by
  obtain ⟨kind, expiresAt, dataOffset, dataLen⟩ := view
  obtain ⟨header, known, len, expires, offset, fits, -⟩ := parses
  simp only [actionHeaderSize] at header known len expires offset fits sized
  have room : (buf.slice dataOffset dataLen).length = dataLen := Bytes.length_slice_of_le fits
  have stamp : (UInt64.ofNat expiresAt).toNat = expiresAt := by
    apply UInt64.toNat_ofNat_of_lt'
    rw [expires]
    exact Bytes.toNatLE_slice_lt
  refine ⟨⟨kind, .ofNat expiresAt, buf.slice dataOffset dataLen, room.trans sized⟩, ?_, ?_⟩
  · simp only [viewAt, stamp, room]
    rw [offset, actionHeaderSize]
  · rw [length_toBytes]
    simp only [toBytes, stamp, room, actionHeaderSize]
    have tag : [kind.toU8] = buf.slice cursor 1 := by
      rw [Bytes.slice_one (by omega), ActionType.toU8_of_fromU8 known]
    have width : 11 + dataLen = 1 + (2 + (8 + dataLen)) := by omega
    rw [width, ← Bytes.slice_append_slice, ← Bytes.slice_append_slice, ← Bytes.slice_append_slice, ← tag,
      ← Bytes.ofNatLE_toNatLE_slice (by omega), ← len, ← Bytes.ofNatLE_toNatLE_slice (by omega), ← expires, offset]
    rfl

/-- What parses into well-sized actions is an encoding, read where it was written. -/
theorem exists_encode_of_parses {buf : Bytes} {cursor : ℕ} {found : List ActionView} (parses : Parses buf cursor found)
    (sized : WellSized found) : ∃ actions, buf.drop cursor = encode actions ∧ found = views cursor actions := by
  induction found generalizing cursor with
  | nil => exact ⟨[], List.drop_eq_nil_of_le parses, rfl⟩
  | cons view rest ih =>
    obtain ⟨action, rfl, written⟩ := exists_viewAt parses (sized _ (List.mem_cons_self ..))
    have next : cursor + actionHeaderSize + action.data.length = cursor + action.toBytes.length := by
      rw [length_toBytes]
      omega
    obtain ⟨-, -, -, -, -, -, tail⟩ := parses
    simp only [viewAt, next] at tail
    obtain ⟨actions, later, rfl⟩ := ih tail fun view member => sized view (List.mem_cons_of_mem _ member)
    refine ⟨action :: actions, ?_, rfl⟩
    have split := (List.take_append_drop action.toBytes.length (buf.drop cursor)).symm
    rwa [List.drop_drop, later, ← Bytes.slice, written, ← encode_cons] at split

theorem parseActions_wellSized {buf : Bytes} {found : List ActionView} :
    (parseActions buf = .ok found ∧ WellSized found) ↔
      ∃ actions : List PolicyAction, actions.length ≤ maxActions ∧ buf = encode actions ∧ found = views 0 actions := by
  rw [parseActions_eq_ok]
  constructor
  · rintro ⟨⟨parses, count⟩, sized⟩
    obtain ⟨actions, written, rfl⟩ := exists_encode_of_parses parses sized
    exact ⟨actions, by rwa [length_views] at count, written, rfl⟩
  · rintro ⟨actions, count, rfl, rfl⟩
    exact ⟨⟨parses_encode [] actions, by rwa [length_views]⟩, wellSized_views 0 actions⟩

/-- A recurring limit as a policy may start with: unspent, with a window and no reset. -/
def Fresh (action : PolicyAction) : Prop :=
  action.kind.isRecurring = true → action.field 8 = 0 ∧ action.field 16 ≠ 0 ∧ action.field 24 = 0

/-- What the creation-time gate asks of a list of actions. -/
structure WellFormed (actions : List PolicyAction) : Prop where
  count : actions.length ≤ maxActions
  oneList : ¬((∃ action ∈ actions, action.kind = .programWhitelist) ∧
    ∃ action ∈ actions, action.kind = .programBlacklist)
  solOnce : actions.Pairwise fun first second => first.kind.isSol = true → first.kind ≠ second.kind
  mintOnce : actions.Pairwise fun first second =>
    first.kind.isToken = true → first.kind = second.kind → first.subject ≠ second.subject
  fresh : ∀ action ∈ actions, action.Fresh

private theorem checkSolActionsOnce_eq_ok {seen : List ActionType} {found : List ActionView} :
    checkSolActionsOnce seen found = .ok () ↔
      (∀ view ∈ found, view.actionType.isSol = true → view.actionType ∉ seen) ∧
        found.Pairwise fun first second => first.actionType.isSol = true → first.actionType ≠ second.actionType := by
  induction found generalizing seen with
  | nil => simp [checkSolActionsOnce]
  | cons view rest ih =>
    rw [checkSolActionsOnce, List.forall_mem_cons, List.pairwise_cons]
    split
    · next sol =>
      simp only [Except.bind_eq_ok, Except.ensure_eq_ok, exists_const, ih, List.mem_cons, not_or]
      constructor
      · rintro ⟨fresh, later, rest⟩
        exact ⟨⟨fun _ => fresh, fun other member kind => (later other member kind).2⟩,
          fun other member _ same => (later other member (same ▸ sol)).1 same.symm, rest⟩
      · rintro ⟨⟨fresh, later⟩, apart, rest⟩
        exact ⟨fresh sol, fun other member kind => ⟨fun same => apart other member sol same.symm,
          later other member kind⟩,
          rest⟩
    · next other =>
      rw [ih]
      constructor
      · rintro ⟨later, rest⟩
        exact ⟨⟨fun sol => absurd sol other, later⟩, fun _ _ sol => absurd sol other, rest⟩
      · rintro ⟨⟨_, later⟩, _, rest⟩
        exact ⟨later, rest⟩

/-- The three loops over the token types together. -/
theorem checkTokenMintsDistinct_eq_ok {buf : Bytes} {found : List ActionView} :
    (checkTokenMintsDistinct buf found .tokenLimit = .ok () ∧
        checkTokenMintsDistinct buf found .tokenRecurringLimit = .ok () ∧
        checkTokenMintsDistinct buf found .tokenMaxPerTx = .ok ()) ↔
      found.Pairwise fun first second => first.actionType.isToken = true → first.actionType = second.actionType →
        buf.slice first.dataOffset 32 ≠ buf.slice second.dataOffset 32 := by
  simp only [checkTokenMintsDistinct, Except.ensure_eq_ok, List.pairwise_filter, ← List.pairwise_and_iff]
  apply List.Pairwise.iff
  intro first second
  simp only [decide_eq_true_eq]
  constructor
  · rintro ⟨limit, recurring, max⟩ token same
    cases kind : first.actionType with
    | tokenLimit => exact limit kind (same ▸ kind)
    | tokenRecurringLimit => exact recurring kind (same ▸ kind)
    | tokenMaxPerTx => exact max kind (same ▸ kind)
    | _ =>
      rw [kind] at token
      cases token
  · intro apart
    have each (kind : ActionType) (token : kind.isToken = true) (own : first.actionType = kind)
        (other : second.actionType = kind) : buf.slice first.dataOffset 32 ≠ buf.slice second.dataOffset 32 :=
      apart (own ▸ token) (own.trans other.symm)
    exact ⟨each _ rfl, each _ rfl, each _ rfl⟩

/-- A number of an action, where the action was written. -/
theorem readU64_placed {actions : List PolicyAction} {place : ℕ × PolicyAction} (member : place ∈ placed 0 actions)
    {start : ℕ} (inside : start + 8 ≤ place.2.data.length) :
    readU64 (encode actions) (place.1 + actionHeaderSize + start) = .ok (storedU64 place.2.data start) := by
  have fits : place.1 + actionHeaderSize + place.2.data.length ≤ (encode actions).length :=
    (parses_encode [] actions).fits (List.mem_map_of_mem member)
  have same : (encode actions).slice (place.1 + actionHeaderSize + start) 8 = place.2.data.slice start 8 :=
    slice_placed_inside [] member inside
  rw [readU64_of_fits (by omega), storedU64, same, storedU64]

/-- The check of a recurring limit where it was written. -/
theorem checkRecurringInitial_eq_ok {actions : List PolicyAction} {place : ℕ × PolicyAction}
    (member : place ∈ placed 0 actions) (recurring : place.2.kind.isRecurring = true) :
    checkRecurringInitial (encode actions) (viewAt place.1 place.2) place.2.kind.fieldBase = .ok () ↔
      place.2.Fresh := by
  have size := place.2.sized
  rw [← ActionType.recurring_fits recurring] at size
  have read (field : ℕ) (low : field + 8 ≤ 32) :
      readU64 (encode actions) (place.1 + actionHeaderSize + place.2.kind.fieldBase + field) =
        .ok (place.2.field field) := by
    rw [Nat.add_assoc, readU64_placed member (by omega), PolicyAction.field]
  simp only [checkRecurringInitial, viewAt]
  rw [read 8 (by omega), read 16 (by omega), read 24 (by omega)]
  simp only [Except.bind_eq_ok, Except.ensure_eq_ok, exists_const, Except.ok.injEq, exists_eq_left', Fresh, recurring,
    true_implies]

private theorem checkInitialState_eq_ok {actions : List PolicyAction} {place : ℕ × PolicyAction}
    (member : place ∈ placed 0 actions) :
    checkInitialState (encode actions) (viewAt place.1 place.2) = .ok () ↔ place.2.Fresh := by
  have recurring := checkRecurringInitial_eq_ok member
  unfold checkInitialState
  cases kind : place.2.kind with
  | solRecurringLimit =>
    simp only [viewAt, kind] at recurring ⊢
    exact recurring rfl
  | tokenRecurringLimit =>
    simp only [viewAt, kind] at recurring ⊢
    exact recurring rfl
  | _ =>
    apply iff_of_true (by simp only [viewAt, kind])
    intro started
    rw [kind] at started
    cases started

theorem any_views (cursor : ℕ) {actions : List PolicyAction} {kind : ActionType} :
    (views cursor actions).any (·.actionType = kind) = true ↔ ∃ action ∈ actions, action.kind = kind := by
  simp only [List.any_eq_true, decide_eq_true_eq, views, List.mem_map, mem_iff_placed cursor]
  constructor
  · rintro ⟨_, ⟨place, member, rfl⟩, named⟩
    exact ⟨place.2, ⟨place, member, rfl⟩, named⟩
  · rintro ⟨_, ⟨place, member, rfl⟩, named⟩
    exact ⟨_, ⟨place, member, rfl⟩, named⟩

/-- The checks behind the header walk, over an encoding. -/
theorem wellFormed_iff {actions : List PolicyAction} (count : actions.length ≤ maxActions) :
    WellFormed actions ↔
      ¬((views 0 actions).any (·.actionType = .programWhitelist) = true ∧
          (views 0 actions).any (·.actionType = .programBlacklist) = true) ∧
        checkSolActionsOnce [] (views 0 actions) = .ok () ∧
        (checkTokenMintsDistinct (encode actions) (views 0 actions) .tokenLimit = .ok () ∧
          checkTokenMintsDistinct (encode actions) (views 0 actions) .tokenRecurringLimit = .ok () ∧
          checkTokenMintsDistinct (encode actions) (views 0 actions) .tokenMaxPerTx = .ok ()) ∧
        (views 0 actions).forM (checkInitialState (encode actions)) = .ok () := by
  have solOnce : checkSolActionsOnce [] (views 0 actions) = .ok () ↔
      actions.Pairwise fun first second => first.kind.isSol = true → first.kind ≠ second.kind := by
    rw [checkSolActionsOnce_eq_ok]
    refine (and_iff_right fun _ _ _ => List.not_mem_nil).trans ?_
    exact pairwise_views fun _ _ _ _ => Iff.rfl
  have mint {place : ℕ × PolicyAction} (member : place ∈ placed 0 actions) (token : place.2.kind.isToken = true) :
      (encode actions).slice (place.1 + actionHeaderSize) 32 = place.2.subject := by
    have fits := ActionType.token_fits token
    have inside : 0 + 32 ≤ place.2.data.length := by
      rw [place.2.sized]
      omega
    exact slice_placed_inside [] member inside
  have mintOnce : (views 0 actions).Pairwise (fun first second => first.actionType.isToken = true →
      first.actionType = second.actionType →
        (encode actions).slice first.dataOffset 32 ≠ (encode actions).slice second.dataOffset 32) ↔
      actions.Pairwise fun first second =>
        first.kind.isToken = true → first.kind = second.kind → first.subject ≠ second.subject := by
    apply pairwise_views
    intro first left second right
    refine forall_congr' fun token => forall_congr' fun same => ?_
    simp only [viewAt] at token same ⊢
    rw [mint left token, mint right (same ▸ token)]
  have fresh : (views 0 actions).forM (checkInitialState (encode actions)) = .ok () ↔
      ∀ action ∈ actions, action.Fresh := by
    apply Except.forM_eq_ok.trans
    rw [views, List.forall_mem_map]
    constructor
    · intro checks action member
      obtain ⟨place, written, rfl⟩ := (mem_iff_placed 0).mp member
      exact (checkInitialState_eq_ok written).mp (checks place written)
    · intro fresh place written
      exact (checkInitialState_eq_ok written).mpr (fresh _ ((mem_iff_placed 0).mpr ⟨place, written, rfl⟩))
  rw [any_views, any_views, solOnce, checkTokenMintsDistinct_eq_ok, mintOnce, fresh]
  exact ⟨fun form => ⟨form.oneList, form.solOnce, form.mintOnce, form.fresh⟩,
    fun ⟨oneList, solOnce, mintOnce, fresh⟩ => ⟨count, oneList, solOnce, mintOnce, fresh⟩⟩

/-- The gate accepts exactly the encodings of well-formed lists. -/
theorem validateActionsBuffer_eq_ok {buf : Bytes} :
    validateActionsBuffer buf = .ok () ↔ ∃ actions, WellFormed actions ∧ buf = encode actions := by
  unfold validateActionsBuffer
  split
  · next empty =>
    rw [List.isEmpty_iff] at empty
    subst empty
    exact iff_of_true rfl ⟨[], ⟨by decide, by simp, .nil, .nil, by simp⟩, rfl⟩
  · simp only [Except.bind_eq_ok, Except.ensure_eq_ok, exists_const]
    constructor
    · rintro ⟨found, parsed, _, sizes, oneList, _, sol, _, limit, _, recurring, _, max, state⟩
      have sized : WellSized found := fun view member =>
        Except.ensure_eq_ok.mp (Except.forM_eq_ok.mp sizes view member)
      obtain ⟨actions, count, rfl, rfl⟩ := parseActions_wellSized.mp ⟨parsed, sized⟩
      exact ⟨actions, (wellFormed_iff count).mpr ⟨oneList, sol, ⟨limit, recurring, max⟩, state⟩, rfl⟩
    · rintro ⟨actions, form, rfl⟩
      obtain ⟨parsed, sized⟩ := parseActions_wellSized.mpr ⟨actions, form.count, rfl, rfl⟩
      obtain ⟨oneList, sol, ⟨limit, recurring, max⟩, state⟩ := (wellFormed_iff form.count).mp form
      exact ⟨_, parsed, (), Except.forM_eq_ok.mpr fun view member => Except.ensure_of (sized view member), oneList, (),
        sol, (), limit, (), recurring, (), max, state⟩

end PolicyAction

end LazorKit
