import LazorKit.Model.Policy
import LazorKit.Proofs.Layout

/-! # Policies survive their own evaluation

An accepted evaluation writes running totals into the policy buffer it was driven by. `Parses` is
the header walk as a relation; the totals lie inside the data of well-sized actions, so the rewritten
buffer still parses to the very same views, and every byte that is not a running total is kept.
-/

namespace LazorKit

open Solana

/-- The buffer read from `cursor` on is exactly these actions. -/
def Parses (buf : Bytes) : ℕ → List ActionView → Prop
  | cursor, [] => buf.length ≤ cursor
  | cursor, view :: rest =>
    cursor + actionHeaderSize ≤ buf.length ∧ ActionType.fromU8 (buf.byte cursor) = .ok view.actionType ∧
      view.dataLen = (buf.slice (cursor + 1) 2).toNatLE ∧
      view.expiresAt = (buf.slice (cursor + 3) 8).toNatLE ∧ view.dataOffset = cursor + actionHeaderSize ∧
      view.dataOffset + view.dataLen ≤ buf.length ∧ Parses buf (view.dataOffset + view.dataLen) rest

private theorem parseActionsFrom_eq_ok {buf : Bytes} {fuel cursor : ℕ} {seen result : List ActionView}
    (enough : buf.length ≤ cursor + fuel) :
    parseActionsFrom buf fuel cursor seen = .ok result ↔
      ∃ views, result = seen ++ views ∧ Parses buf cursor views ∧
        (seen.length ≤ maxActions → result.length ≤ maxActions) ∧
        (views ≠ [] → result.length ≤ maxActions) := by
  induction fuel generalizing cursor seen with
  | zero =>
    simp only [parseActionsFrom, Except.ok.injEq]
    constructor
    · rintro rfl
      exact ⟨[], by simp, by simpa [Parses] using enough, id, by simp⟩
    · rintro ⟨views, rfl, parses, _⟩
      cases views with
      | nil => simp
      | cons view rest =>
        have fits := parses.1
        simp only [actionHeaderSize] at fits
        omega
  | succ fuel ih =>
    rw [parseActionsFrom]
    split
    · simp only [Except.bind_eq_ok, Except.ensure_eq_ok, exists_const]
      constructor
      · rintro ⟨header, actionType, type, fits, short, tail⟩
        have more : buf.length ≤ cursor + actionHeaderSize + (buf.slice (cursor + 1) 2).toNatLE + fuel := by
          simp only [actionHeaderSize]
          omega
        obtain ⟨views, rfl, parses, bound, _⟩ := (ih more).mp tail
        exact ⟨⟨actionType, _, cursor + actionHeaderSize, _⟩ :: views, List.append_assoc ..,
          ⟨header, type, rfl, rfl, rfl, fits, parses⟩, fun _ => bound short, fun _ => bound short⟩
      · rintro ⟨views, rfl, parses, _, bound⟩
        cases views with
        | nil =>
          simp only [Parses] at parses
          omega
        | cons view rest =>
          obtain ⟨kind, expiresAt, dataOffset, dataLen⟩ := view
          obtain ⟨header, type, rfl, rfl, rfl, fits, parses⟩ := parses
          have total := bound (by simp)
          refine ⟨header, kind, type, fits, ?_, ?_⟩
          · simp only [List.length_append, List.length_cons, List.length_nil] at total ⊢
            omega
          · refine (ih ?_).mpr ⟨rest, by simp, parses, fun _ => total, fun _ => total⟩
            simp only [actionHeaderSize]
            omega
    · next done =>
      simp only [Except.ok.injEq]
      constructor
      · rintro rfl
        exact ⟨[], by simp, by simpa [Parses] using done, id, by simp⟩
      · rintro ⟨views, rfl, parses, _⟩
        cases views with
        | nil => simp
        | cons view rest =>
          have fits := parses.1
          simp only [actionHeaderSize] at fits
          omega

theorem parseActions_eq_ok {buf : Bytes} {views : List ActionView} :
    parseActions buf = .ok views ↔ Parses buf 0 views ∧ views.length ≤ maxActions := by
  rw [parseActions, parseActionsFrom_eq_ok (by simp)]
  constructor
  · rintro ⟨_, rfl, parses, bound, _⟩
    exact ⟨parses, bound (Nat.zero_le _)⟩
  · rintro ⟨parses, bound⟩
    exact ⟨views, rfl, parses, fun _ => bound, fun _ => bound⟩

/-- The running totals of an action: windows of its data that an accepted evaluation may rewrite.
They are `remaining` of a lifetime limit, and `spent` and `last_reset` of a recurring one. -/
def ActionType.totals : ActionType → List ℕ
  | .solLimit => [0]
  | .solRecurringLimit => [8, 24]
  | .tokenLimit => [32]
  | .tokenRecurringLimit => [40, 56]
  | _ => []

/-- A position of the buffer belongs to a running total of the action. -/
def ActionView.IsTotal (view : ActionView) (i : ℕ) : Prop :=
  ∃ field ∈ view.actionType.totals, view.dataOffset + field ≤ i ∧ i < view.dataOffset + field + 8

/-- Same length, and the same bytes outside the running totals of the actions, whose offsets count
from `start`. -/
structure SameButTotals (start : ℕ) (views : List ActionView) (old new : Bytes) : Prop where
  length : new.length = old.length
  bytes : ∀ i, (∀ view ∈ views, ∀ j, i = start + j → ¬view.IsTotal j) → new[i]? = old[i]?

namespace SameButTotals

variable {start : ℕ} {views : List ActionView} {old middle new : Bytes}

theorem refl (start : ℕ) (views : List ActionView) (bytes : Bytes) : SameButTotals start views bytes bytes :=
  ⟨rfl, fun _ _ => rfl⟩

theorem trans (first : SameButTotals start views old middle) (second : SameButTotals start views middle new) :
    SameButTotals start views old new :=
  ⟨second.length.trans first.length, fun i outside => (second.bytes i outside).trans (first.bytes i outside)⟩

theorem mono {more : List ActionView} (same : SameButTotals start views old new) (subset : views ⊆ more) :
    SameButTotals start more old new :=
  ⟨same.length, fun i outside => same.bytes i fun view member => outside view (subset member)⟩

/-- Everything in front of the policy is kept. -/
theorem getElem?_of_lt (same : SameButTotals start views old new) {i : ℕ} (early : i < start) :
    new[i]? = old[i]? :=
  same.bytes i fun _ _ j at_ => by omega

theorem byte_of_lt (same : SameButTotals start views old new) {i : ℕ} (early : i < start) :
    new.byte i = old.byte i := by
  simp only [Bytes.byte, List.getD_eq_getElem?_getD, same.getElem?_of_lt early]

theorem slice_of_le (same : SameButTotals start views old new) {offset count : ℕ}
    (early : offset + count ≤ start) : new.slice offset count = old.slice offset count :=
  Bytes.slice_congr fun _ _ high => same.getElem?_of_lt (by omega)

/-- The policy buffers themselves agree but for the totals. -/
theorem drop (same : SameButTotals start views old new) :
    SameButTotals 0 views (old.drop start) (new.drop start) where
  length := by simp only [List.length_drop, same.length]
  bytes i outside := by
    simp only [List.getElem?_drop]
    apply same.bytes _
    intro view member j at_
    exact outside view member j (by omega)

end SameButTotals

private theorem sameButTotals_writeU64 {start field value : ℕ} {view : ActionView} {old new : Bytes}
    (total : field ∈ view.actionType.totals)
    (success : writeU64 old (start + view.dataOffset + field) value = .ok new) :
    SameButTotals start [view] old new := by
  simp only [writeU64, Except.bind_eq_ok, Except.ensure_eq_ok, exists_const] at success
  obtain ⟨fits, result⟩ := success
  cases Except.ok.inj result
  have room : start + view.dataOffset + field + (Bytes.ofNatLE 8 value).length ≤ old.length := by simpa using fits
  refine ⟨Bytes.length_splice room, fun i outside => Bytes.getElem?_splice_of_outside room ?_⟩
  rw [Bytes.length_ofNatLE]
  by_contra inside
  refine outside view (by simp) (i - start) (by omega) ⟨field, total, by omega, by omega⟩

private theorem sameButTotals_commitCap (field : ℕ) {start amount : ℕ} {view : ActionView} {old new : Bytes}
    (total : field ∈ view.actionType.totals)
    (success : commitCap old (start + view.dataOffset + field) amount = .ok new) :
    SameButTotals start [view] old new := by
  unfold commitCap at success
  split at success
  · simp only [Except.bind_eq_ok] at success
    obtain ⟨_, _, write⟩ := success
    exact sameButTotals_writeU64 total write
  · cases success
    exact .refl _ _ _

private theorem sameButTotals_commitRecurring (base : ℕ) {start amount slot : ℕ} {view : ActionView} {old new : Bytes}
    (spent : base + 8 ∈ view.actionType.totals) (reset : base + 24 ∈ view.actionType.totals)
    (success : commitRecurring old (start + view.dataOffset + base) amount slot = .ok new) :
    SameButTotals start [view] old new := by
  unfold commitRecurring at success
  split at success
  · simp only [Except.bind_eq_ok] at success
    obtain ⟨_, _, _, _, _, _, middle, first, second⟩ := success
    exact (sameButTotals_writeU64 spent first).trans (sameButTotals_writeU64 reset second)
  · cases success
    exact .refl _ _ _

/-- One action's commit writes that action's totals only. -/
theorem sameButTotals_commitAction {loc : PolicyLocation} {out : Outflows} {slot : ℕ} {view : ActionView}
    {old new : Bytes} (success : commitAction loc out slot old view = .ok new) :
    SameButTotals loc.offset [view] old new := by
  obtain ⟨kind, expiresAt, dataOffset, dataLen⟩ := view
  simp only [commitAction, PolicyLocation.abs] at success
  split at success
  · cases success
    exact .refl _ _ _
  · cases kind with
    | solLimit => exact sameButTotals_commitCap 0 (by simp [ActionType.totals]) success
    | solRecurringLimit =>
      exact sameButTotals_commitRecurring 0 (by simp [ActionType.totals])
        (by simp [ActionType.totals]) success
    | tokenLimit =>
      simp only [Except.bind_eq_ok] at success
      obtain ⟨_, _, commit⟩ := success
      exact sameButTotals_commitCap 32 (by simp [ActionType.totals]) commit
    | tokenRecurringLimit =>
      simp only [Except.bind_eq_ok] at success
      obtain ⟨_, _, commit⟩ := success
      exact sameButTotals_commitRecurring 32 (by simp [ActionType.totals])
        (by simp [ActionType.totals]) commit
    | solMaxPerTx | tokenMaxPerTx | programWhitelist | programBlacklist =>
      cases success
      exact .refl _ _ _

/-- The whole commit phase writes totals only. -/
theorem sameButTotals_commitActions {loc : PolicyLocation} {out : Outflows} {slot : ℕ}
    {views : List ActionView} {old new : Bytes} (success : commitActions loc out slot views old = (.ok (), new)) :
    SameButTotals loc.offset views old new := by
  induction views generalizing old with
  | nil =>
    cases success
    exact .refl _ _ _
  | cons view rest ih =>
    rw [commitActions] at success
    split at success
    · cases success
    · next written commit =>
      exact ((sameButTotals_commitAction commit).mono (by simp)).trans
        ((ih success).mono (List.subset_cons_self ..))

theorem evaluatePostActions_eq_ok {old new : Bytes} {loc : PolicyLocation} {before after gross slot : ℕ}
    {flows : List MintFlow} (present : loc.isPresent old = true)
    (success : evaluatePostActions old loc before after gross flows slot = (.ok (), new)) :
    ∃ views, parseActions (loc.slice old) = .ok views ∧ SameButTotals loc.offset views old new := by
  rw [evaluatePostActions, if_pos present] at success
  dsimp only at success
  split at success
  · cases success
  · next views parsed =>
    split at success
    · cases success
    · exact ⟨views, parsed, sameButTotals_commitActions success⟩

/-- Every action's data has its type's size. -/
def WellSized (views : List ActionView) : Prop :=
  ∀ view ∈ views, view.dataLen = view.actionType.expectedDataSize

private theorem ActionType.total_fits {kind : ActionType} {field : ℕ} (total : field ∈ kind.totals) :
    field + 8 ≤ kind.expectedDataSize := by
  cases kind <;> simp_all [ActionType.totals, ActionType.expectedDataSize] <;> omega

/-- A running total of a well-sized action lies in its data. -/
theorem ActionView.IsTotal.inside {view : ActionView} {i : ℕ} (total : view.IsTotal i)
    (sized : view.dataLen = view.actionType.expectedDataSize) :
    view.dataOffset ≤ i ∧ i < view.dataOffset + view.dataLen := by
  obtain ⟨field, member, low, high⟩ := total
  have fits := ActionType.total_fits member
  omega

/-- The actions from `cursor` on keep their data behind it. -/
theorem Parses.le_dataOffset {buf : Bytes} {cursor : ℕ} {views : List ActionView} (parses : Parses buf cursor views)
    {view : ActionView} (member : view ∈ views) : cursor + actionHeaderSize ≤ view.dataOffset := by
  induction views generalizing cursor with
  | nil => cases member
  | cons first rest ih =>
    obtain ⟨_, _, _, _, offset, _, tail⟩ := parses
    cases member with
    | head => exact offset.ge
    | tail _ member =>
      have further := ih tail member
      omega

/-- A byte of the header at `cursor` is no running total of the actions from there on. -/
theorem Parses.header_not_total {buf : Bytes} {cursor i : ℕ} {views : List ActionView}
    (parses : Parses buf cursor views) (sized : WellSized views) (inside : i < cursor + actionHeaderSize)
    {view : ActionView} (member : view ∈ views) : ¬view.IsTotal i := by
  intro total
  have behind := parses.le_dataOffset member
  have low := (total.inside (sized view member)).1
  omega

/-- Rewriting running totals does not change what a well-sized buffer parses to. `before` are the
actions in front of the cursor. -/
theorem Parses.sameButTotals {old new : Bytes} {cursor : ℕ} {views : List ActionView} (before : List ActionView)
    (parses : Parses old cursor views) (sized : WellSized views)
    (front : ∀ view ∈ before, ∀ i, view.IsTotal i → i < cursor)
    (same : SameButTotals 0 (before ++ views) old new) : Parses new cursor views := by
  induction views generalizing cursor before with
  | nil =>
    rw [Parses, same.length]
    exact parses
  | cons view rest ih =>
    have kept {i : ℕ} (low : cursor ≤ i) (high : i < cursor + actionHeaderSize) : new[i]? = old[i]? := by
      apply same.bytes i
      intro other member j at_ total
      rw [Nat.zero_add] at at_
      subst at_
      cases List.mem_append.mp member with
      | inl early =>
        have past := front other early _ total
        omega
      | inr late => exact parses.header_not_total sized high late total
    have size : actionHeaderSize = 11 := rfl
    have tag : new.byte cursor = old.byte cursor := by
      simp only [Bytes.byte, List.getD_eq_getElem?_getD]
      rw [kept (by omega) (by omega)]
    have dataLen : new.slice (cursor + 1) 2 = old.slice (cursor + 1) 2 :=
      Bytes.slice_congr fun i low high => kept (by omega) (by omega)
    have expiry : new.slice (cursor + 3) 8 = old.slice (cursor + 3) 8 :=
      Bytes.slice_congr fun i low high => kept (by omega) (by omega)
    obtain ⟨header, type, len, expires, offset, fits, tail⟩ := parses
    refine ⟨by rwa [same.length], by rwa [tag], by rwa [dataLen], by rwa [expiry], offset, by rwa [same.length], ?_⟩
    refine ih (before ++ [view]) tail (fun other member => sized other (by simp [member])) ?_
      (by simpa using same)
    intro other member i total
    simp only [List.mem_append, List.mem_singleton] at member
    cases member with
    | inl early =>
      have past := front other early i total
      omega
    | inr own =>
      subst own
      exact (total.inside (sized other (by simp))).2

/-- A policy buffer that parses into well-sized actions. -/
def PolicyShape (buf : Bytes) : Prop := ∃ views, parseActions buf = .ok views ∧ WellSized views

theorem parseActions_sameButTotals {old new : Bytes} {views : List ActionView}
    (parsed : parseActions old = .ok views) (sized : WellSized views) (same : SameButTotals 0 views old new) :
    parseActions new = .ok views := by
  rw [parseActions_eq_ok] at parsed ⊢
  exact ⟨parsed.1.sameButTotals [] sized (by simp) (by simpa using same), parsed.2⟩

/-- What the creation-time gate lets through is well-sized. -/
theorem policyShape_of_validate {buf : Bytes} (valid : validateActionsBuffer buf = .ok ()) : PolicyShape buf := by
  unfold validateActionsBuffer at valid
  split at valid
  · next empty =>
    rw [List.isEmpty_iff.mp empty]
    exact ⟨[], rfl, by simp [WellSized]⟩
  · simp only [Except.bind_eq_ok, Except.ensure_eq_ok, exists_const] at valid
    obtain ⟨views, parsed, _, sizes, _⟩ := valid
    refine ⟨views, parsed, fun view member => ?_⟩
    exact Except.ensure_eq_ok.mp (Except.forM_eq_ok.mp sizes view member)

end LazorKit
