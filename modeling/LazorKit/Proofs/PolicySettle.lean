import LazorKit.Proofs.PolicyGrammar

/-! # What an accepted evaluation makes of one action

The engine works on the account's bytes at absolute offsets. Everything it reads or writes for an action
lies in the window of that action's data, so the check and the commit are those of the action alone, read
from its own data. `settle` is that commit, and an accepted evaluation settles every action.
-/

namespace LazorKit

open Solana

section Window

variable {data written : Bytes} {offset count : ℕ}

private theorem storedU64_slice {start : ℕ} (inside : start + 8 ≤ count) :
    storedU64 (data.slice offset count) start = storedU64 data (offset + start) := by
  rw [storedU64, Bytes.slice_slice inside, storedU64]

private theorem readU64_slice {start : ℕ} (fits : offset + count ≤ data.length) (inside : start + 8 ≤ count) :
    readU64 (data.slice offset count) start = readU64 data (offset + start) := by
  rw [readU64_of_fits (by rwa [Bytes.length_slice_of_le fits]), readU64_of_fits (by omega), storedU64_slice inside]

private theorem writeU64_slice {start value : ℕ} (fits : offset + count ≤ data.length) (inside : start + 8 ≤ count)
    (write : writeU64 data (offset + start) value = .ok written) :
    writeU64 (data.slice offset count) start value = .ok (written.slice offset count) := by
  rw [writeU64_of_fits (by omega)] at write
  cases write
  rw [writeU64_of_fits (by rwa [Bytes.length_slice_of_le fits]),
    Bytes.slice_splice_inside fits (by rwa [Bytes.length_ofNatLE])]

private theorem writeU64_length {start value : ℕ} (write : writeU64 data start value = .ok written) :
    written.length = data.length := by
  simp only [writeU64, Except.bind_eq_ok, Except.ensure_eq_ok, exists_const, Except.ok.injEq] at write
  obtain ⟨fits, rfl⟩ := write
  exact length_splice_u64 fits value

private theorem commitCap_slice {start amount : ℕ} (fits : offset + count ≤ data.length) (inside : start + 8 ≤ count)
    (commit : commitCap data (offset + start) amount = .ok written) :
    commitCap (data.slice offset count) start amount = .ok (written.slice offset count) := by
  rw [commitCap] at commit ⊢
  split at commit
  · next some_ =>
    rw [if_pos some_, readU64_slice fits inside]
    simp only [Except.bind_eq_ok] at commit ⊢
    obtain ⟨remaining, read, write⟩ := commit
    exact ⟨remaining, read, writeU64_slice fits inside write⟩
  · next none_ =>
    rw [if_neg none_]
    cases commit
    rfl

private theorem commitRecurring_slice {start amount slot : ℕ} (fits : offset + count ≤ data.length)
    (inside : start + 32 ≤ count) (commit : commitRecurring data (offset + start) amount slot = .ok written) :
    commitRecurring (data.slice offset count) start amount slot = .ok (written.slice offset count) := by
  rw [commitRecurring] at commit ⊢
  split at commit
  · next some_ =>
    rw [if_pos some_]
    simp only [Nat.add_assoc offset] at commit
    rw [readU64_slice fits (by omega), readU64_slice fits (by omega), readU64_slice fits (by omega)]
    simp only [Except.bind_eq_ok] at commit ⊢
    obtain ⟨spent, readSpent, window, readWindow, lastReset, readReset, middle, first, second⟩ := commit
    refine ⟨spent, readSpent, window, readWindow, lastReset, readReset, middle.slice offset count,
      writeU64_slice fits (by omega) first, writeU64_slice ?_ (by omega) second⟩
    rwa [writeU64_length first]
  · next none_ =>
    rw [if_neg none_]
    cases commit
    rfl

private theorem capHolds_slice {start amount : ℕ} {expired : Bool} (inside : start + 8 ≤ count) :
    CapHolds (data.slice offset count) start expired amount ↔ CapHolds data (offset + start) expired amount := by
  rw [CapHolds, CapHolds, storedU64_slice inside]

private theorem grossCapHolds_slice {start amount : ℕ} {expired : Bool} (inside : start + 8 ≤ count) :
    GrossCapHolds (data.slice offset count) start expired amount ↔
      GrossCapHolds data (offset + start) expired amount := by
  rw [GrossCapHolds, GrossCapHolds, storedU64_slice inside]

private theorem recurringHolds_slice {start amount slot : ℕ} {expired : Bool} (inside : start + 32 ≤ count) :
    RecurringHolds (data.slice offset count) start expired amount slot ↔
      RecurringHolds data (offset + start) expired amount slot := by
  have same (field : ℕ) (low : field + 8 ≤ 32) :
      storedU64 (data.slice offset count) (start + field) = storedU64 data (offset + start + field) := by
    rw [storedU64_slice (by omega), Nat.add_assoc]
  have limit := same 0 (by omega)
  rw [Nat.add_zero, Nat.add_zero] at limit
  simp only [RecurringHolds, limit, same 8 (by omega), same 16 (by omega), same 24 (by omega)]

end Window

namespace PolicyAction

/-- The view of an action in its own data. -/
def own (action : PolicyAction) : ActionView := ⟨action.kind, action.expiresAt.toNat, 0, action.data.length⟩

/-- The action stands in the account where the view says. -/
structure StandsAt (data : Bytes) (loc : PolicyLocation) (view : ActionView) (action : PolicyAction) : Prop where
  kind : view.actionType = action.kind
  expiresAt : view.expiresAt = action.expiresAt.toNat
  fits : loc.abs view.dataOffset + action.data.length ≤ data.length
  bytes : data.slice (loc.abs view.dataOffset) action.data.length = action.data

namespace StandsAt

variable {data : Bytes} {loc : PolicyLocation} {view : ActionView} {action : PolicyAction}

theorem slice (stands : StandsAt data loc view action) {start width : ℕ} (inside : start + width ≤ action.data.length) :
    data.slice (loc.abs view.dataOffset + start) width = action.data.slice start width := by
  rw [← Bytes.slice_slice inside, stands.bytes]

theorem subject (stands : StandsAt data loc view action) (inside : 32 ≤ action.data.length) :
    data.slice (loc.abs view.dataOffset) 32 = action.subject := by
  have window := stands.slice (show 0 + 32 ≤ action.data.length by omega)
  rwa [Nat.add_zero] at window

theorem isExpired (stands : StandsAt data loc view action) (slot : ℕ) :
    isExpired view slot = LazorKit.isExpired action.own slot := by
  rw [LazorKit.isExpired, stands.expiresAt]
  rfl

theorem inside (stands : StandsAt data loc view action) : Inside data loc view := by
  rw [Inside, stands.kind, ← action.sized]
  exact stands.fits

end StandsAt

/-- An action stands in its own data. -/
theorem standsAt_own (action : PolicyAction) : StandsAt action.data ⟨0⟩ action.own action :=
  ⟨rfl, rfl, by simp [own, PolicyLocation.abs], by simp [own, PolicyLocation.abs]⟩

/-- The actions of a policy stand where they were written. -/
theorem standsAt_placed {data : Bytes} {loc : PolicyLocation} {actions : List PolicyAction}
    (tail : loc.slice data = encode actions) {place : ℕ × PolicyAction} (member : place ∈ placed 0 actions) :
    StandsAt data loc (viewAt place.1 place.2) place.2 := by
  have fits : place.1 + actionHeaderSize + place.2.data.length ≤ (encode actions).length :=
    (parses_encode [] actions).fits (List.mem_map_of_mem member)
  have size := congrArg List.length tail
  rw [PolicyLocation.slice, List.length_drop] at size
  simp only [actionHeaderSize] at fits
  refine ⟨rfl, rfl, ?_, ?_⟩
  · simp only [viewAt, PolicyLocation.abs, actionHeaderSize]
    omega
  · rw [PolicyLocation.abs, ← Bytes.slice_drop]
    change Bytes.slice (loc.slice data) _ _ = _
    rw [tail]
    exact slice_placed [] member

section Alone

variable {data written : Bytes} {loc : PolicyLocation} {view : ActionView} {action : PolicyAction} {slot : ℕ}

/-- What an action demands can be told from its own data. -/
theorem StandsAt.actionHolds (stands : StandsAt data loc view action) {spent : Spent} :
    ActionHolds data loc slot spent view ↔ ActionHolds action.data ⟨0⟩ slot spent action.own := by
  have size := action.sized
  have zero : (⟨0⟩ : PolicyLocation).abs action.own.dataOffset = 0 := rfl
  have kindOwn : action.own.actionType = action.kind := rfl
  have cap (start amount : ℕ) (expired : Bool) (inside : start + 8 ≤ action.data.length) :
      CapHolds data (loc.abs view.dataOffset + start) expired amount ↔ CapHolds action.data start expired amount := by
    rw [← capHolds_slice inside, stands.bytes]
  have recurring (start amount : ℕ) (expired : Bool) (inside : start + 32 ≤ action.data.length) :
      RecurringHolds data (loc.abs view.dataOffset + start) expired amount slot ↔
        RecurringHolds action.data start expired amount slot := by
    rw [← recurringHolds_slice inside, stands.bytes]
  simp only [ActionHolds, stands.kind, stands.isExpired, zero, kindOwn, Nat.zero_add]
  cases kind : action.kind with
  | solLimit =>
    simp only [kind, ActionType.expectedDataSize] at size ⊢
    exact cap 0 _ _ (by omega)
  | solMaxPerTx =>
    simp only [kind, ActionType.expectedDataSize] at size ⊢
    have gross := @grossCapHolds_slice data (loc.abs view.dataOffset) action.data.length 0 spent.grossSol
      (LazorKit.isExpired action.own slot) (by omega)
    rw [stands.bytes] at gross
    exact gross.symm
  | solRecurringLimit =>
    simp only [kind, ActionType.expectedDataSize] at size ⊢
    exact recurring 0 _ _ (by omega)
  | tokenLimit | tokenMaxPerTx =>
    simp only [kind, ActionType.expectedDataSize] at size ⊢
    rw [stands.subject (by omega)]
    exact cap 32 _ _ (by omega)
  | tokenRecurringLimit =>
    simp only [kind, ActionType.expectedDataSize] at size ⊢
    rw [stands.subject (by omega)]
    exact recurring 32 _ _ (by omega)
  | programWhitelist | programBlacklist => rfl

/-- The commit of an action is the commit in its own data. -/
theorem StandsAt.commitAction (stands : StandsAt data loc view action) {out : Outflows}
    (commit : commitAction loc out slot data view = .ok written) :
    LazorKit.commitAction ⟨0⟩ out slot action.data action.own =
      .ok (written.slice (loc.abs view.dataOffset) action.data.length) := by
  have size := action.sized
  have fits := stands.fits
  have zero : (⟨0⟩ : PolicyLocation).abs action.own.dataOffset = 0 := rfl
  have kindOwn : action.own.actionType = action.kind := rfl
  have mint (inside : 32 ≤ action.data.length) :
      tokenSpent data loc out view = tokenSpent action.data ⟨0⟩ out action.own := by
    rw [tokenSpent_of_fits (by omega), tokenSpent_of_fits (by simpa [own, PolicyLocation.abs] using inside),
      stands.subject inside]
    rfl
  -- The window of the commit, with the action's own data put back for it.
  have cap {start amount : ℕ} (inside : start + 8 ≤ action.data.length)
      (commit : commitCap data (loc.abs view.dataOffset + start) amount = .ok written) :
      commitCap action.data start amount = .ok (written.slice (loc.abs view.dataOffset) action.data.length) := by
    have window := commitCap_slice fits inside commit
    rwa [stands.bytes] at window
  have recurring {start amount : ℕ} (inside : start + 32 ≤ action.data.length)
      (commit : commitRecurring data (loc.abs view.dataOffset + start) amount slot = .ok written) :
      commitRecurring action.data start amount slot =
        .ok (written.slice (loc.abs view.dataOffset) action.data.length) := by
    have window := commitRecurring_slice fits inside commit
    rwa [stands.bytes] at window
  have idle (commit : Except.ok data = (.ok written : Except ProgramError Bytes)) :
      (.ok action.data : Except ProgramError Bytes) =
        .ok (written.slice (loc.abs view.dataOffset) action.data.length) := by
    cases commit
    rw [stands.bytes]
  rw [LazorKit.commitAction] at commit ⊢
  rw [stands.isExpired] at commit
  split at commit
  · next expired =>
    rw [if_pos expired]
    exact idle commit
  · next live =>
    rw [if_neg live]
    simp only [stands.kind] at commit
    simp only [kindOwn, zero, Nat.zero_add]
    cases kind : action.kind with
    | solLimit =>
      simp only [kind, ActionType.expectedDataSize] at size commit ⊢
      exact cap (show 0 + 8 ≤ action.data.length by omega) commit
    | solRecurringLimit =>
      simp only [kind, ActionType.expectedDataSize] at size commit ⊢
      exact recurring (show 0 + 32 ≤ action.data.length by omega) commit
    | tokenLimit =>
      simp only [kind, ActionType.expectedDataSize] at size commit ⊢
      rw [mint (by omega)] at commit
      simp only [Except.bind_eq_ok] at commit ⊢
      obtain ⟨spent, measured, commit⟩ := commit
      exact ⟨spent, measured, cap (by omega) commit⟩
    | tokenRecurringLimit =>
      simp only [kind, ActionType.expectedDataSize] at size commit ⊢
      rw [mint (by omega)] at commit
      simp only [Except.bind_eq_ok] at commit ⊢
      obtain ⟨spent, measured, commit⟩ := commit
      exact ⟨spent, measured, recurring (by omega) commit⟩
    | solMaxPerTx | tokenMaxPerTx | programWhitelist | programBlacklist =>
      simp only [kind] at commit ⊢
      exact idle commit

end Alone

private theorem length_commit_own (out : Outflows) (slot : ℕ) (action : PolicyAction) :
    ((LazorKit.commitAction ⟨0⟩ out slot action.data action.own).getD action.data).length =
      action.kind.expectedDataSize := by
  obtain ⟨written, commit⟩ := commitAction_of_inside out slot action.standsAt_own.inside
  rw [commit, Except.getD, (sameButTotals_commitAction commit).length, action.sized]

/-- The action behind an accepted evaluation: its own data, committed. -/
def settle (out : Outflows) (slot : ℕ) (action : PolicyAction) : PolicyAction where
  kind := action.kind
  expiresAt := action.expiresAt
  data := (LazorKit.commitAction ⟨0⟩ out slot action.data action.own).getD action.data
  sized := length_commit_own out slot action

/-- What a view reads: the type, the expiry and the data. -/
def readView (buf : Bytes) (view : ActionView) : ActionType × ℕ × Bytes :=
  (view.actionType, view.expiresAt, buf.slice view.dataOffset view.dataLen)

/-- The contents of an action. -/
def contents (action : PolicyAction) : ActionType × ℕ × Bytes := (action.kind, action.expiresAt.toNat, action.data)

private theorem contents_injective : Function.Injective contents := by
  rintro ⟨kind, expiresAt, data, _⟩ ⟨kind', expiresAt', data', _⟩ same
  simp only [contents, Prod.mk.injEq] at same
  obtain ⟨rfl, expires, rfl⟩ := same
  cases UInt64.toNat_inj.mp expires
  rfl

/-- The views of an encoding read the actions back. -/
theorem map_readView {buf : Bytes} {actions : List PolicyAction} {after : PolicyAction → PolicyAction}
    (read : ∀ place ∈ placed 0 actions, readView buf (viewAt place.1 place.2) = contents (after place.2)) :
    (views 0 actions).map (readView buf) = (actions.map after).map contents := by
  nth_rewrite 2 [← map_snd_placed 0 actions]
  rw [views, List.map_map, List.map_map, List.map_map]
  exact List.map_congr_left read

variable {data new : Bytes} {loc : PolicyLocation} {actions : List PolicyAction} {out : Outflows} {slot : ℕ}

/-- Behind a commit of the whole policy every action reads as settled. -/
theorem readView_settle (tail : loc.slice data = encode actions)
    (success : commitActions loc out slot (views 0 actions) data = (.ok (), new)) {place : ℕ × PolicyAction}
    (member : place ∈ placed 0 actions) :
    readView (loc.slice new) (viewAt place.1 place.2) = contents (place.2.settle out slot) := by
  obtain ⟨middle, written, length, before, commit, behind⟩ := commitActions_one (wellSized_views 0 actions)
    (parses_encode [] actions).pairwise (List.mem_map_of_mem member) success
  have stands := standsAt_placed tail member
  have whole : (viewAt place.1 place.2).dataLen = place.2.data.length := rfl
  have waiting : StandsAt middle loc (viewAt place.1 place.2) place.2 := by
    refine ⟨rfl, rfl, ?_, ?_⟩
    · rw [length]
      exact stands.fits
    · exact (before _ _ le_rfl (by rw [whole])).trans stands.bytes
  have settled : (place.2.settle out slot).data =
      written.slice (loc.abs (viewAt place.1 place.2).dataOffset) place.2.data.length := by
    rw [settle]
    simp only [waiting.commitAction commit, Except.getD]
  have last := behind _ place.2.data.length le_rfl (by rw [whole])
  rw [← settled, PolicyLocation.abs, ← Bytes.slice_drop] at last
  exact Prod.ext rfl (Prod.ext rfl last)

/-- The commit of a policy is the policy of the settled actions. -/
theorem encode_settle (tail : loc.slice data = encode actions)
    (success : commitActions loc out slot (views 0 actions) data = (.ok (), new)) :
    loc.slice new = encode (actions.map (settle out slot)) := by
  have same := (sameButTotals_commitActions success).drop
  have parses : Parses (loc.slice new) 0 (views 0 actions) := by
    refine Parses.sameButTotals [] ?_ (wellSized_views 0 actions) (by simp) same
    change Parses (loc.slice data) 0 _
    rw [tail]
    exact parses_encode [] actions
  obtain ⟨others, written, sameViews⟩ := exists_encode_of_parses parses (wellSized_views 0 actions)
  rw [List.drop_zero] at written
  have theirs : (views 0 others).map (readView (encode others)) = (others.map id).map contents :=
    map_readView fun place member => Prod.ext rfl (Prod.ext rfl (slice_placed [] member))
  have ours := map_readView fun _ member => readView_settle tail success member
  rw [← sameViews, ← written, ours, List.map_id] at theirs
  rw [written, List.map_injective_iff.mpr contents_injective theirs]

end PolicyAction

end LazorKit
