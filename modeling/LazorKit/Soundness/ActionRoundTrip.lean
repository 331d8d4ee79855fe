import LazorKit.Model.Kit.Actions
import LazorKit.Proofs.PolicyGrammar

/-! # Actions written by the kit and read by the program

`serializeActions` refuses an amount that is no u64, but reduces an expiry that is none. The program reads
back what was written, so a list survives exactly when an amount is refused or every expiry is a u64.
-/

namespace LazorKit

open Solana Kit

namespace Kit.SessionAction

def kind : SessionAction → ActionType
  | solLimit .. => .solLimit
  | solRecurringLimit .. => .solRecurringLimit
  | solMaxPerTx .. => .solMaxPerTx
  | tokenLimit .. => .tokenLimit
  | tokenRecurringLimit .. => .tokenRecurringLimit
  | tokenMaxPerTx .. => .tokenMaxPerTx
  | programWhitelist .. => .programWhitelist
  | programBlacklist .. => .programBlacklist

/-- The bigints of an action besides its expiry. -/
def amounts : SessionAction → List ℤ
  | solLimit remaining _ => [remaining]
  | solRecurringLimit limit window _ => [limit, window]
  | solMaxPerTx max _ => [max]
  | tokenLimit _ remaining _ => [remaining]
  | tokenRecurringLimit _ limit window _ => [limit, window]
  | tokenMaxPerTx _ max _ => [max]
  | programWhitelist .. => []
  | programBlacklist .. => []

/-- The same action with another expiry. -/
def expiringAt (slot : ℤ) : SessionAction → SessionAction
  | solLimit remaining _ => solLimit remaining (some slot)
  | solRecurringLimit limit window _ => solRecurringLimit limit window (some slot)
  | solMaxPerTx max _ => solMaxPerTx max (some slot)
  | tokenLimit mint remaining _ => tokenLimit mint remaining (some slot)
  | tokenRecurringLimit mint limit window _ => tokenRecurringLimit mint limit window (some slot)
  | tokenMaxPerTx mint max _ => tokenMaxPerTx mint max (some slot)
  | programWhitelist programId _ => programWhitelist programId (some slot)
  | programBlacklist programId _ => programBlacklist programId (some slot)

/-- The slot an action is to expire at; zero, where it is left out, is never. -/
def expiry (action : SessionAction) : ℤ := action.expiresAt.getD 0

/-- The running totals an action starts with: spent and last reset of a recurring limit. -/
def startTotals (action : SessionAction) : List ℕ := if action.kind.isRecurring then [0, 0] else []

/-- What the program should read: this very action, with its totals at zero. -/
def asGiven (action : SessionAction) : SessionAction × List ℕ := (action.expiringAt action.expiry, action.startTotals)

end Kit.SessionAction

/-- What data of a type says, as an action and its running totals. -/
def ActionType.reading (expiresAt : ℕ) (data : Bytes) : ActionType → SessionAction × List ℕ
  | .solLimit => (.solLimit (storedU64 data 0) (some expiresAt), [])
  | .solRecurringLimit =>
    (.solRecurringLimit (storedU64 data 0) (storedU64 data 16) (some expiresAt), [storedU64 data 8, storedU64 data 24])
  | .solMaxPerTx => (.solMaxPerTx (storedU64 data 0) (some expiresAt), [])
  | .tokenLimit => (.tokenLimit (readKey data 0) (storedU64 data 32) (some expiresAt), [])
  | .tokenRecurringLimit =>
    (.tokenRecurringLimit (readKey data 0) (storedU64 data 32) (storedU64 data 48) (some expiresAt),
      [storedU64 data 40, storedU64 data 56])
  | .tokenMaxPerTx => (.tokenMaxPerTx (readKey data 0) (storedU64 data 32) (some expiresAt), [])
  | .programWhitelist => (.programWhitelist (readKey data 0) (some expiresAt), [])
  | .programBlacklist => (.programBlacklist (readKey data 0) (some expiresAt), [])

/-- What the program reads through a view. -/
def ActionView.reading (buf : Bytes) (view : ActionView) : SessionAction × List ℕ :=
  view.actionType.reading view.expiresAt (buf.slice view.dataOffset view.dataLen)

/-- Whatever buffer the kit returns for a list, the program reads that list from it. -/
def Recovered (encodeU64 : ℤ → Except Error Bytes) (actions : List SessionAction) : Prop :=
  ∀ buf, serializeActions encodeU64 actions = .ok buf →
    ∃ views, parseActions buf = .ok views ∧ views.map (ActionView.reading buf) = actions.map SessionAction.asGiven

namespace Kit.SessionAction

/-- Limit, nothing spent, window, no reset. -/
def recurringPayload (limit window : ℤ) : Bytes :=
  Bytes.ofNatLE 8 limit.toNat ++
    (Bytes.ofNatLE 8 0 ++ (Bytes.ofNatLE 8 window.toNat ++ Bytes.ofNatLE 8 0))

/-- The data of an action whose amounts fit. -/
def payload : SessionAction → Bytes
  | solLimit remaining _ => Bytes.ofNatLE 8 remaining.toNat
  | solRecurringLimit limit window _ => recurringPayload limit window
  | solMaxPerTx max _ => Bytes.ofNatLE 8 max.toNat
  | tokenLimit mint remaining _ => mint.bytes ++ Bytes.ofNatLE 8 remaining.toNat
  | tokenRecurringLimit mint limit window _ => mint.bytes ++ recurringPayload limit window
  | tokenMaxPerTx mint max _ => mint.bytes ++ Bytes.ofNatLE 8 max.toNat
  | programWhitelist programId _ => programId.bytes
  | programBlacklist programId _ => programId.bytes

@[simp] theorem length_recurringPayload (limit window : ℤ) : (recurringPayload limit window).length = 32 := by
  simp [recurringPayload]

private theorem length_payload (action : SessionAction) : action.payload.length = action.kind.expectedDataSize := by
  cases action <;> simp [payload, kind, ActionType.expectedDataSize, BytesN.length_bytes]

/-- The action of the policy format that the kit writes; the expiry is reduced. -/
def written (action : SessionAction) : PolicyAction :=
  ⟨action.kind, .ofNat (action.expiry % 2 ^ 64).toNat, action.payload, action.length_payload⟩

private theorem written_expiresAt (action : SessionAction) :
    action.written.expiresAt.toNat = (action.expiry % 2 ^ 64).toNat := by
  have bound := Int.emod_lt_of_pos action.expiry (by decide : (0 : ℤ) < 2 ^ 64)
  apply UInt64.toNat_ofNat_of_lt'
  rw [UInt64.size]
  omega

private theorem type_eq_toU8 (action : SessionAction) : action.type = action.kind.toU8 := by
  cases action <;> rfl

end Kit.SessionAction

section Encoder

variable {encodeU64 : ℤ → Except Error Bytes}

private theorem Kit.EncodesU64.eq_ok (codec : EncodesU64 encodeU64) {value : ℤ} {bytes : Bytes} :
    encodeU64 value = .ok bytes ↔ FitsU64 value ∧ bytes = Bytes.ofNatLE 8 value.toNat := by
  by_cases fits : FitsU64 value
  · rw [codec.fits value fits, Except.ok.injEq, and_iff_right fits, eq_comm]
  · obtain ⟨e, refused⟩ := codec.refuses value fits
    refine iff_of_false (fun written => ?_) (fun kept => fits kept.1)
    rw [refused] at written
    cases written

private theorem fitsU64_zero : FitsU64 0 := ⟨le_rfl, by decide⟩

private theorem forall_mem_pair {P : ℤ → Prop} {first second : ℤ} : (∀ amount ∈ [first, second], P amount) ↔
    P first ∧ P second := by
  rw [List.forall_mem_cons, List.forall_mem_singleton]

private theorem recurringData_eq_ok (codec : EncodesU64 encodeU64) {limit window : ℤ} {bytes : Bytes} :
    recurringData encodeU64 limit window = .ok bytes ↔
      (FitsU64 limit ∧ FitsU64 window) ∧ bytes = SessionAction.recurringPayload limit window := by
  simp only [recurringData, Except.bind_eq_ok, codec.eq_ok, Except.ok.injEq]
  constructor
  · rintro ⟨_, ⟨limitFits, rfl⟩, _, ⟨_, rfl⟩, _, ⟨windowFits, rfl⟩, _, ⟨_, rfl⟩, rfl⟩
    refine ⟨⟨limitFits, windowFits⟩, ?_⟩
    simp only [SessionAction.recurringPayload, List.append_assoc, Int.toNat_zero]
  · rintro ⟨⟨limitFits, windowFits⟩, rfl⟩
    refine ⟨_, ⟨limitFits, rfl⟩, _, ⟨fitsU64_zero, rfl⟩, _, ⟨windowFits, rfl⟩, _, ⟨fitsU64_zero, rfl⟩, ?_⟩
    simp only [SessionAction.recurringPayload, List.append_assoc, Int.toNat_zero]

/-- The data encoder refuses exactly the actions with an amount that does not fit. -/
theorem encodeActionData_eq_ok (codec : EncodesU64 encodeU64) {action : SessionAction} {data : Bytes} :
    encodeActionData encodeU64 action = .ok data ↔
      (∀ amount ∈ action.amounts, FitsU64 amount) ∧ data = action.payload := by
  cases action with
  | solLimit | solMaxPerTx =>
    simp only [encodeActionData, codec.eq_ok, SessionAction.amounts, SessionAction.payload,
      List.forall_mem_singleton]
  | solRecurringLimit =>
    simp only [encodeActionData, recurringData_eq_ok codec, SessionAction.amounts, SessionAction.payload,
      forall_mem_pair]
  | tokenLimit | tokenMaxPerTx =>
    simp only [encodeActionData, Except.bind_eq_ok, codec.eq_ok, SessionAction.amounts, SessionAction.payload,
      List.forall_mem_singleton, Except.ok.injEq]
    constructor
    · rintro ⟨_, ⟨fits, rfl⟩, rfl⟩
      exact ⟨fits, rfl⟩
    · rintro ⟨fits, rfl⟩
      exact ⟨_, ⟨fits, rfl⟩, rfl⟩
  | tokenRecurringLimit =>
    simp only [encodeActionData, Except.bind_eq_ok, recurringData_eq_ok codec, SessionAction.amounts,
      SessionAction.payload, forall_mem_pair, Except.ok.injEq]
    constructor
    · rintro ⟨_, ⟨fits, rfl⟩, rfl⟩
      exact ⟨fits, rfl⟩
    · rintro ⟨fits, rfl⟩
      exact ⟨_, ⟨fits, rfl⟩, rfl⟩
  | programWhitelist | programBlacklist =>
    simp only [encodeActionData, SessionAction.amounts, SessionAction.payload, Except.ok.injEq]
    exact ⟨fun same => ⟨List.forall_mem_nil _, same.symm⟩, fun given => given.2.symm⟩

private theorem serializeAction_eq_ok (codec : EncodesU64 encodeU64) {action : SessionAction} {bytes : Bytes} :
    serializeAction encodeU64 action = .ok bytes ↔
      (∀ amount ∈ action.amounts, FitsU64 amount) ∧ bytes = action.written.toBytes := by
  have layout : [action.type] ++ u16LE action.payload.length ++ u64LE (action.expiresAt.getD 0) ++ action.payload =
      action.written.toBytes := by
    rw [PolicyAction.toBytes, action.written_expiresAt, action.type_eq_toU8]
    simp only [SessionAction.written, SessionAction.expiry, u16LE, u64LE, List.append_assoc, List.cons_append,
      List.nil_append]
  rw [← layout]
  simp only [serializeAction, Except.bind_eq_ok, encodeActionData_eq_ok codec, Except.ok.injEq]
  constructor
  · rintro ⟨_, ⟨fits, rfl⟩, rfl⟩
    exact ⟨fits, rfl⟩
  · rintro ⟨fits, rfl⟩
    exact ⟨_, ⟨fits, rfl⟩, rfl⟩

/-- The kit refuses exactly the lists with an amount that does not fit, and writes the others in the program's
format. -/
theorem serializeActions_eq_ok (codec : EncodesU64 encodeU64) {actions : List SessionAction} {buf : Bytes} :
    serializeActions encodeU64 actions = .ok buf ↔
      (∀ action ∈ actions, ∀ amount ∈ action.amounts, FitsU64 amount) ∧
        buf = PolicyAction.encode (actions.map SessionAction.written) := by
  have parts (out : List Bytes) : actions.mapM (serializeAction encodeU64) = .ok out ↔
      (∀ action ∈ actions, ∀ amount ∈ action.amounts, FitsU64 amount) ∧
        out = actions.map fun action => action.written.toBytes := by
    rw [Except.mapM_eq_ok]
    induction actions generalizing out with
    | nil => simp [eq_comm]
    | cons action rest ih =>
      rw [List.forall₂_cons_left_iff, List.forall_mem_cons, List.map_cons]
      constructor
      · rintro ⟨bytes, tail, first, later, rfl⟩
        obtain ⟨fits, rfl⟩ := (serializeAction_eq_ok codec).mp first
        obtain ⟨others, rfl⟩ := (ih tail).mp later
        exact ⟨⟨fits, others⟩, rfl⟩
      · rintro ⟨⟨fits, others⟩, rfl⟩
        exact ⟨_, _, (serializeAction_eq_ok codec).mpr ⟨fits, rfl⟩, (ih _).mpr ⟨others, rfl⟩, rfl⟩
  rw [serializeActions]
  split
  · next empty =>
    rw [List.isEmpty_iff] at empty
    subst empty
    simp [PolicyAction.encode, eq_comm]
  · simp only [Except.bind_eq_ok, parts, Except.ok.injEq]
    constructor
    · rintro ⟨_, ⟨fits, rfl⟩, rfl⟩
      refine ⟨fits, ?_⟩
      rw [PolicyAction.encode, concatBytes, List.flatMap_map, List.flatMap_def]
    · rintro ⟨fits, rfl⟩
      refine ⟨_, ⟨fits, rfl⟩, ?_⟩
      rw [PolicyAction.encode, concatBytes, List.flatMap_map, List.flatMap_def]

end Encoder

/-- A number written behind a front. -/
theorem storedU64_behind {front back : Bytes} {value offset : ℕ} (start : front.length = offset)
    (fits : value < 2 ^ 64) :
    storedU64 (front ++ (Bytes.ofNatLE 8 value ++ back)) offset = value := by
  rw [storedU64, Bytes.slice_middle start (Bytes.length_ofNatLE ..)]
  exact Bytes.toNatLE_ofNatLE_of_lt fits

private theorem readKey_front (key : Pubkey) (back : Bytes) : readKey (key.bytes ++ back) 0 = key := by
  rw [readKey, Bytes.slice_front key.length_bytes]
  exact BytesN.ofBytes_bytes key

private theorem storedU64_amount {front back : Bytes} {value : ℤ} {offset : ℕ} (start : front.length = offset)
    (fits : FitsU64 value) : (storedU64 (front ++ (Bytes.ofNatLE 8 value.toNat ++ back)) offset : ℤ) = value := by
  have low := Int.toNat_of_nonneg fits.1
  have high := fits.2
  rw [storedU64_behind start (by omega), low]

/-- The last number of the data. -/
theorem storedU64_last {front : Bytes} {value : ℤ} {offset : ℕ} (start : front.length = offset) (fits : FitsU64 value) :
    (storedU64 (front ++ Bytes.ofNatLE 8 value.toNat) offset : ℤ) = value := by
  have read := @storedU64_amount front [] value offset start fits
  rwa [List.append_nil] at read

/-- A recurring limit behind a front: what was given, and totals of zero. -/
theorem storedU64_recurring {front : Bytes} {limit window : ℤ} (base : ℕ) (start : front.length = base)
    (fits : FitsU64 limit ∧ FitsU64 window) :
    let data := front ++ SessionAction.recurringPayload limit window
    (storedU64 data base : ℤ) = limit ∧ storedU64 data (base + 8) = 0 ∧ (storedU64 data (base + 16) : ℤ) = window ∧
      storedU64 data (base + 24) = 0 := by
  subst start
  simp only [SessionAction.recurringPayload]
  refine ⟨storedU64_amount rfl fits.1, ?_, ?_, ?_⟩
  · rw [← List.append_assoc]
    exact storedU64_behind (by simp) (by decide)
  · rw [← List.append_assoc, ← List.append_assoc]
    exact storedU64_amount (by simp) fits.2
  · rw [← List.append_assoc, ← List.append_assoc, ← List.append_assoc, ← List.append_nil (Bytes.ofNatLE 8 0)]
    exact storedU64_behind (by simp) (by decide)

/-- Data written by the kit says the action it was written for. -/
theorem reading_payload {action : SessionAction} (fits : ∀ amount ∈ action.amounts, FitsU64 amount) (slot : ℕ) :
    action.kind.reading slot action.payload = (action.expiringAt slot, action.startTotals) := by
  cases action with
  | solLimit remaining | solMaxPerTx remaining =>
    have read := storedU64_last (List.length_nil) (fits _ (List.mem_singleton_self _))
    rw [List.nil_append] at read
    exact Prod.ext (by simp only [ActionType.reading, SessionAction.kind, SessionAction.payload, read]; rfl) rfl
  | solRecurringLimit limit window =>
    obtain ⟨first, spent, second, reset⟩ := storedU64_recurring 0 List.length_nil (forall_mem_pair.mp fits)
    simp only [List.nil_append, Nat.zero_add] at first spent second reset
    simp only [ActionType.reading, SessionAction.kind, SessionAction.payload, first, spent, second, reset]
    rfl
  | tokenLimit mint remaining | tokenMaxPerTx mint remaining =>
    have read := storedU64_last mint.length_bytes (fits _ (List.mem_singleton_self _))
    simp only [ActionType.reading, SessionAction.kind, SessionAction.payload, readKey_front, read]
    rfl
  | tokenRecurringLimit mint limit window =>
    obtain ⟨first, spent, second, reset⟩ := storedU64_recurring 32 mint.length_bytes (forall_mem_pair.mp fits)
    simp only [Nat.reduceAdd] at spent second reset
    simp only [ActionType.reading, SessionAction.kind, SessionAction.payload, readKey_front, first, spent,
      second, reset]
    rfl
  | programWhitelist programId | programBlacklist programId =>
    have read := readKey_front programId []
    rw [List.append_nil] at read
    simp only [ActionType.reading, SessionAction.kind, SessionAction.payload, read]
    rfl

/-- The views of an encoding, read one by one. -/
theorem map_reading_views (policy : List PolicyAction) :
    (PolicyAction.views 0 policy).map (ActionView.reading (PolicyAction.encode policy)) =
      policy.map fun action => action.kind.reading action.expiresAt.toNat action.data := by
  have each : ∀ place ∈ PolicyAction.placed 0 policy,
      ActionView.reading (PolicyAction.encode policy) (PolicyAction.viewAt place.1 place.2) =
        place.2.kind.reading place.2.expiresAt.toNat place.2.data := by
    intro place member
    have data := PolicyAction.slice_placed [] member
    rw [List.nil_append] at data
    rw [ActionView.reading, PolicyAction.viewAt, data]
  nth_rewrite 3 [← PolicyAction.map_snd_placed 0 policy]
  rw [PolicyAction.views, List.map_map, List.map_map]
  exact List.map_congr_left each

private theorem expiringAt_inj {action : SessionAction} {slot slot' : ℤ} :
    action.expiringAt slot = action.expiringAt slot' ↔ slot = slot' := by
  constructor
  · intro same
    cases action <;> cases same <;> rfl
  · rintro rfl
    rfl

/-- Of a list it does not refuse, the kit writes what the program reads back when every expiry fits. -/
theorem map_reading_written {actions : List SessionAction}
    (fits : ∀ action ∈ actions, ∀ amount ∈ action.amounts, FitsU64 amount) :
    (PolicyAction.views 0 (actions.map SessionAction.written)).map
        (ActionView.reading (PolicyAction.encode (actions.map SessionAction.written))) =
      actions.map SessionAction.asGiven ↔ ∀ action ∈ actions, FitsU64 action.expiry := by
  rw [map_reading_views, List.map_map, List.map_inj_left]
  apply forall₂_congr
  intro action member
  have read : action.written.kind.reading action.written.expiresAt.toNat action.written.data =
      (action.expiringAt (action.expiry % 2 ^ 64), action.startTotals) := by
    have low := Int.toNat_of_nonneg (Int.emod_nonneg action.expiry (by decide : (2 : ℤ) ^ 64 ≠ 0))
    have same := reading_payload (fits action member) (action.expiry % 2 ^ 64).toNat
    rw [low] at same
    rwa [action.written_expiresAt]
  rw [Function.comp_apply, read, SessionAction.asGiven, Prod.mk.injEq, expiringAt_inj, and_iff_left rfl]
  constructor
  · intro same
    have low := Int.emod_nonneg action.expiry (by decide : (2 : ℤ) ^ 64 ≠ 0)
    have high := Int.emod_lt_of_pos action.expiry (by decide : (0 : ℤ) < 2 ^ 64)
    rw [same] at low high
    exact ⟨low, high⟩
  · rintro ⟨low, high⟩
    exact Int.emod_eq_of_lt low high

/-- A list of at most sixteen actions survives exactly when the kit refuses one of its amounts or every
expiry is a u64. -/
theorem action_round_trip {encodeU64 : ℤ → Except Error Bytes} (codec : EncodesU64 encodeU64)
    (actions : List SessionAction) (count : actions.length ≤ maxActions) :
    Recovered encodeU64 actions ↔
      (∃ action ∈ actions, ∃ amount ∈ action.amounts, ¬FitsU64 amount) ∨ ∀ action ∈ actions, FitsU64 action.expiry := by
  by_cases fits : ∀ action ∈ actions, ∀ amount ∈ action.amounts, FitsU64 amount
  · have parsed : parseActions (PolicyAction.encode (actions.map SessionAction.written)) =
        .ok (PolicyAction.views 0 (actions.map SessionAction.written)) :=
      (PolicyAction.parseActions_wellSized.mpr ⟨_, by rwa [List.length_map], rfl, rfl⟩).1
    have none : ¬∃ action ∈ actions, ∃ amount ∈ action.amounts, ¬FitsU64 amount := by
      rintro ⟨action, member, amount, own, large⟩
      exact large (fits action member amount own)
    rw [or_iff_right none, ← map_reading_written fits]
    constructor
    · intro recovered
      obtain ⟨views, found, same⟩ := recovered _ ((serializeActions_eq_ok codec).mpr ⟨fits, rfl⟩)
      rw [parsed] at found
      cases found
      exact same
    · intro same buf success
      obtain ⟨-, rfl⟩ := (serializeActions_eq_ok codec).mp success
      exact ⟨_, parsed, same⟩
  · refine iff_of_true ?_ (.inl ?_)
    · intro buf success
      exact absurd ((serializeActions_eq_ok codec).mp success).1 fits
    · push Not at fits
      exact fits

namespace Kit.Sample

/-- A limit with an expiry between two actions without one. -/
def actionsUntil (expiresAt : ℤ) : List SessionAction :=
  [.programWhitelist (.fill 9) none, .tokenRecurringLimit (.fill 20) 100 50 (some expiresAt), .solLimit 5000 none]

def encodeU64 (value : ℤ) : Except Error Bytes := do
  Except.ensure (FitsU64 value)
    ⟨s!"Codec [u64] expected number to be in the range [0, 18446744073709551615], got {value}."⟩
  .ok (Bytes.ofNatLE 8 value.toNat)

theorem encodesU64 : EncodesU64 encodeU64 where
  fits value fits := by
    rw [encodeU64, Except.ensure_of fits]
    rfl
  refuses value large := by
    simp only [encodeU64, Except.ensure, if_neg large]
    exact ⟨_, rfl⟩

end Kit.Sample

/-- The list is read back with the largest slot as the expiry, and not with the number behind it. -/
theorem action_round_trip_sample :
    Recovered Kit.Sample.encodeU64 (Kit.Sample.actionsUntil (2 ^ 64 - 1)) ∧
      ¬Recovered Kit.Sample.encodeU64 (Kit.Sample.actionsUntil (2 ^ 64)) := by
  have expires {expiresAt : ℤ} :
      Recovered Kit.Sample.encodeU64 (Kit.Sample.actionsUntil expiresAt) ↔ 0 ≤ expiresAt ∧ expiresAt < 2 ^ 64 := by
    rw [action_round_trip Kit.Sample.encodesU64 (Kit.Sample.actionsUntil expiresAt)
      (by simp [Kit.Sample.actionsUntil, maxActions])]
    simp [Kit.Sample.actionsUntil, SessionAction.amounts, SessionAction.expiry, SessionAction.expiresAt, FitsU64]
  constructor
  · rw [expires]
    decide
  · rw [expires]
    decide

/-- An expiry one past the largest slot is written as zero, which is never. -/
theorem expiry_becomes_never :
    ¬∀ actions : List SessionAction, actions.length ≤ maxActions → Recovered Kit.Sample.encodeU64 actions := by
  intro claimed
  have written : serializeActions Kit.Sample.encodeU64 [.solLimit 5 (some (2 ^ 64))] =
      .ok ([1, 8, 0, 0, 0, 0, 0, 0, 0, 0, 0] ++ [5, 0, 0, 0, 0, 0, 0, 0]) := by rfl
  obtain ⟨views, parsed, same⟩ := claimed [.solLimit 5 (some (2 ^ 64))] (by decide) _ written
  have found : parseActions ([1, 8, 0, 0, 0, 0, 0, 0, 0, 0, 0] ++ [5, 0, 0, 0, 0, 0, 0, 0]) =
      .ok [⟨.solLimit, 0, 11, 8⟩] := by rfl
  rw [found] at parsed
  cases parsed
  have expiry := congrArg (List.map fun read => read.1.expiresAt) same
  revert expiry
  decide

end LazorKit
