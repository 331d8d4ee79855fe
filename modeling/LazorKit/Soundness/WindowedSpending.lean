import LazorKit.Proofs.ConcreteRun
import LazorKit.Proofs.PolicyBirth
import LazorKit.Soundness.RecurringLimit

/-! # A limit per window in the ledger

A limit per window promises a rate: so much out of the vault in so many slots. What a session or a delegate can really
take follows from the totals it has stored since it was created. In as many slots as `n` windows take it can take
`n + 1` times the limit, and never more, whatever else happens in between.
-/

namespace LazorKit

open Solana TumblingWindow

variable {dep : Deployment} {start : Ledger} {events : List Event} {i j : ℕ} {key : Pubkey} {old new bytes : Bytes}
  {loc : PolicyLocation} {actions : List ActionView} {action : ActionView}

private theorem slotAt_le (events : List Event) (i : ℕ) : slotAt events i ≤ maxU64 := by
  unfold slotAt
  split
  · next call _ => exact Nat.le_pred_of_lt call.frame.slot.toNat_lt
  · exact Nat.zero_le _

section Event

variable (dep start events key action old new)

/-- At a position this much was charged to a limit per window: all that was taken, no more than the limit, and it was
entered in the window, which the limit bounds. -/
structure ChargesWindow (loc : PolicyLocation) (i amount : ℕ) : Prop where
  taken : takenUnder dep start events key (assetOf old loc action) i ≤ amount
  within : amount ≤ fieldAt old loc action 0
  alive : isExpired action (slotAt events i) = true → amount = 0
  called : 0 < amount → ∃ call, events[i]? = some (.call call)
  entered : ∀ window, StoresWindow old loc action window → window.total ≤ fieldAt old loc action 0 →
    StoresWindow new loc action (charge (fieldAt old loc action 16) window ⟨slotAt events i, amount⟩) ∧
      (charge (fieldAt old loc action 16) window ⟨slotAt events i, amount⟩).total ≤ fieldAt old loc action 0

end Event

/-- Whatever the event is, some amount was charged. -/
theorem PolicyEvent.exists_charge (event : PolicyEvent dep start events key i loc old new)
    (bears : Bears loc actions old) (sized : WellSized actions) (member : action ∈ actions)
    (recurring : action.actionType.isRecurring = true) (small : fieldAt old loc action 0 < maxU64)
    (program : action.actionType.isToken = true → ¬isTokenProgram dep.programId) :
    ∃ amount, ChargesWindow dep start events key old new action loc i amount := by
  cases event with
  | idle _ same free =>
    refine ⟨0, (free _).le, Nat.zero_le _, fun _ => rfl, fun some_ => absurd some_ (Nat.lt_irrefl 0),
      fun window stores bounded => ?_⟩
    rw [charge_zero rfl]
    refine ⟨⟨?_, ?_⟩, bounded⟩
    · rw [fieldAt_of_slice same, stores.lastReset]
    · rw [fieldAt_of_slice same, stores.spent]
  | @executed call approved before after gross flows at_ place same accepted taken =>
    have sameBears := bears.of_slice place same
    obtain ⟨_, _, charged⟩ := sameBears.evaluated sized (isPresent_of_mem sameBears.parsed member) accepted
    have field (n : ℕ) : fieldAt approved loc action n = fieldAt old loc action n := fieldAt_of_slice same action n
    have outflow := charged action member
    obtain ⟨within, alive⟩ := outflow.within recurring (by rwa [field 0])
    refine ⟨outflowOf approved loc ⟨before - after, gross, flows⟩ action, ?_, within.trans (field 0).le, alive,
      fun _ => ⟨call, at_⟩, fun window stores bounded => ?_⟩
    · rw [← assetOf_of_slice same]
      exact taken action program
    · have law := outflow.window recurring (slotAt_le events i)
        ⟨(field 24).trans stores.lastReset, (field 8).trans stores.spent⟩ (by rwa [field 0]) (by rwa [field 0])
      rwa [field 0, field 16] at law

section Runs

variable (dep start events key action loc actions old) in
/-- From one position up to another, these amounts were charged to a limit per window. -/
def ChargesWindows (amount : ℕ → ℕ) (i j : ℕ) : Prop :=
  ∀ l, i ≤ l → l < j → ∃ now next, registryAt dep start events l key = some now ∧
    registryAt dep start events (l + 1) key = some next ∧ StillBears loc actions old now ∧
    ChargesWindow dep start events key now next action loc l (amount l)

/-- Whatever happens while the record lives, there are such amounts. -/
theorem exists_charges (genesis : Genesis dep start) (unsigned : DerivedNeverSign dep events)
    (lives : ∀ l, i ≤ l → l ≤ j → registryAt dep start events l key ≠ none)
    (here : registryAt dep start events i key = some old) (bears : Bears loc actions old) (sized : WellSized actions)
    (member : action ∈ actions) (recurring : action.actionType.isRecurring = true)
    (small : fieldAt old loc action 0 < maxU64)
    (program : action.actionType.isToken = true → ¬isTokenProgram dep.programId) :
    ∃ amount, ChargesWindows dep start events key old loc actions action amount i j := by
  have present := isPresent_of_mem bears.parsed member
  have one (l : ℕ) : ∃ amount, i ≤ l → l < j → ∃ now next, registryAt dep start events l key = some now ∧
      registryAt dep start events (l + 1) key = some next ∧ StillBears loc actions old now ∧
      ChargesWindow dep start events key now next action loc l amount := by
    by_cases inside : i ≤ l ∧ l < j
    · obtain ⟨now, at_, still⟩ := bears_between genesis unsigned lives here bears sized present inside.1 inside.2.le
      obtain ⟨next, after⟩ := Option.ne_none_iff_exists'.mp (lives (l + 1) (by omega) inside.2)
      have event := policy_event genesis unsigned at_ after still.bears.located still.present
      obtain ⟨limit, _⟩ := still.limit action member recurring
      obtain ⟨amount, charges⟩ := event.exists_charge still.bears sized member recurring (by rwa [limit]) program
      exact ⟨amount, fun _ _ => ⟨now, next, at_, after, still, charges⟩⟩
    · exact ⟨0, fun low high => absurd ⟨low, high⟩ inside⟩
  choose amount charges using one
  exact ⟨amount, charges⟩

variable {amount : ℕ → ℕ} (here : registryAt dep start events i key = some old) (member : action ∈ actions)
  (recurring : action.actionType.isRecurring = true)

include here member recurring

/-- From its creation on, a limit per window stores the window over what was charged to it, and the limit bounds it. -/
theorem storesWindow_between (fresh : StoresWindow old loc action ⟨0, 0⟩)
    (charges : ChargesWindows dep start events key old loc actions action amount i j) {l : ℕ} (low : i ≤ l)
    (high : l ≤ j) :
    ∃ now, registryAt dep start events l key = some now ∧
      StoresWindow now loc action (windowAt (fieldAt old loc action 16) (spendsBetween amount (slotAt events) i l)
        (spendsBetween amount (slotAt events) i l).length) ∧
      (windowAt (fieldAt old loc action 16) (spendsBetween amount (slotAt events) i l)
        (spendsBetween amount (slotAt events) i l).length).total ≤ fieldAt old loc action 0 := by
  induction l, low using Nat.le_induction with
  | base =>
    have none_ : spendsBetween amount (slotAt events) i i = [] := by simp [spendsBetween]
    rw [none_, List.length_nil, windowAt_zero]
    exact ⟨old, here, fresh, Nat.zero_le _⟩
  | succ l low ih =>
    obtain ⟨now, there, stores, bounded⟩ := ih (by omega)
    obtain ⟨now', next, there', after, still, charged⟩ := charges l low (by omega)
    cases Option.some.inj (there.symm.trans there')
    obtain ⟨limit, width⟩ := still.limit action member recurring
    have law := charged.entered _ stores (by rwa [limit])
    rw [width, limit] at law
    rw [windowAt_spendsBetween_succ amount (slotAt events) low]
    exact ⟨next, after, law⟩

/-- In as many slots as `n` windows take, no more than `n + 1` times the limit is charged. -/
theorem sum_charges_le (ordered : SlotsNondecreasing events) (le : i ≤ j)
    (fresh : StoresWindow old loc action ⟨0, 0⟩)
    (charges : ChargesWindows dep start events key old loc actions action amount i j) (first n : ℕ) :
    ∑ l ∈ (Finset.Ico i j).filter (fun l => first ≤ slotAt events l ∧
        slotAt events l < first + n * (fieldAt old loc action 16 + 1)), amount l ≤
      (n + 1) * fieldAt old loc action 0 := by
  apply sum_within_le amount (slotAt events) le n
  · intro k l low lt high some_ other
    obtain ⟨_, _, _, _, _, earlier⟩ := charges k low (by omega)
    obtain ⟨_, _, _, _, _, later⟩ := charges l (by omega) high
    obtain ⟨call, at_⟩ := earlier.called some_
    obtain ⟨call', at'⟩ := later.called other
    rw [slotAt, slotAt, at_, at']
    exact ordered k l call call' lt.le at_ at'
  · intro l low high
    obtain ⟨_, _, _, bounded⟩ := storesWindow_between here member recurring fresh charges low high
    exact bounded

end Runs

/-- Under a limit per window on lamports or on tokens: as long as the record lives, whatever else happens, its Executes
take no more than `n + 1` times the limit out of vaults in as many slots as `n` windows take; each takes no more than
the limit; and none takes anything once the limit expired. -/
theorem windowed_spending (genesis : Genesis dep start) (unsigned : DerivedNeverSign dep events)
    (ordered : SlotsNondecreasing events) (le : i ≤ j)
    (lives : ∀ l, i ≤ l → l ≤ j → registryAt dep start events l key ≠ none)
    (here : registryAt dep start events i key = some bytes) (bears : Bears loc actions bytes)
    (member : action ∈ actions)
    (recurring : action.actionType.isRecurring = true) (small : fieldAt bytes loc action 0 < maxU64)
    (program : action.actionType.isToken = true → ¬isTokenProgram dep.programId) :
    let limit := fieldAt bytes loc action 0
    let width := fieldAt bytes loc action 16
    let taken := takenUnder dep start events key (assetOf bytes loc action)
    0 < width ∧
      (∀ first n, ∑ l ∈ (Finset.Ico i j).filter (fun l => first ≤ slotAt events l ∧
        slotAt events l < first + n * (width + 1)), taken l ≤ (n + 1) * limit) ∧
      ∀ l, i ≤ l → l < j → taken l ≤ limit ∧ (isExpired action (slotAt events l) = true → taken l = 0) := by
  intro limit width taken
  have present := isPresent_of_mem bears.parsed member
  obtain ⟨k, born, early, created, since, bornBears, bornPresent, sized, valid⟩ :=
    policy_born genesis unsigned here bears present
  obtain ⟨fresh, wide⟩ := recurring_created valid bornBears.parsed member recurring
  have alive (l : ℕ) (low : k + 1 ≤ l) (high : l ≤ j) : registryAt dep start events l key ≠ none := by
    rcases Nat.le_total l i with before | after
    · exact since l low before
    · exact lives l after high
  obtain ⟨_, again, now⟩ := bears_between genesis unsigned alive created bornBears sized bornPresent early le
  cases Option.some.inj (here.symm.trans again)
  have asset : assetOf bytes loc action = assetOf born loc action := now.asset action member
  obtain ⟨limit_eq, width_eq⟩ : limit = fieldAt born loc action 0 ∧ width = fieldAt born loc action 16 :=
    now.limit action member recurring
  obtain ⟨amount, charges⟩ := exists_charges genesis unsigned alive created bornBears sized member recurring
    (limit_eq ▸ small) program
  have charged (l : ℕ) (low : k + 1 ≤ l) (high : l < j) : taken l ≤ amount l ∧ amount l ≤ limit ∧
      (isExpired action (slotAt events l) = true → amount l = 0) := by
    obtain ⟨_, _, _, _, still, own⟩ := charges l low high
    have most := own.taken
    rw [still.asset action member, ← asset] at most
    exact ⟨most, (still.limit action member recurring).1.trans limit_eq.symm ▸ own.within, own.alive⟩
  refine ⟨width_eq ▸ wide, fun first n => ?_, fun l low high => ?_⟩
  · let inside (l : ℕ) : Prop := first ≤ slotAt events l ∧ slotAt events l < first + n * (width + 1)
    calc ∑ l ∈ (Finset.Ico i j).filter inside, taken l
        ≤ ∑ l ∈ (Finset.Ico (k + 1) j).filter inside, taken l := by
          apply Finset.sum_le_sum_of_subset
          exact Finset.filter_subset_filter _ (Finset.Ico_subset_Ico_left early)
      _ ≤ ∑ l ∈ (Finset.Ico (k + 1) j).filter inside, amount l := by
          apply Finset.sum_le_sum
          intro l member
          obtain ⟨low, high⟩ := Finset.mem_Ico.mp (Finset.mem_filter.mp member).1
          exact (charged l low high).1
      _ ≤ (n + 1) * limit := by
          have bound := sum_charges_le created member recurring ordered (by omega) fresh charges first n
          rw [← width_eq, ← limit_eq] at bound
          exact bound
  · obtain ⟨most, within, dead⟩ := charged l (by omega) high
    refine ⟨most.trans within, fun expired => ?_⟩
    have nothing := dead expired
    omega

namespace Sample

/-- No more than 1000 lamports in a window of 2 slots. -/
def ratePolicy : Bytes :=
  [2, 32, 0] ++ List.replicate 8 0 ++ Bytes.ofNatLE 8 1000 ++ Bytes.ofNatLE 8 0 ++ Bytes.ofNatLE 8 2 ++
    Bytes.ofNatLE 8 0

def createRateData : Bytes :=
  [5] ++ sessionKey.bytes ++ Bytes.ofNatLE 8 2000 ++ Bytes.ofNatLE 2 ratePolicy.length ++ ratePolicy

def createRate : Call :=
  { createSession with frame := topLevel 1003 [] 0 createRateData, data := createRateData }

/-- The session moves 1000 lamports at a slot. -/
def spendAt (slot : UInt64) : Call :=
  { executeSession with frame := topLevel slot [] 1000 ([4] ++ transferBatch 5 3 6 1000) }

/-- The session spends its limit, tries to again at the end of the window, and succeeds in the slot after it. -/
def rateEvents : List Event :=
  Sample.events.take 9 ++ [.call createRate, .call (spendAt 1004), .call (spendAt 1006), .call (spendAt 1007)]

end Sample

/-- The session takes its limit twice within four slots, and nothing in between. -/
theorem windowed_spending_sample :
    [10, 11, 12].map (takenUnder Sample.deployment Ledger.empty Sample.rateEvents Sample.session .sol) =
      [1000, 0, 1000] ∧
      ∑ l ∈ (Finset.Ico 10 13).filter (fun l => 1004 ≤ slotAt Sample.rateEvents l ∧
        slotAt Sample.rateEvents l < 1004 + 2 * (2 + 1)),
        takenUnder Sample.deployment Ledger.empty Sample.rateEvents Sample.session .sol l ≤ 3 * 1000 := by
  let bytes := (ledgerAt Sample.deployment Ledger.empty Sample.rateEvents 10 Sample.session).data
  -- everything that is found by running the events, at once
  have facts : (registryAt Sample.deployment Ledger.empty Sample.rateEvents 10 Sample.session = some bytes ∧
        PolicyLocation.of bytes = some ⟨sessionHeaderSize⟩ ∧
        parseActions (PolicyLocation.slice ⟨sessionHeaderSize⟩ bytes) = .ok [⟨.solRecurringLimit, 0, 11, 32⟩]) ∧
      fieldAt bytes ⟨sessionHeaderSize⟩ ⟨.solRecurringLimit, 0, 11, 32⟩ 0 = 1000 ∧
      fieldAt bytes ⟨sessionHeaderSize⟩ ⟨.solRecurringLimit, 0, 11, 32⟩ 16 = 2 ∧
      (∀ l, 10 ≤ l → l ≤ 13 → registryAt Sample.deployment Ledger.empty Sample.rateEvents l Sample.session ≠ none) ∧
      [10, 11, 12].map (takenUnder Sample.deployment Ledger.empty Sample.rateEvents Sample.session .sol) =
        [1000, 0, 1000] := by
    decide +kernel
  obtain ⟨⟨here, located, parsed⟩, limit, width, lives, taken⟩ := facts
  have unsigned : DerivedNeverSign Sample.deployment Sample.rateEvents :=
    Sample.derivedNeverSign_of_apart Sample.derived rfl (by decide +kernel)
  have ordered : SlotsNondecreasing Sample.rateEvents := slotsNondecreasing_of_pairwise (by decide +kernel)
  have rate := (windowed_spending (genesis_empty Sample.deployment) unsigned ordered (by decide) lives here
    ⟨located, parsed⟩ (List.mem_singleton_self _) rfl (by rw [limit]; decide) (by decide)).2.1 1004 2
  rw [limit, width] at rate
  exact ⟨taken, rate⟩

end LazorKit
