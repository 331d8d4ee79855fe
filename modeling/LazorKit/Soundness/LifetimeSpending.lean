import LazorKit.Proofs.ConcreteRun
import LazorKit.Proofs.PolicyBirth

/-! # A lifetime limit in the ledger

What the Executes under a session or a delegate take out of vaults, all of them together, stays within what the
record still allows, whatever else happens between them. What the record allows is a number in its policy, the
takings are lamports, or tokens of a mint, of the ledger.
-/

namespace LazorKit

open Solana

/-- What a record still allows under a limit. -/
def remainingOf (loc : PolicyLocation) (action : ActionView) (record : Option Bytes) : ℕ :=
  record.elim 0 fun bytes => fieldAt bytes loc action 0

variable {dep : Deployment} {start : Ledger} {events : List Event} {i j : ℕ} {key : Pubkey} {old new bytes : Bytes}
  {loc : PolicyLocation} {actions : List ActionView} {action : ActionView}

/-- An event lowers what a lifetime limit still allows by at least what is taken under it, and nothing is taken once the
limit expired. -/
theorem PolicyEvent.remaining (event : PolicyEvent dep start events key i loc old new) (bears : Bears loc actions old)
    (sized : WellSized actions) (member : action ∈ actions) (lifetime : action.actionType.isLifetime = true)
    (program : action.actionType.isToken = true → ¬isTokenProgram dep.programId) :
    fieldAt new loc action 0 + takenUnder dep start events key (assetOf old loc action) i ≤ fieldAt old loc action 0 ∧
      (isExpired action (slotAt events i) = true → takenUnder dep start events key (assetOf old loc action) i = 0) := by
  cases event with
  | idle _ same free =>
    rw [free, fieldAt_of_slice same]
    exact ⟨le_rfl, fun _ => rfl⟩
  | executed _ place same accepted taken =>
    have approved := bears.of_slice place same
    obtain ⟨_, _, charged⟩ := approved.evaluated sized (isPresent_of_mem approved.parsed member) accepted
    obtain ⟨lower, alive⟩ := (charged action member).remaining lifetime
    have most := taken action program
    rw [assetOf_of_slice same] at most
    rw [fieldAt_of_slice same] at lower
    refine ⟨by omega, fun expired => ?_⟩
    have nothing := alive expired
    omega

/-- Under a lifetime limit on lamports or on tokens: whatever else happens while the record lives, it keeps its actions;
what it still allows together with all that its Executes took out of vaults is at most what it allowed before; and
nothing is taken out once the limit expired. -/
theorem lifetime_spending (genesis : Genesis dep start) (unsigned : DerivedNeverSign dep events) (le : i ≤ j)
    (lives : ∀ l, i ≤ l → l ≤ j → registryAt dep start events l key ≠ none)
    (here : registryAt dep start events i key = some bytes) (bears : Bears loc actions bytes)
    (member : action ∈ actions) (lifetime : action.actionType.isLifetime = true)
    (program : action.actionType.isToken = true → ¬isTokenProgram dep.programId) :
    (∀ l, i ≤ l → l ≤ j → ∃ now, registryAt dep start events l key = some now ∧ Bears loc actions now ∧
        assetOf now loc action = assetOf bytes loc action) ∧
      remainingOf loc action (registryAt dep start events j key) +
          ∑ l ∈ Finset.Ico i j, takenUnder dep start events key (assetOf bytes loc action) l ≤
        remainingOf loc action (registryAt dep start events i key) ∧
      ∀ l, i ≤ l → l < j → isExpired action (slotAt events l) = true →
        takenUnder dep start events key (assetOf bytes loc action) l = 0 := by
  have present := isPresent_of_mem bears.parsed member
  obtain ⟨_, _, _, _, _, _, _, sized, _⟩ := policy_born genesis unsigned here bears present
  have bearing (l : ℕ) (low : i ≤ l) (high : l ≤ j) : ∃ now, registryAt dep start events l key = some now ∧
      Bears loc actions now ∧ assetOf now loc action = assetOf bytes loc action := by
    obtain ⟨now, there, still⟩ := bears_between genesis unsigned lives here bears sized present low high
    exact ⟨now, there, still.bears, still.asset action member⟩
  have charged (l : ℕ) (low : i ≤ l) (high : l < j) :
      remainingOf loc action (registryAt dep start events (l + 1) key) +
          takenUnder dep start events key (assetOf bytes loc action) l ≤
        remainingOf loc action (registryAt dep start events l key) ∧
      (isExpired action (slotAt events l) = true →
        takenUnder dep start events key (assetOf bytes loc action) l = 0) := by
    obtain ⟨now, there, bears, asset⟩ := bearing l low high.le
    obtain ⟨next, still⟩ := Option.ne_none_iff_exists'.mp (lives (l + 1) (by omega) high)
    have event := policy_event genesis unsigned there still bears.located (isPresent_of_mem bears.parsed member)
    rw [there, still, ← asset]
    exact event.remaining bears sized member lifetime program
  refine ⟨bearing, ?_, fun l low high => (charged l low high).2⟩
  exact Run.sum_add_le_of_charges (fun l => remainingOf loc action (registryAt dep start events l key))
    (takenUnder dep start events key (assetOf bytes loc action)) le fun l low high => (charged l low high).1

/-- The session of the sample, allowed 5000 lamports, takes 1000. -/
theorem lifetime_spending_sample :
    takenUnder Sample.deployment Ledger.empty Sample.events Sample.session .sol 10 = 1000 ∧
      ∑ l ∈ Finset.Ico 10 12, takenUnder Sample.deployment Ledger.empty Sample.events Sample.session .sol l ≤ 5000 := by
  let bytes := (ledgerAt Sample.deployment Ledger.empty Sample.events 10 Sample.session).data
  -- everything that is found by running the events, at once
  have facts : (registryAt Sample.deployment Ledger.empty Sample.events 10 Sample.session = some bytes ∧
        PolicyLocation.of bytes = some ⟨sessionHeaderSize⟩ ∧
        parseActions (PolicyLocation.slice ⟨sessionHeaderSize⟩ bytes) = .ok [⟨.solLimit, 0, 11, 8⟩]) ∧
      (∀ l, 10 ≤ l → l ≤ 12 → registryAt Sample.deployment Ledger.empty Sample.events l Sample.session ≠ none) ∧
      remainingOf ⟨sessionHeaderSize⟩ ⟨.solLimit, 0, 11, 8⟩
        (registryAt Sample.deployment Ledger.empty Sample.events 10 Sample.session) = 5000 ∧
      takenUnder Sample.deployment Ledger.empty Sample.events Sample.session .sol 10 = 1000 := by
    decide +kernel
  obtain ⟨⟨here, located, parsed⟩, lives, allowed, taken⟩ := facts
  have covered := (lifetime_spending (genesis_empty Sample.deployment) Sample.derivedNeverSign (by decide) lives here
    ⟨located, parsed⟩ (List.mem_singleton_self _) rfl (by decide)).2.1
  refine ⟨taken, ?_⟩
  change _ + ∑ l ∈ Finset.Ico 10 12, takenUnder _ _ _ _ .sol l ≤ _ at covered
  omega

end LazorKit
