import LazorKit.Proofs.Acceptance
import LazorKit.Proofs.ConcreteRun
import LazorKit.Soundness.OwnerCount

/-! # The counter law

A passkey authority's stored counter counts its accepted assertions, and nothing else moves it. A
challenge names the next counter, so one account accepts it once; to be accepted again at the same
address the account must have been closed and created anew, all inside the age window of the
signature.
-/

namespace LazorKit

open Solana

/-- The approval is an assertion by this account. -/
def Approval.isAssertionBy (key : Pubkey) : Approval → Bool
  | .authority account _ (some _) => account = key
  | _ => false

/-- How many assertions of the account an instruction accepted. -/
def acceptances (key : Pubkey) (approvals : List Approval) : ℕ := approvals.countP (·.isAssertionBy key)

private theorem acceptances_eq_zero {key : Pubkey} {approvals : List Approval}
    (silent : ∀ used assertion, Approval.authority key used assertion ∉ approvals) :
    acceptances key approvals = 0 := by
  rw [acceptances, List.countP_eq_zero]
  intro approval member
  match approval with
  | .authority account used (some assertion) =>
    simp only [Approval.isAssertionBy, decide_eq_true_eq]
    rintro rfl
    exact silent used (some assertion) member
  | .authority account used none => simp [Approval.isAssertionBy]
  | .session account sessionKey => simp [Approval.isAssertionBy]

section Step

variable {dep : Deployment} {fr : Frame} {accounts : List AccountInfo} {discriminator : UInt8}
  {approvals : List Approval} {key : Pubkey}

theorem PolicyStep.read_eq {old new : Bytes} (step : PolicyStep old new)
    (checked : AuthorityAccountHeader.check old = .ok ()) :
    AuthorityAccountHeader.read new = AuthorityAccountHeader.read old := by
  rcases step with rfl | ⟨loc, _, _, _, _, _, found, present, evaluated⟩
  · rfl
  · obtain ⟨_, _, same⟩ := evaluatePostActions_eq_ok present evaluated
    rw [PolicyLocation.of_authority checked, Option.map_eq_some_iff] at found
    obtain ⟨fixed, known, rfl⟩ := found
    exact AuthorityAccountHeader.read_congr fun i early =>
      same.getElem?_of_lt (early.trans_le (authorityFixedLen_pos known))

/-- A live passkey authority that stays live moves its counter by the assertions accepted from it and
keeps its type. -/
theorem Fate.counter {old new : Bytes} (fate : Fate dep fr accounts discriminator approvals key old (some new))
    (checked : AuthorityAccountHeader.check old = .ok ())
    (kind : (AuthorityAccountHeader.read old).authorityType = 1) :
    (AuthorityAccountHeader.read new).counter =
        (AuthorityAccountHeader.read old).counter + acceptances key approvals ∧
      (AuthorityAccountHeader.read new).authorityType = 1 := by
  have tag := (AuthorityAccountHeader.check_eq_ok.mp checked).2.1
  cases fate with
  | kept silent => exact ⟨by rw [acceptances_eq_zero silent, Nat.add_zero], kind⟩
  | recounted wallet => exact absurd ((WalletAccount.check_eq_ok.mp wallet).2.1.symm.trans tag) (by decide)
  | sessionUsed session => exact absurd (session.symm.trans tag) (by decide)
  | acted _ only step policy =>
    rw [policy.read_eq (step.check_eq checked), only]
    cases step with
    | ed25519 other => exact absurd (kind.symm.trans other) (by decide)
    | @secp256r1 assertion _ verified =>
      have count : acceptances key [.authority key discriminator (some assertion)] = 1 := by
        simp [acceptances, Approval.isAssertionBy]
      rw [AuthorityAccountHeader.read_write_counter (AuthStep.size_le verified) verified.counterBound, count,
        ← verified.counter]
      exact ⟨rfl, kind⟩

/-- A record that is an authority afterwards was one before. -/
theorem Fate.check_authority {old new : Bytes}
    (fate : Fate dep fr accounts discriminator approvals key old (some new))
    (checked : AuthorityAccountHeader.check new = .ok ()) : AuthorityAccountHeader.check old = .ok () := by
  have tag := fate.tag
  rw [(AuthorityAccountHeader.check_eq_ok.mp checked).2.1] at tag
  cases fate with
  | kept => exact checked
  | recounted wallet => exact absurd ((WalletAccount.check_eq_ok.mp wallet).2.1.symm.trans tag.symm) (by decide)
  | sessionUsed session => exact absurd (session.symm.trans tag.symm) (by decide)
  | acted before => exact before

end Step

section Runs

variable {dep : Deployment} {start : Ledger} {events : List Event} {authority : Pubkey}

/-- The counter stored in an account in front of the `i`th event. -/
def counterAt (dep : Deployment) (start : Ledger) (events : List Event) (i : ℕ) (key : Pubkey) : ℕ :=
  (AuthorityAccountHeader.read (ledgerAt dep start events i key).data).counter

/-- A live passkey authority in front of the `i`th event. -/
def LivePasskey (dep : Deployment) (start : Ledger) (events : List Event) (i : ℕ) (key : Pubkey) : Prop :=
  LiveAuthority dep (ledgerAt dep start events i) key ∧
    (AuthorityAccountHeader.read (ledgerAt dep start events i key).data).authorityType = 1

/-- The live authority approved the `i`th event, a successful instruction, with this assertion. -/
def AcceptedAt (dep : Deployment) (start : Ledger) (events : List Event) (i : ℕ) (key : Pubkey)
    (discriminator : UInt8) (assertion : Assertion) : Prop :=
  AssertedAt dep start events i key discriminator assertion ∧
    LiveAuthority dep (ledgerAt dep start events i) key

theorem liveAuthority_iff {i : ℕ} {key : Pubkey} :
    LiveAuthority dep (ledgerAt dep start events i) key ↔
      ∃ bytes, registryAt dep start events i key = some bytes ∧ AuthorityAccountHeader.check bytes = .ok () := by
  constructor
  · intro live
    exact ⟨_, registry_of_liveAuthority live, live.2⟩
  · rintro ⟨bytes, recorded, checked⟩
    obtain ⟨owned, rfl, _⟩ := registry_eq_some.mp recorded
    exact ⟨owned, checked⟩

/-- The checks behind an acceptance. -/
theorem AcceptedAt.verified {i : ℕ} {key : Pubkey} {discriminator : UInt8} {assertion : Assertion}
    (accepted : AcceptedAt dep start events i key discriminator assertion) :
    LivePasskey dep start events i key ∧ ∃ call m authPayload signedPayload,
      SucceedsAt dep start events i call m ∧ m.approved = [.authority key discriminator (some assertion)] ∧
      discriminator = call.discriminator ∧
      Verified dep call.frame call.processorAccounts (ledgerAt dep start events i key).data authPayload
        signedPayload discriminator assertion := by
  obtain ⟨⟨call, m, success, member⟩, live⟩ := accepted
  obtain ⟨only, same, kind, _, _, authPayload, signedPayload, verified⟩ := Call.execute_verified success.2 member
  exact ⟨⟨live, kind⟩, call, m, authPayload, signedPayload, success, only, same, verified⟩

/-- What each event does to the counter of a passkey that stays live. -/
theorem counter_succ {i : ℕ} (funded : Funded dep start) (live : LivePasskey dep start events i authority)
    (still : LiveAuthority dep (ledgerAt dep start events (i + 1)) authority) :
    LivePasskey dep start events (i + 1) authority ∧
      ((∃ call m, SucceedsAt dep start events i call m ∧
          counterAt dep start events (i + 1) authority =
            counterAt dep start events i authority + acceptances authority m.approved) ∨
        ((∀ call m, ¬SucceedsAt dep start events i call m) ∧
          counterAt dep start events (i + 1) authority = counterAt dep start events i authority)) := by
  have before := registry_of_liveAuthority live.1
  have after := registry_of_liveAuthority still
  rcases registryAt_succ events funded i with ⟨same, failed⟩ | ⟨call, m, success⟩
  · have sameData : (ledgerAt dep start events (i + 1) authority).data =
        (ledgerAt dep start events i authority).data := by
      rw [registryAt, registryAt] at same
      rw [same, before] at after
      exact (Option.some.inj after).symm
    refine ⟨⟨still, by rw [sameData]; exact live.2⟩, .inr ⟨failed, ?_⟩⟩
    rw [counterAt, sameData]
    rfl
  · have fate := success.transition.fate before
    rw [registryAt, after] at fate
    obtain ⟨counter, kind⟩ := fate.counter live.1.2 live.2
    exact ⟨⟨still, kind⟩, .inl ⟨call, m, success, counter⟩⟩

/-- While a passkey stays live its counter never falls. -/
theorem counter_mono {i j : ℕ} (funded : Funded dep start) (le : i ≤ j)
    (live : LivePasskey dep start events i authority)
    (still : ∀ k, i < k → k ≤ j → LiveAuthority dep (ledgerAt dep start events k) authority) :
    LivePasskey dep start events j authority ∧
      counterAt dep start events i authority ≤ counterAt dep start events j authority := by
  induction j with
  | zero =>
    cases Nat.le_zero.mp le
    exact ⟨live, le_rfl⟩
  | succ j ih =>
    rcases Nat.lt_or_ge j i with early | late
    · have same : i = j + 1 := by omega
      exact same ▸ ⟨live, le_rfl⟩
    · obtain ⟨here, mono⟩ := ih late fun k low high => still k low (by omega)
      obtain ⟨next, moved⟩ := counter_succ funded here (still (j + 1) (by omega) le_rfl)
      refine ⟨next, ?_⟩
      rcases moved with ⟨_, _, _, moved⟩ | ⟨_, moved⟩
      · omega
      · omega

/-- One account instance never accepts one challenge preimage twice. -/
theorem not_accepted_twice {i j : ℕ} {d₁ d₂ : UInt8} {a₁ a₂ : Assertion} (funded : Funded dep start) (lt : i < j)
    (still : ∀ k, i < k → k ≤ j → LiveAuthority dep (ledgerAt dep start events k) authority)
    (first : AcceptedAt dep start events i authority d₁ a₁)
    (second : AcceptedAt dep start events j authority d₂ a₂) :
    a₁.preimage d₁ dep.programId ≠ a₂.preimage d₂ dep.programId := by
  intro same
  obtain ⟨live, call, m, _, _, success, only, _, verified⟩ := first.verified
  obtain ⟨_, _, _, _, _, _, _, _, verified'⟩ := second.verified
  have counters := (sameChallenge_of_preimage verified verified' same).counter
  rw [verified.counter, verified'.counter] at counters
  obtain ⟨next, moved⟩ := counter_succ funded live (still (i + 1) (by omega) (by omega))
  have advanced : counterAt dep start events (i + 1) authority = counterAt dep start events i authority + 1 := by
    rcases moved with ⟨call', m', success', moved⟩ | ⟨failed, _⟩
    · have one : acceptances authority m.approved = 1 := by
        rw [only]
        simp [acceptances, Approval.isAssertionBy]
      rw [moved, ← (success.unique success').2, one]
    · exact absurd success (failed call m)
  have mono := (counter_mono funded (show i + 1 ≤ j by omega) next fun k low high => still k (by omega) high).2
  have here : (AuthorityAccountHeader.read (ledgerAt dep start events i authority).data).counter =
      counterAt dep start events i authority := rfl
  have there : (AuthorityAccountHeader.read (ledgerAt dep start events j authority).data).counter =
      counterAt dep start events j authority := rfl
  rw [here, there] at counters
  omega

/-- A live authority that was not one earlier was created in between, where no record was, by an
instruction that creates authorities. -/
theorem created_between {i j : ℕ} (funded : Funded dep start) (le : i ≤ j)
    (dead : ¬LiveAuthority dep (ledgerAt dep start events i) authority)
    (live : LiveAuthority dep (ledgerAt dep start events j) authority) :
    ∃ k call m, i ≤ k ∧ k < j ∧ SucceedsAt dep start events k call m ∧
      registryAt dep start events k authority = none ∧
      (call.discriminator = 0 ∨ call.discriminator = 1 ∨ call.discriminator = 3) := by
  obtain ⟨k, call, m, low, high, success, fails, since⟩ := exists_establishing_call
    (P := fun reg => ∃ bytes, reg authority = some bytes ∧ AuthorityAccountHeader.check bytes = .ok ())
    funded le (fun here => dead (liveAuthority_iff.mpr here)) (liveAuthority_iff.mp live)
  obtain ⟨born, created, checked⟩ := since (k + 1) (by omega) (by omega)
  have vacant : registryAt dep start events k authority = none := by
    cases before : registryAt dep start events k authority with
    | none => rfl
    | some old =>
      have fate := success.transition.fate before
      rw [created] at fate
      exact absurd ⟨old, before, fate.check_authority checked⟩ fails
  refine ⟨k, call, m, low, high, success, vacant, ?_⟩
  have tag := (AuthorityAccountHeader.check_eq_ok.mp checked).2.1
  cases success.transition.birth vacant created with
  | wallet bump => exact absurd ((byte_newWallet bump).symm.trans tag) (by decide)
  | authority which => exact which
  | session => exact absurd ((byte_newSession _ _ _).symm.trans tag) (by decide)
  | deferred => exact absurd ((byte_newDeferred _ _ _ _ _ _).symm.trans tag) (by decide)

/-- The account stopped being a live authority after `i` and was created anew before `j`. -/
def Recreated (dep : Deployment) (start : Ledger) (events : List Event) (i j : ℕ) (key : Pubkey) : Prop :=
  ∃ closed created call m, i < closed ∧ closed ≤ created ∧ created < j ∧
    ¬LiveAuthority dep (ledgerAt dep start events closed) key ∧
    SucceedsAt dep start events created call m ∧ registryAt dep start events created key = none ∧
    (call.discriminator = 0 ∨ call.discriminator = 1 ∨ call.discriminator = 3)

/-- The slot of the `i`th event lies in the age window of the assertion. -/
def InAgeWindow (events : List Event) (i : ℕ) (assertion : Assertion) : Prop :=
  ∃ call, events[i]? = some (.call call) ∧ signedSlot assertion.authPrefix ≤ call.slot ∧
    call.slot ≤ signedSlot assertion.authPrefix + 149

/-- What follows when two acceptances by one address are for the same challenge, whatever sameness
means: never by one account instance, and otherwise only across a close and a re-creation. -/
structure ReplayLaw (same : UInt8 → Assertion → UInt8 → Assertion → Prop) (dep : Deployment) (start : Ledger)
    (events : List Event) (key : Pubkey) : Prop where
  once : ∀ {i j d₁ d₂ a₁ a₂}, i < j →
    (∀ k, i < k → k ≤ j → LiveAuthority dep (ledgerAt dep start events k) key) →
    AcceptedAt dep start events i key d₁ a₁ → AcceptedAt dep start events j key d₂ a₂ → ¬same d₁ a₁ d₂ a₂
  again : ∀ {i j d₁ d₂ a₁ a₂}, i < j → AcceptedAt dep start events i key d₁ a₁ →
    AcceptedAt dep start events j key d₂ a₂ → same d₁ a₁ d₂ a₂ →
    Recreated dep start events i j key ∧
      signedSlot a₁.authPrefix = signedSlot a₂.authPrefix ∧
      InAgeWindow events i a₁ ∧ InAgeWindow events j a₂

private theorem AcceptedAt.inAgeWindow {i : ℕ} {discriminator : UInt8} {assertion : Assertion}
    (accepted : AcceptedAt dep start events i authority discriminator assertion) :
    InAgeWindow events i assertion := by
  obtain ⟨_, call, _, _, _, success, _, _, verified⟩ := accepted.verified
  exact ⟨call, success.1, verified.window⟩

private theorem replayLaw_preimage (funded : Funded dep start) :
    ReplayLaw (fun d₁ a₁ d₂ a₂ => a₁.preimage d₁ dep.programId = a₂.preimage d₂ dep.programId) dep start events
      authority where
  once lt still first second := not_accepted_twice funded lt still first second
  again := by
    intro i j d₁ d₂ a₁ a₂ lt first second same
    have gap : ∃ k, i < k ∧ k ≤ j ∧ ¬LiveAuthority dep (ledgerAt dep start events k) authority := by
      by_contra never
      push Not at never
      exact not_accepted_twice funded lt never first second same
    obtain ⟨closed, late, early, dead⟩ := gap
    obtain ⟨created, call, m, low, high, success, vacant, which⟩ :=
      created_between funded early dead second.verified.1.1
    obtain ⟨_, _, _, _, _, _, _, _, verified⟩ := first.verified
    obtain ⟨_, _, _, _, _, _, _, _, verified'⟩ := second.verified
    have fronts := (sameChallenge_of_preimage verified verified' same).authPrefix
    exact ⟨⟨closed, created, call, m, late, low, high, dead, success, vacant, which⟩, by rw [fronts],
      first.inAgeWindow, second.inAgeWindow⟩

/-- Where SHA-256 has no collision among the preimages of the run, equal challenges have equal preimages. -/
theorem replayLaw_challenge (funded : Funded dep start)
    (injective : Set.InjOn dep.sha256 (challengePreimages dep start events)) :
    ReplayLaw (fun d₁ a₁ d₂ a₂ => dep.sha256 (a₁.preimage d₁ dep.programId) =
      dep.sha256 (a₂.preimage d₂ dep.programId)) dep start events authority where
  once lt still first second same := (replayLaw_preimage funded).once lt still first second
    (injective ⟨_, _, _, _, first.1, rfl⟩ ⟨_, _, _, _, second.1, rfl⟩ same)
  again lt first second same := (replayLaw_preimage funded).again lt first second
    (injective ⟨_, _, _, _, first.1, rfl⟩ ⟨_, _, _, _, second.1, rfl⟩ same)

/-- The counter of one passkey account over a run, and what it means for replays. -/
structure CounterLaw (dep : Deployment) (start : Ledger) (events : List Event) (key : Pubkey) : Prop where
  /-- A successful instruction moves the counter by the authentications it accepted from the account. -/
  advances : ∀ {i call m}, LivePasskey dep start events i key →
    LiveAuthority dep (ledgerAt dep start events (i + 1)) key → SucceedsAt dep start events i call m →
    LivePasskey dep start events (i + 1) key ∧ acceptances key m.approved ≤ 1 ∧
      counterAt dep start events (i + 1) key = counterAt dep start events i key + acceptances key m.approved
  /-- Nothing else moves it. -/
  rests : ∀ {i}, LivePasskey dep start events i key →
    LiveAuthority dep (ledgerAt dep start events (i + 1)) key →
    (∀ call m, ¬SucceedsAt dep start events i call m) →
    LivePasskey dep start events (i + 1) key ∧
      counterAt dep start events (i + 1) key = counterAt dep start events i key
  /-- An accepted authentication had room for one more. -/
  noWrap : ∀ {i discriminator assertion}, AcceptedAt dep start events i key discriminator assertion →
    assertion.counter = counterAt dep start events i key + 1 ∧ counterAt dep start events i key + 1 < 2 ^ 32
  /-- A failed authentication leaves the account's bytes, and a failed instruction the ledger. -/
  failed : ∀ {fr accounts authData authPayload signedPayload discriminator e bytes},
    Secp256r1Authenticator.authenticate dep fr accounts authData authPayload signedPayload discriminator =
      (.error e, bytes) → bytes = authData
  failedCall : ∀ {i call e}, events[i]? = some (.call call) →
    call.execute dep (ledgerAt dep start events i) = .error e →
    ledgerAt dep start events (i + 1) = ledgerAt dep start events i
  replay : ReplayLaw (fun d₁ a₁ d₂ a₂ => a₁.preimage d₁ dep.programId = a₂.preimage d₂ dep.programId) dep start
    events key
  replayHashed : Set.InjOn dep.sha256 (challengePreimages dep start events) →
    ReplayLaw (fun d₁ a₁ d₂ a₂ => dep.sha256 (a₁.preimage d₁ dep.programId) =
      dep.sha256 (a₂.preimage d₂ dep.programId)) dep start events key

theorem acceptances_le_one {i : ℕ} {call : Call} {m : Machine Approval}
    (success : SucceedsAt dep start events i call m) : acceptances authority m.approved ≤ 1 := by
  by_cases silent : ∀ used assertion, Approval.authority authority used assertion ∉ m.approved
  · rw [acceptances_eq_zero silent]
    exact Nat.zero_le 1
  · push Not at silent
    obtain ⟨used, assertion, member⟩ := silent
    rw [(success.transition.approved_inv member).1]
    exact List.countP_le_length

/-- The counter law, for every address and from every start without records. -/
theorem counter_law (genesis : Genesis dep start) (authority : Pubkey) :
    CounterLaw dep start events authority where
  advances := by
    intro i call m live still success
    obtain ⟨next, moved⟩ := counter_succ genesis.funded live still
    refine ⟨next, acceptances_le_one success, ?_⟩
    rcases moved with ⟨call', m', success', moved⟩ | ⟨failed, _⟩
    · rw [moved, (success.unique success').2]
    · exact absurd success (failed call m)
  rests := by
    intro i live still idle
    obtain ⟨next, moved⟩ := counter_succ genesis.funded live still
    refine ⟨next, ?_⟩
    rcases moved with ⟨call, m, success, _⟩ | ⟨_, same⟩
    · exact absurd success (idle call m)
    · exact same
  noWrap := by
    intro i discriminator assertion accepted
    obtain ⟨_, _, _, _, _, _, _, _, verified⟩ := accepted.verified
    refine ⟨verified.counter, ?_⟩
    have bound := verified.counterBound
    rw [verified.counter] at bound
    exact bound
  failed := by
    intro fr accounts authData authPayload signedPayload discriminator e bytes failure
    rw [Secp256r1Authenticator.authenticate] at failure
    split at failure
    · exact (Prod.mk.inj failure).2.symm
    · cases (Prod.mk.inj failure).1
  failedCall := by
    intro i call e at_ failure
    rw [ledgerAt_eq, Run.stateAt_succ at_, step, ← ledgerAt_eq, failure]
  replay := replayLaw_preimage genesis.funded
  replayHashed := replayLaw_challenge genesis.funded

end Runs

theorem counter_law_sample :
    counterAt Sample.deployment Ledger.empty Sample.events 8 Sample.authorityB =
      counterAt Sample.deployment Ledger.empty Sample.events 7 Sample.authorityB + 1 := by
  have law : CounterLaw Sample.deployment Ledger.empty Sample.events Sample.authorityB :=
    counter_law (genesis_empty Sample.deployment) Sample.authorityB
  have live : LivePasskey Sample.deployment Ledger.empty Sample.events 7 Sample.authorityB := by
    unfold LivePasskey LiveAuthority
    decide +kernel
  have still : LiveAuthority Sample.deployment (ledgerAt Sample.deployment Ledger.empty Sample.events 8)
      Sample.authorityB := by
    unfold LiveAuthority
    decide +kernel
  have success : SucceedsAt Sample.deployment Ledger.empty Sample.events 7 Sample.authorize
      (resultAt Sample.deployment Ledger.empty Sample.events 7 Sample.authorize) :=
    succeedsAt_resultAt rfl (by decide +kernel)
  rw [(law.advances live still success).2.2]
  decide +kernel

end LazorKit
