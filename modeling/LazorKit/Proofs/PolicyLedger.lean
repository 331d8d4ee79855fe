import LazorKit.Proofs.PolicyCharge
import LazorKit.Soundness.AuthorityShape
import LazorKit.Soundness.GrossOutflow
import LazorKit.Soundness.TypeSafety

/-! # A policy beside the ledger

One event of a run, seen from a record with a policy: either its actions stay as they are and nothing is taken under
it, or an Execute under it was accepted, and what the ledger says was taken is what the evaluation held against it.
-/

namespace LazorKit

open Solana TumblingWindow

/-- The account carries a policy of these actions. -/
structure Bears (loc : PolicyLocation) (actions : List ActionView) (bytes : Bytes) : Prop where
  located : PolicyLocation.of bytes = some loc
  parsed : parseActions (loc.slice bytes) = .ok actions

variable {dep : Deployment} {fr : Frame} {accounts : List AccountInfo} {data : Bytes} {m m' : Machine Approval}
  {key : Pubkey} {old new bytes : Bytes} {loc : PolicyLocation} {actions : List ActionView} {action : ActionView}
  {out : Outflows} {slot : ℕ}

theorem fieldAt_of_slice (same : loc.slice new = loc.slice old) (action : ActionView) (field : ℕ) :
    fieldAt new loc action field = fieldAt old loc action field := by
  rw [fieldAt, fieldAt]
  simpa [PolicyLocation.abs, Nat.add_assoc] using
    storedU64_of_slice_eq same (action.dataOffset + action.actionType.fieldBase + field)

private theorem mintNamed_of_slice (same : loc.slice new = loc.slice old) (action : ActionView) :
    mintNamed new loc action = mintNamed old loc action := by
  rw [mintNamed, mintNamed, PolicyLocation.abs, ← Bytes.slice_drop, ← Bytes.slice_drop]
  exact congrArg (fun policy => Bytes.slice policy action.dataOffset 32) same

theorem assetOf_of_slice (same : loc.slice new = loc.slice old) (action : ActionView) :
    assetOf new loc action = assetOf old loc action := by
  rw [assetOf, assetOf, mintNamed_of_slice same]

theorem Bears.of_slice (bears : Bears loc actions old) (located : PolicyLocation.of new = some loc)
    (same : loc.slice new = loc.slice old) : Bears loc actions new :=
  ⟨located, same ▸ bears.parsed⟩

/-- What an accepted evaluation did to an action: its limit let the outflow through, and it was committed as if it were
the only one. -/
structure Charged (loc : PolicyLocation) (out : Outflows) (slot : ℕ) (action : ActionView) (old new : Bytes) :
    Prop where
  size : action.dataLen = action.actionType.expectedDataSize
  inside : Inside old loc action
  checked : checkSolLimit old loc out slot action = .ok () ∧ checkTokenLimit old loc out slot action = .ok ()
  committed : ∃ middle written, Inside middle loc action ∧ SameData loc action old middle ∧
    commitAction loc out slot middle action = .ok written ∧ SameData loc action written new

/-- An accepted evaluation keeps the actions and charges each of them. -/
theorem Bears.evaluated {before after gross : ℕ} {flows : List MintFlow} (bears : Bears loc actions old)
    (sized : WellSized actions) (present : loc.isPresent old = true)
    (accepted : evaluatePostActions old loc before after gross flows slot = (.ok (), new)) :
    Bears loc actions new ∧ Carries loc actions old new ∧
      ∀ action ∈ actions, Charged loc ⟨before - after, gross, flows⟩ slot action old new := by
  obtain ⟨_, again, same⟩ := evaluatePostActions_eq_ok present accepted
  cases Except.ok.inj (bears.parsed.symm.trans again)
  obtain ⟨check, commit⟩ : checkPostActions old loc ⟨before - after, gross, flows⟩ slot actions = .ok () ∧
      commitActions loc ⟨before - after, gross, flows⟩ slot actions old = (.ok (), new) := by
    rw [evaluatePostActions, if_pos present] at accepted
    simp only [bears.parsed] at accepted
    split at accepted
    · cases accepted
    · next check => exact ⟨check, accepted⟩
  simp only [checkPostActions, Except.bind_eq_ok, Except.ensure_eq_ok, exists_const] at check
  obtain ⟨_, sol, _, token, _, _⟩ := check
  have carries := (Carries.start sized bears.parsed).rewritten same
  have behind := PolicyLocation.two_le bears.located
  refine ⟨⟨?_, carries.parsed⟩, carries, fun action member => ?_⟩
  · rw [PolicyLocation.of_congr same.length (same.byte_of_lt (by omega)) (same.byte_of_lt (by omega)), bears.located]
  · have inside := inside_of_parse bears.parsed sized action member
    have ordered := (parseActions_eq_ok.mp bears.parsed).1.pairwise
    obtain ⟨middle, written, length, front, one, back⟩ := commitActions_one sized ordered member commit
    exact ⟨sized action member, inside,
      ⟨Except.forM_eq_ok.mp sol action member, Except.forM_eq_ok.mp token action member⟩,
      middle, written, by rwa [Inside, length], front, one, back⟩

namespace Charged

/-- A lifetime limit loses what left, and nothing leaves once it expired. -/
theorem remaining (charged : Charged loc out slot action old new) (lifetime : action.actionType.isLifetime = true) :
    fieldAt new loc action 0 + outflowOf old loc out action = fieldAt old loc action 0 ∧
      (isExpired action slot = true → outflowOf old loc out action = 0) := by
  have fits := ActionType.lifetime_fits lifetime
  have size := charged.size
  have within := capHolds_of_check lifetime charged.inside charged.checked
  obtain ⟨middle, written, inside, front, one, back⟩ := charged.committed
  have lower := commitAction_remaining lifetime inside one
  rw [front.fieldAt (by omega), ← back.fieldAt (by omega), front.outflowOf size] at lower
  rw [lower]
  rcases within with nothing | ⟨live, bound⟩
  · rw [nothing, ite_self]
    exact ⟨rfl, fun _ => rfl⟩
  · rw [live]
    exact ⟨Nat.sub_add_cancel bound, fun expired => absurd expired (by decide)⟩

/-- Under a limit per window no more leaves than the limit, and nothing once it expired. -/
theorem within (charged : Charged loc out slot action old new) (recurring : action.actionType.isRecurring = true)
    (small : fieldAt old loc action 0 < maxU64) :
    outflowOf old loc out action ≤ fieldAt old loc action 0 ∧
      (isExpired action slot = true → outflowOf old loc out action = 0) := by
  rcases recurringHolds_of_check recurring charged.inside charged.checked with nothing | ⟨live, room⟩
  · rw [nothing]
    exact ⟨Nat.zero_le _, fun _ => rfl⟩
  · refine ⟨?_, fun expired => absurd (live.symm.trans expired) (by decide)⟩
    split at room
    · exact room
    · have room := room.resolve_right small.ne
      omega

/-- A limit per window enters what left in its window, which stays within the limit. -/
theorem window {window : Window} (charged : Charged loc out slot action old new)
    (recurring : action.actionType.isRecurring = true) (clock : slot ≤ maxU64)
    (stores : StoresWindow old loc action window)
    (bounded : window.total ≤ fieldAt old loc action 0) (small : fieldAt old loc action 0 < maxU64) :
    StoresWindow new loc action
        (charge (fieldAt old loc action 16) window ⟨slot, outflowOf old loc out action⟩) ∧
      (charge (fieldAt old loc action 16) window ⟨slot, outflowOf old loc out action⟩).total ≤
        fieldAt old loc action 0 := by
  have fits := ActionType.recurring_fits recurring
  have size := charged.size
  have within := recurringHolds_of_check recurring charged.inside charged.checked
  obtain ⟨middle, written, inside, front, one, back⟩ := charged.committed
  have before (field : ℕ) (low : field + 8 ≤ 32) : fieldAt middle loc action field = fieldAt old loc action field :=
    front.fieldAt (by omega)
  have after (field : ℕ) (low : field + 8 ≤ 32) : fieldAt new loc action field = fieldAt written loc action field :=
    back.fieldAt (by omega)
  have spent : fieldAt old loc action 8 = window.total := stores.spent.trans (Nat.min_eq_left (by omega))
  rcases Nat.eq_zero_or_pos (outflowOf old loc out action) with nothing | some_
  · have idle : isCharged middle loc out slot action = false := by
      simp [isCharged, front.outflowOf size, nothing]
    rw [commitAction_of_not_charged inside idle] at one
    cases one
    rw [charge_zero nothing]
    refine ⟨⟨?_, ?_⟩, bounded⟩
    · rw [after 24 (by omega), before 24 (by omega), stores.lastReset]
    · rw [after 8 (by omega), before 8 (by omega), stores.spent]
  · obtain ⟨live, room⟩ := within.resolve_left some_.ne'
    rw [stores.lastReset, spent] at room
    have fresh : fieldAt middle loc action 16 < slot - fieldAt middle loc action 24 →
        outflowOf middle loc out action ≤ maxU64 := by
      intro late
      rw [before 16 (by omega), before 24 (by omega), stores.lastReset] at late
      rw [if_pos late] at room
      rw [front.outflowOf size]
      exact room.trans small.le
    have totals := commitAction_window recurring inside live (by rwa [front.outflowOf size]) fresh clock one
    rw [before 16 (by omega), before 24 (by omega), before 8 (by omega), front.outflowOf size, ← after 8 (by omega),
      ← after 24 (by omega), stores.lastReset, spent] at totals
    split at totals
    · next late =>
      obtain ⟨total, opened⟩ := Prod.mk.inj totals
      rw [if_pos late] at room
      rw [charge_of_opens ⟨some_, late⟩]
      exact ⟨⟨opened, total.trans (Nat.min_eq_left (room.trans small.le)).symm⟩, room⟩
    · next early =>
      obtain ⟨total, opened⟩ := Prod.mk.inj totals
      rw [if_neg early] at room
      rw [charge_of_not_opens fun opens => early opens.2]
      refine ⟨⟨opened, total.trans ?_⟩, room.resolve_right small.ne⟩
      simp only [saturatingAdd, maxU64]

end Charged

/-- What an instruction over these accounts took of an asset out of a vault. -/
def Asset.taken (asset : Asset) (before after : Ledger) (accounts : List AccountInfo) (vaultKey : Pubkey) : ℕ :=
  match asset with
  | .sol => (before vaultKey).lamports - (after vaultKey).lamports
  | .token mint => tokensTaken before after accounts vaultKey mint

private theorem Asset.taken_self (asset : Asset) (ledger : Ledger) (accounts : List AccountInfo) (vaultKey : Pubkey) :
    asset.taken ledger ledger accounts vaultKey = 0 := by
  cases asset with
  | sol => exact Nat.sub_self _
  | token mint => exact Nat.sub_self _

/-- What the event at a position takes of an asset out of the wallet's vault, where that is an Execute under the
record. -/
def takenUnder (dep : Deployment) (start : Ledger) (events : List Event) (record : Pubkey) (asset : Asset) (i : ℕ) :
    ℕ :=
  match events[i]? with
  | some (.call call) =>
    match call.processorAccounts[1]?, call.processorAccounts[2]? with
    | some wallet, some authority =>
      if call.discriminator = 4 ∧ authority.key = record then
        asset.taken (ledgerAt dep start events i) (ledgerAt dep start events (i + 1)) call.processorAccounts
          (vaultOf dep wallet.key)
      else 0
    | _, _ => 0
  | _ => 0

/-- The slot of the event at a position. -/
def slotAt (events : List Event) (i : ℕ) : ℕ :=
  match events[i]? with
  | some (.call call) => call.slot
  | _ => 0

variable {start : Ledger} {events : List Event} {asset : Asset} {i j : ℕ}

/-- What is taken under a record, a successful Execute takes. -/
theorem takenUnder_pos (some_ : 0 < takenUnder dep start events key asset i) :
    ∃ call m wallet, SucceedsAt dep start events i call m ∧ call.discriminator = 4 ∧
      KeyAt call.processorAccounts 1 wallet ∧ KeyAt call.processorAccounts 2 key ∧
      takenUnder dep start events key asset i =
        asset.taken (ledgerAt dep start events i) m.ledger call.processorAccounts (vaultOf dep wallet) := by
  unfold takenUnder at some_ ⊢
  split at some_
  · next call at_ =>
    split at some_
    · next wallet authority walletAt authorityAt =>
      split at some_
      · next under =>
        cases outcome : call.execute dep (ledgerAt dep start events i) with
        | error e =>
          have same : ledgerAt dep start events (i + 1) = ledgerAt dep start events i := by
            rw [ledgerAt_eq, Run.stateAt_succ at_, step, ← ledgerAt_eq, outcome]
          rw [same, Asset.taken_self] at some_
          exact absurd some_ (Nat.lt_irrefl 0)
        | ok m =>
          have success : SucceedsAt dep start events i call m := ⟨at_, outcome⟩
          refine ⟨call, m, wallet.key, success, under.1, ⟨_, walletAt, rfl⟩, ⟨_, authorityAt, under.2⟩, ?_⟩
          rw [if_pos under, success.ledgerAt_succ]
      · exact absurd some_ (Nat.lt_irrefl 0)
    · exact absurd some_ (Nat.lt_irrefl 0)
  · exact absurd some_ (Nat.lt_irrefl 0)

private theorem takenUnder_eq_zero (others : ∀ call m, SucceedsAt dep start events i call m → call.discriminator = 4 →
    ¬KeyAt call.processorAccounts 2 key) : takenUnder dep start events key asset i = 0 := by
  by_contra some_
  obtain ⟨call, m, _, success, which, _, at_, _⟩ := takenUnder_pos (Nat.pos_of_ne_zero some_)
  exact others call m success which at_

private theorem SucceedsAt.slotAt_eq {call : Call} (success : SucceedsAt dep start events i call m) :
    slotAt events i = call.frame.slot.toNat := by
  rw [slotAt, success.1]
  rfl

/-- The accounts of a processor are the first of the instruction's. -/
theorem Call.getElem?_processorAccounts {call : Call} {acc : AccountInfo}
    (at_ : call.processorAccounts[i]? = some acc) :
    call.accounts.infos[i]? = some acc := by
  unfold Call.processorAccounts at at_
  split at at_
  · rw [List.getElem?_take] at at_
    split at at_
    · exact at_
    · cases at_
  · exact at_

/-- Collecting the fee takes lamports from the payer alone. -/
theorem Collected.more {call : Call} {collected : Machine Approval} {payer : AccountInfo}
    (collects : Collected dep call m collected) (payerAt : call.processorAccounts[0]? = some payer)
    (other : key ≠ payer.key) : m.lamports key ≤ collected.lamports key := by
  unfold Collected at collects
  split at collects
  · exact tryCollectFee_more (Call.getElem?_processorAccounts payerAt) other collects
  · rw [collects]

private theorem Collected.tokensStay {call : Call} {collected : Machine Approval}
    (program : ¬isTokenProgram dep.programId)
    (collects : Collected dep call m collected) : TokensStay m.ledger collected.ledger := by
  unfold Collected at collects
  split at collects
  · exact .of_tryCollectFee program collects
  · rw [collects]
    exact .refl _

/-- What one event does to the policy of a record that lives on. -/
inductive PolicyEvent (dep : Deployment) (start : Ledger) (events : List Event) (key : Pubkey) (i : ℕ)
    (loc : PolicyLocation) (old new : Bytes) : Prop
  | idle (located : PolicyLocation.of new = some loc) (same : loc.slice new = loc.slice old)
      (free : ∀ asset, takenUnder dep start events key asset i = 0)
  /-- An Execute under the record: approved first, evaluated at the end. -/
  | executed {call : Call} {approved : Bytes} {before after gross : ℕ} {flows : List MintFlow}
      (at_ : events[i]? = some (.call call)) (located : PolicyLocation.of approved = some loc)
      (same : loc.slice approved = loc.slice old)
      (accepted : evaluatePostActions approved loc before after gross flows (slotAt events i) = (.ok (), new))
      (taken : ∀ action : ActionView, (action.actionType.isToken = true → ¬isTokenProgram dep.programId) →
        takenUnder dep start events key (assetOf approved loc action) i ≤
          outflowOf approved loc ⟨before - after, gross, flows⟩ action)

/-- Whatever the event is, the policy stays where it is, and only an Execute under it touches it. -/
theorem policy_event (genesis : Genesis dep start) (unsigned : DerivedNeverSign dep events)
    (here : registryAt dep start events i key = some old) (still : registryAt dep start events (i + 1) key = some new)
    (located : PolicyLocation.of old = some loc) (present : loc.isPresent old = true) :
    PolicyEvent dep start events key i loc old new := by
  rcases registryAt_succ events genesis.funded i with ⟨same, none_⟩ | ⟨call, m, success⟩
  · rw [same, here] at still
    cases still
    exact .idle located rfl fun _ => takenUnder_eq_zero fun call m success => absurd success (none_ call m)
  · by_cases which : call.discriminator = 4
    · obtain ⟨collected, collects, dispatched⟩ := Call.execute_eq_ok success.2
      rw [which] at dispatched
      obtain ⟨payer, wallet, authority, middle, payerAt, signs, walletAt, authorityAt, others, charges⟩ :=
        processExecute_charges dispatched
      have before : registry dep collected.ledger key = some old := collects.quiet.registry ▸ here
      rw [registryAt, success.ledgerAt_succ] at still
      by_cases under : authority = key
      · subst under
        obtain ⟨_, rfl, _⟩ := registry_eq_some.mp before
        obtain ⟨_, rfl, _⟩ := registry_eq_some.mp still
        obtain ⟨place, kept, evaluated⟩ := charges loc located
        obtain ⟨gross, flows, measured, accepted⟩ := evaluated present
        refine .executed success.1 place kept (success.slotAt_eq ▸ accepted) fun action program => ?_
        rcases Nat.eq_zero_or_pos (takenUnder dep start events authority (assetOf middle loc action) i) with
          nothing | some_
        · rw [nothing]
          exact Nat.zero_le _
        · obtain ⟨again, m', wallet', success', _, walletAt', _, amount⟩ := takenUnder_pos some_
          obtain ⟨rfl, rfl⟩ := success.unique success'
          cases walletAt.unique walletAt'
          rw [amount, assetOf, outflowOf]
          split
          · next token =>
            have stays := collects.tokensStay (program token)
            rw [measured (program token)]
            exact (stays.tokensTaken_eq (fun _ _ => rfl) _ _ _).ge
          · have apart : vaultOf dep wallet ≠ payer.key := by
              have few := unsigned call (List.mem_of_getElem? success.1)
              exact (few.payer (Call.getElem?_processorAccounts payerAt) signs rfl).symm
            exact Nat.sub_le_sub_right (collects.more payerAt apart) _
      · rw [others key (Ne.symm under), before] at still
        cases still
        refine .idle located rfl fun _ => takenUnder_eq_zero fun again m' success' _ at_ => ?_
        obtain ⟨rfl, _⟩ := success.unique success'
        exact under (authorityAt.unique at_)
    · obtain ⟨place, same⟩ := success.transition.policiesKept which here still located
      refine .idle place same fun _ => takenUnder_eq_zero fun again m' success' is _ => ?_
      obtain ⟨rfl, _⟩ := success.unique success'
      exact which is

private theorem isPresent_of_slice (same : loc.slice new = loc.slice old) (present : loc.isPresent old = true) :
    loc.isPresent new = true := by
  have length := congrArg List.length same
  simp only [PolicyLocation.slice, List.length_drop] at length
  rw [PolicyLocation.isPresent, decide_eq_true_eq] at present ⊢
  omega

/-- The record carries the actions it carried, and of each what no event changes: the asset it names, and of a limit per
window the limit and the width. -/
structure StillBears (loc : PolicyLocation) (actions : List ActionView) (old new : Bytes) : Prop where
  bears : Bears loc actions new
  present : loc.isPresent new = true
  asset : ∀ action ∈ actions, assetOf new loc action = assetOf old loc action
  limit : ∀ action ∈ actions, action.actionType.isRecurring = true →
    fieldAt new loc action 0 = fieldAt old loc action 0 ∧ fieldAt new loc action 16 = fieldAt old loc action 16

theorem Bears.still (bears : Bears loc actions old) (present : loc.isPresent old = true) :
    StillBears loc actions old old :=
  ⟨bears, present, fun _ _ => rfl, fun _ _ _ => ⟨rfl, rfl⟩⟩

theorem StillBears.trans {middle : Bytes} (first : StillBears loc actions old middle)
    (second : StillBears loc actions middle new) : StillBears loc actions old new where
  bears := second.bears
  present := second.present
  asset action member := (second.asset action member).trans (first.asset action member)
  limit action member recurring :=
    ⟨(second.limit action member recurring).1.trans (first.limit action member recurring).1,
      (second.limit action member recurring).2.trans (first.limit action member recurring).2⟩

/-- An event under which a record lives on keeps its actions. -/
theorem PolicyEvent.still (event : PolicyEvent dep start events key i loc old new) (bears : Bears loc actions old)
    (sized : WellSized actions) (present : loc.isPresent old = true) : StillBears loc actions old new := by
  cases event with
  | idle located same =>
    refine ⟨bears.of_slice located same, isPresent_of_slice same present, fun action _ => assetOf_of_slice same action,
      fun action _ _ => ⟨fieldAt_of_slice same action 0, fieldAt_of_slice same action 16⟩⟩
  | executed _ place same accepted =>
    have there := isPresent_of_slice same present
    obtain ⟨kept, carries, _⟩ := (bears.of_slice place same).evaluated sized there accepted
    refine ⟨kept, ?_, fun action member => (carries.assetOf_eq member).trans (assetOf_of_slice same action),
      fun action member recurring => ?_⟩
    · rw [PolicyLocation.isPresent, carries.same.length]
      exact there
    · obtain ⟨limit, width⟩ := carries.fieldAt_eq member recurring
      exact ⟨limit.trans (fieldAt_of_slice same action 0), width.trans (fieldAt_of_slice same action 16)⟩

/-- A record that lives on keeps its actions. -/
theorem bears_between (genesis : Genesis dep start) (unsigned : DerivedNeverSign dep events)
    (lives : ∀ l, i ≤ l → l ≤ j → registryAt dep start events l key ≠ none)
    (here : registryAt dep start events i key = some old) (bears : Bears loc actions old) (sized : WellSized actions)
    (present : loc.isPresent old = true) {l : ℕ} (low : i ≤ l) (high : l ≤ j) :
    ∃ now, registryAt dep start events l key = some now ∧ StillBears loc actions old now := by
  induction l, low using Nat.le_induction with
  | base => exact ⟨old, here, bears.still present⟩
  | succ l low ih =>
    obtain ⟨now, there, still⟩ := ih (by omega)
    obtain ⟨next, after⟩ := Option.ne_none_iff_exists'.mp (lives (l + 1) (by omega) high)
    have event := policy_event genesis unsigned there after still.bears.located still.present
    exact ⟨next, after, still.trans (event.still still.bears sized still.present)⟩

end LazorKit
