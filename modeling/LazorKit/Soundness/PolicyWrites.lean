import LazorKit.Proofs.PolicyRun

/-! # What an evaluation writes

A rejected evaluation writes nothing. An accepted one writes the running totals of the actions in force
whose asset left, and not one byte besides: the account's header and key material, the types, sizes and
expiries of the actions, their mints, limits and windows stay, so the buffer parses to the same actions
after any number of calls. For the writes of one action to stay in its own data the actions must have the
sizes of their types, which is what the creation-time gate enforces.
-/

namespace LazorKit

open Solana

private theorem readU64_eq_error {data : Bytes} {offset : ℕ} {e : ProgramError}
    (failed : readU64 data offset = .error e) :
    e = .runtime .programPanicked := by
  simp only [readU64, Except.bind_eq_error, Except.ensure_eq_error, reduceCtorEq, and_false, exists_const, or_false]
    at failed
  exact failed.2.symm

private theorem readBytes32_eq_error {data : Bytes} {offset : ℕ} {e : ProgramError}
    (failed : readBytes32 data offset = .error e) : e = .runtime .programPanicked := by
  simp only [readBytes32, Except.bind_eq_error, Except.ensure_eq_error, reduceCtorEq, and_false, exists_const, or_false]
    at failed
  exact failed.2.symm

private theorem writeU64_eq_error {data : Bytes} {offset value : ℕ} {e : ProgramError}
    (failed : writeU64 data offset value = .error e) : e = .runtime .programPanicked := by
  simp only [writeU64, Except.bind_eq_error, Except.ensure_eq_error, reduceCtorEq, and_false, exists_const, or_false]
    at failed
  exact failed.2.symm

private theorem commitCap_eq_error {data : Bytes} {offset amount : ℕ} {e : ProgramError}
    (failed : commitCap data offset amount = .error e) : e = .runtime .programPanicked := by
  rw [commitCap] at failed
  split at failed
  · rcases Except.bind_eq_error.mp failed with read | ⟨_, _, write⟩
    · exact readU64_eq_error read
    · exact writeU64_eq_error write
  · cases failed

private theorem commitRecurring_eq_error {data : Bytes} {offset amount slot : ℕ} {e : ProgramError}
    (failed : commitRecurring data offset amount slot = .error e) : e = .runtime .programPanicked := by
  rw [commitRecurring] at failed
  split at failed
  · simp only [Except.bind_eq_error] at failed
    rcases failed with read | ⟨_, _, read | ⟨_, _, read | ⟨_, _, write | ⟨_, _, write⟩⟩⟩⟩
    · exact readU64_eq_error read
    · exact readU64_eq_error read
    · exact readU64_eq_error read
    · exact writeU64_eq_error write
    · exact writeU64_eq_error write
  · cases failed

private theorem tokenSpent_eq_error {data : Bytes} {loc : PolicyLocation} {out : Outflows} {action : ActionView}
    {e : ProgramError} (failed : tokenSpent data loc out action = .error e) : e = .runtime .programPanicked := by
  rcases Except.bind_eq_error.mp failed with read | ⟨_, _, done⟩
  · exact readBytes32_eq_error read
  · cases done

/-- The writes return no error: they panic or they succeed. -/
theorem commitAction_eq_error {loc : PolicyLocation} {out : Outflows} {slot : ℕ} {data : Bytes} {action : ActionView}
    {e : ProgramError} (failed : commitAction loc out slot data action = .error e) : e = .runtime .programPanicked := by
  rw [commitAction] at failed
  split at failed
  · cases failed
  · split at failed
    · exact commitCap_eq_error failed
    · exact commitRecurring_eq_error failed
    · rcases Except.bind_eq_error.mp failed with read | ⟨_, _, commit⟩
      · exact tokenSpent_eq_error read
      · exact commitCap_eq_error commit
    · rcases Except.bind_eq_error.mp failed with read | ⟨_, _, commit⟩
      · exact tokenSpent_eq_error read
      · exact commitRecurring_eq_error commit
    · cases failed

private theorem commitActions_eq_error {loc : PolicyLocation} {out : Outflows} {slot : ℕ} {views : List ActionView}
    {data : Bytes} {e : ProgramError} (failed : (commitActions loc out slot views data).1 = .error e) :
    e = .runtime .programPanicked := by
  induction views generalizing data with
  | nil => cases failed
  | cons view rest ih =>
    rw [commitActions] at failed
    split at failed
    · next panicked =>
      cases failed
      exact commitAction_eq_error panicked
    · exact ih failed

/-- An evaluation that returns an error wrote nothing, whatever the bytes are. -/
theorem step_of_error {loc : PolicyLocation} {data : Bytes} {call : Evaluation} {e : ProgramError}
    (failed : (call.evaluate loc data).1 = .error e) (returned : e ≠ .runtime .programPanicked) :
    call.step loc data = data := by
  rw [Evaluation.step]
  cases present : loc.isPresent data with
  | false => rw [Evaluation.evaluate_of_absent present]
  | true =>
    cases parsed : parseActions (loc.slice data) with
    | error e' => rw [Evaluation.evaluate_of_not_parsed present parsed]
    | ok actions =>
      rw [Evaluation.evaluate_eq present parsed] at failed ⊢
      cases check : checkPostActions data loc call.outflows call.slot.toNat actions with
      | error e' => rfl
      | ok u =>
        rw [check] at failed
        exact absurd (commitActions_eq_error failed) returned

/-- The commit phase writes the totals of the charged actions only. `data` is the account in front of the
phase, `old` the account in front of these actions' turn. -/
theorem sameButTotals_charged {loc : PolicyLocation} {out : Outflows} {slot : ℕ} {views : List ActionView}
    {data old new : Bytes} (sized : WellSized views)
    (order : views.Pairwise fun first second => first.dataOffset + first.dataLen ≤ second.dataOffset)
    (inside : ∀ view ∈ views, Inside old loc view) (same : ∀ view ∈ views, SameData loc view data old)
    (success : commitActions loc out slot views old = (.ok (), new)) :
    SameButTotals loc.offset (views.filter (isCharged data loc out slot)) old new := by
  induction views generalizing old with
  | nil =>
    cases success
    exact .refl _ _ _
  | cons view rest ih =>
    obtain ⟨behind, order⟩ := List.pairwise_cons.mp order
    rw [List.forall_mem_cons] at inside same
    have ownSize := sized view (List.mem_cons_self ..)
    rw [commitActions] at success
    split at success
    · cases success
    · next written commit =>
      have wrote := sameButTotals_commitAction commit
      have tail : SameButTotals loc.offset (rest.filter (isCharged data loc out slot)) written new := by
        apply ih (fun later member => sized later (List.mem_cons_of_mem _ member)) order _ _ success
        · intro later member
          rw [Inside, wrote.length]
          exact inside.2 later member
        · intro later member offset count low high
          rw [← same.2 later member offset count low high]
          apply wrote.slice_apart _ _ low high
          · intro own here
            rw [List.mem_singleton.mp here]
            exact ownSize
          · intro own here
            rw [List.mem_singleton.mp here]
            exact .inl (behind later member)
      cases charged : isCharged data loc out slot view with
      | true =>
        rw [List.filter_cons_of_pos charged]
        exact (wrote.mono (by simp)).trans (tail.mono (List.subset_cons_self ..))
      | false =>
        have idle : isCharged old loc out slot view = false := by
          rw [isCharged, same.1.outflowOf ownSize]
          exact charged
        rw [commitAction_of_not_charged inside.1 idle] at commit
        cases commit
        rw [List.filter_cons_of_neg (by simp [charged])]
        exact tail

/-- An accepted evaluation changes the totals of the charged actions only. -/
theorem Evaluation.Accepts.sameButTotals {loc : PolicyLocation} {actions : List ActionView} {created data : Bytes}
    {call : Evaluation} (accepts : call.Accepts loc data) (carries : Carries loc actions created data) :
    SameButTotals loc.offset (actions.filter (isCharged data loc call.outflows call.slot.toNat)) data
      (call.step loc data) := by
  cases present : loc.isPresent data with
  | false =>
    rw [Evaluation.step, Evaluation.evaluate_of_absent present]
    exact .refl _ _ _
  | true =>
    obtain ⟨_, commit⟩ := accepts.inv present carries.parsed
    exact sameButTotals_charged carries.sized carries.ordered (fun _ member => carries.inside member)
      (fun view _ => .refl loc view data) commit

/-- Whatever the bytes, a returned error leaves them. Where the actions have the sizes of their types, any
run of calls keeps them and everything in them but their running totals; a call of the run that is not
accepted writes nothing, and an accepted one writes the totals of the actions it charges. -/
theorem evaluation_writes_totals (loc : PolicyLocation) (data : Bytes) :
    (∀ call : Evaluation, ∀ e, (call.evaluate loc data).1 = .error e → e ≠ .runtime .programPanicked →
      call.step loc data = data) ∧
    ∀ actions, parseActions (loc.slice data) = .ok actions → WellSized actions →
      ∀ (calls : List Evaluation) (i : ℕ), let now := Evaluation.dataAt loc data calls i
        parseActions (loc.slice now) = .ok actions ∧ SameButTotals loc.offset actions data now ∧
          ∀ call : Evaluation, (¬call.Accepts loc now → call.step loc now = now) ∧
            (call.Accepts loc now → SameButTotals loc.offset
              (actions.filter (isCharged now loc call.outflows call.slot.toNat)) now (call.step loc now)) := by
  refine ⟨fun call e => step_of_error, fun actions parsed sized calls i => ?_⟩
  have carries := (Carries.start sized parsed).dataAt calls i
  refine ⟨carries.parsed, carries.same, fun call => ⟨?_, ?_⟩⟩
  · exact Evaluation.step_of_rejected carries.parsed carries.sized
  · exact fun accepts => accepts.sameButTotals carries

namespace Sample

/-- One lamport leaves. -/
def oneLamport : Evaluation := ⟨1000, 999, 1, [], 7⟩

/-- 150 lamports leave. -/
def manyLamports : Evaluation := ⟨1000, 850, 150, [], 8⟩

/-- An account with three bytes in front of its policy: at most 100 lamports per transaction, a lifetime limit of 5000,
and a limit on tokens. -/
def sizedPolicy : Bytes :=
  [9, 9, 9] ++ ([3, 8, 0] ++ List.replicate 8 0 ++ Bytes.ofNatLE 8 100) ++
    ([1, 8, 0] ++ List.replicate 8 0 ++ Bytes.ofNatLE 8 5000) ++
    ([4, 40, 0] ++ List.replicate 8 0 ++ List.replicate 32 20 ++ Bytes.ofNatLE 8 70)

def sizedActions : List ActionView :=
  [⟨.solMaxPerTx, 0, 11, 8⟩, ⟨.solLimit, 0, 30, 8⟩, ⟨.tokenLimit, 0, 49, 40⟩]

/-- A lifetime limit whose header announces no data, and behind it a limit per transaction. -/
def unsizedPolicy : Bytes :=
  [1, 0, 0] ++ List.replicate 8 0 ++ ([3, 8, 0] ++ List.replicate 8 0 ++ Bytes.ofNatLE 8 100)

end Sample

/-- After one lamport and a refused spending of 150, one more lamport is charged to the lifetime limit. -/
theorem evaluation_writes_totals_sample :
    let now := Evaluation.dataAt ⟨3⟩ Sample.sizedPolicy [Sample.oneLamport, Sample.manyLamports] 2
    parseActions (PolicyLocation.slice ⟨3⟩ now) = .ok Sample.sizedActions ∧
      SameButTotals 3 Sample.sizedActions Sample.sizedPolicy now ∧
      Sample.manyLamports.step ⟨3⟩ now = now ∧
      SameButTotals 3 [⟨.solMaxPerTx, 0, 11, 8⟩, ⟨.solLimit, 0, 30, 8⟩] now (Sample.oneLamport.step ⟨3⟩ now) ∧
      (Sample.oneLamport.step ⟨3⟩ now).slice 33 8 = Bytes.ofNatLE 8 4998 := by
  intro now
  have sized : WellSized Sample.sizedActions := by simp [WellSized, Sample.sizedActions, ActionType.expectedDataSize]
  obtain ⟨parsed, same, calls⟩ := (evaluation_writes_totals ⟨3⟩ Sample.sizedPolicy).2 Sample.sizedActions
    (by decide +kernel) sized [Sample.oneLamport, Sample.manyLamports] 2
  have charged : Sample.sizedActions.filter (isCharged now ⟨3⟩ Sample.oneLamport.outflows
      Sample.oneLamport.slot.toNat) = [⟨.solMaxPerTx, 0, 11, 8⟩, ⟨.solLimit, 0, 30, 8⟩] := by decide +kernel
  refine ⟨parsed, same, (calls Sample.manyLamports).1 (by decide +kernel), ?_, by decide +kernel⟩
  rw [← charged]
  exact (calls Sample.oneLamport).2 (by decide +kernel)

/-- The limit without data counts down the header behind it, and the limit per transaction becomes one per
window. -/
theorem not_evaluation_keeps_unsized_actions :
    ¬∀ (loc : PolicyLocation) (data : Bytes) (call : Evaluation), call.Accepts loc data →
      parseActions (loc.slice (call.step loc data)) = parseActions (loc.slice data) := by
  intro keeps
  have before : parseActions (PolicyLocation.slice ⟨0⟩ Sample.unsizedPolicy) =
      .ok [⟨.solLimit, 0, 11, 0⟩, ⟨.solMaxPerTx, 0, 22, 8⟩] := by decide +kernel
  have after : parseActions (PolicyLocation.slice ⟨0⟩ (Sample.oneLamport.step ⟨0⟩ Sample.unsizedPolicy)) =
      .ok [⟨.solLimit, 0, 11, 0⟩, ⟨.solRecurringLimit, 0, 22, 8⟩] := by decide +kernel
  have same := keeps ⟨0⟩ Sample.unsizedPolicy Sample.oneLamport (by decide +kernel)
  rw [before, after] at same
  cases same

end LazorKit
