import LazorKit.Proofs.PolicyRun

/-! # Lifetime limits

Whatever else a policy holds and whatever calls are made on it, the accepted calls together let out at
most the amount a lifetime limit was created with, and what it stores as remaining is that amount less
what they let out.
-/

namespace LazorKit

open Solana TumblingWindow

/-- What the creation-time gate lets through carries its own actions. -/
theorem Carries.of_validate {loc : PolicyLocation} {data : Bytes} {actions : List ActionView}
    (valid : validateActionsBuffer (loc.slice data) = .ok ()) (parsed : parseActions (loc.slice data) = .ok actions) :
    Carries loc actions data data := by
  obtain ⟨views, again, sized⟩ := policyShape_of_validate valid
  rw [parsed] at again
  cases again
  exact .start sized parsed

/-- What the first `i` calls let out together is what remains lower by. -/
theorem remaining_dataAt {loc : PolicyLocation} {data : Bytes} {actions : List ActionView} {action : ActionView}
    (carries : Carries loc actions data data) (member : action ∈ actions)
    (lifetime : action.actionType.isLifetime = true) (calls : List Evaluation) (i : ℕ) :
    fieldAt (Evaluation.dataAt loc data calls i) loc action 0 +
      spentBetween (Evaluation.spends loc (assetOf data loc action) data calls) 0 i = fieldAt data loc action 0 := by
  induction i with
  | zero => rw [spentBetween_self, Nat.add_zero, Evaluation.dataAt, Run.stateAt_zero]
  | succ i ih =>
    have spend := Evaluation.getElem?_spends loc (assetOf data loc action) data calls i
    cases at_ : calls[i]? with
    | none =>
      rw [at_, Option.map_none] at spend
      rw [spentBetween_succ_of_none spend, Evaluation.dataAt, Run.stateAt_succ_of_none at_]
      exact ih
    | some call =>
      rw [at_, Option.map_some] at spend
      obtain ⟨within, lower⟩ := remaining_step (carries.dataAt calls i) member lifetime call
      rw [spentBetween_succ (Nat.zero_le i) spend, Evaluation.dataAt, Run.stateAt_succ at_]
      change fieldAt (call.step loc (Evaluation.dataAt loc data calls i)) loc action 0 + _ = _
      rw [lower]
      dsimp only
      omega

/-- Under a lifetime limit the accepted calls of a run let out at most what it was created with; what it
stores is the rest; and each call lowers it by what it lets out, a rejected one by nothing. Nothing in
this depends on the other actions, which only have their say in whether a call is accepted. -/
theorem lifetime_limit_law (loc : PolicyLocation) (data : Bytes) (actions : List ActionView) (action : ActionView)
    (valid : validateActionsBuffer (loc.slice data) = .ok ()) (parsed : parseActions (loc.slice data) = .ok actions)
    (member : action ∈ actions) (lifetime : action.actionType.isLifetime = true) (calls : List Evaluation) (i : ℕ) :
    let asset := assetOf data loc action
    let now := Evaluation.dataAt loc data calls i
    let total := spentBetween (Evaluation.spends loc asset data calls) 0 i
    total ≤ fieldAt data loc action 0 ∧ fieldAt now loc action 0 = fieldAt data loc action 0 - total ∧
      assetOf now loc action = asset ∧
      ∀ call : Evaluation,
        (call.Accepts loc now → asset.outflow call ≤ fieldAt now loc action 0 ∧
          fieldAt (call.step loc now) loc action 0 = fieldAt now loc action 0 - asset.outflow call) ∧
        (¬call.Accepts loc now → fieldAt (call.step loc now) loc action 0 = fieldAt now loc action 0) := by
  have created := Carries.of_validate valid parsed
  have carries := created.dataAt calls i
  have balance := remaining_dataAt created member lifetime calls i
  refine ⟨by omega, by omega, carries.assetOf_eq member, fun call => ⟨fun accepts => ?_, fun rejected => ?_⟩⟩
  · have charged := remaining_step carries member lifetime call
    rwa [Evaluation.spent, if_pos accepts] at charged
  · rw [Evaluation.step_of_rejected carries.parsed carries.sized rejected]

namespace Sample

/-- A lifetime limit of 5000 lamports and one of 70 tokens, between other actions. -/
def lifetimePolicy : Bytes :=
  [3, 8, 0] ++ List.replicate 8 0 ++ Bytes.ofNatLE 8 4000 ++
    ([4, 40, 0] ++ List.replicate 8 0 ++ List.replicate 32 7 ++ Bytes.ofNatLE 8 70) ++
    ([1, 8, 0] ++ List.replicate 8 0 ++ Bytes.ofNatLE 8 5000)

/-- Tokens and lamports leave. -/
def paysBoth : Evaluation := ⟨9000, 6000, 3000, [⟨List.replicate 32 7, 100, 60⟩], 5⟩

/-- Lamports come in. -/
def receives : Evaluation := ⟨6000, 8000, 0, [], 6⟩

end Sample

theorem lifetime_limit_law_sample :
    spentBetween (Evaluation.spends ⟨0⟩ (.token (List.replicate 32 7)) Sample.lifetimePolicy
      [Sample.paysBoth, Sample.receives, Sample.paysBoth]) 0 3 ≤ 70 := by
  have policy : parseActions (PolicyLocation.slice ⟨0⟩ Sample.lifetimePolicy) =
      .ok [⟨.solMaxPerTx, 0, 11, 8⟩, ⟨.tokenLimit, 0, 30, 40⟩, ⟨.solLimit, 0, 81, 8⟩] := by decide +kernel
  have asset : assetOf Sample.lifetimePolicy ⟨0⟩ ⟨.tokenLimit, 0, 30, 40⟩ = .token (List.replicate 32 7) := by
    decide +kernel
  have created : fieldAt Sample.lifetimePolicy ⟨0⟩ ⟨.tokenLimit, 0, 30, 40⟩ 0 = 70 := by decide +kernel
  have law := (lifetime_limit_law ⟨0⟩ Sample.lifetimePolicy _ ⟨.tokenLimit, 0, 30, 40⟩ (by decide +kernel) policy
    (by decide) rfl [Sample.paysBoth, Sample.receives, Sample.paysBoth] 3).1
  rwa [asset, created] at law

end LazorKit
