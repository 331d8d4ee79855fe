import LazorKit.Proofs.BookStep
import LazorKit.Proofs.RunRefine

/-! # The book along a run

A successful call collects its fee and then takes the book one step further; nothing else in a run
touches an entry, because every entry holds lamports and belongs to this program.
-/

namespace LazorKit

open Solana

variable {dep : Deployment} {ledger : Ledger} {events : List Event}

/-- What a call does before its processor runs: it takes the fee where one is due. -/
def FeeTaken (dep : Deployment) (call : Call) (m collected : Machine Approval) (fee : ℕ) : Prop :=
  if isFeeEligible call.discriminator then
    FeeStep dep call.frame call.discriminator call.accounts.infos m collected fee
  else collected = m ∧ fee = 0

theorem FeeStep.bookFunded {fr : Frame} {discriminator : UInt8} {accounts : List AccountInfo}
    {m m' : Machine Approval} {fee : ℕ} (step : FeeStep dep fr discriminator accounts m m' fee)
    (funded : BookFunded dep m.ledger) : BookFunded dep m'.ledger := by
  cases step with
  | skipped _ _ _ same =>
    rw [same]
    exact funded
  | charged _ _ _ _ _ _ _ _ _ _ _ _ _ _ _ _ keeps => exact keeps funded

theorem FeeTaken.bookFunded {call : Call} {m collected : Machine Approval} {fee : ℕ}
    (taken : FeeTaken dep call m collected fee) (funded : BookFunded dep m.ledger) :
    BookFunded dep collected.ledger := by
  unfold FeeTaken at taken
  split at taken
  · exact taken.bookFunded funded
  · rw [taken.1]
    exact funded

/-- A successful call takes its fee and then its processor, on the accounts in front of the fee accounts,
takes the book one step further. -/
theorem Call.execute_book {call : Call} {m : Machine Approval} (success : call.execute dep ledger = .ok m) :
    ∃ collected fee, FeeTaken dep call (Machine.start ledger) collected fee ∧
      dispatch dep call.frame call.discriminator call.processorAccounts call.accounts.infos call.arguments
        collected = .ok m ∧
      BookRefines dep call.frame call.processorAccounts call.arguments call.discriminator collected m := by
  obtain ⟨collected, start, dispatched⟩ := Call.execute_eq_ok success
  have same : isFeeEligible call.discriminator = false → call.accounts.infos = call.processorAccounts := by
    intro free
    rw [Call.processorAccounts, if_neg (by rw [free]; decide)]
  have refines := dispatch_book same dispatched
  unfold Collected at start
  split at start
  · next eligible =>
    obtain ⟨fee, step⟩ := tryCollectFee_book start
    refine ⟨collected, fee, ?_, dispatched, refines⟩
    rw [FeeTaken, if_pos eligible]
    exact step
  · next free =>
    refine ⟨collected, 0, ?_, dispatched, refines⟩
    rw [FeeTaken, if_neg free]
    exact ⟨start, rfl⟩

private theorem book_purge {key : Pubkey} (funded : BookFunded dep ledger) (empty : (ledger key).lamports = 0) :
    book dep (ledger.set key default) = book dep ledger := by
  have none_ : book dep ledger key = none := by
    by_contra live
    have positive := funded key live
    omega
  funext other
  by_cases same : other = key
  · rw [same, none_]
    apply book_of_not_owned
    rw [Ledger.set_self]
    exact dep.programId_ne_system.symm
  · simp only [book, Ledger.set_of_ne same]

private theorem book_foreign {key : Pubkey} {account : Account}
    (allowed : Machine.foreignChange dep.toRuntime (ledger key) account) :
    Spares dep (Machine.start ledger) (Machine.start (ledger.set key account)) :=
  .of_foreign ⟨Machine.Respects.set allowed, rfl⟩

/-- One event keeps every entry funded. -/
theorem step_bookFunded (event : Event) (funded : BookFunded dep ledger) : BookFunded dep (step dep ledger event) := by
  cases event with
  | call call =>
    rw [step]
    split
    · next m outcome =>
      obtain ⟨collected, fee, taken, _, refines⟩ := Call.execute_book outcome
      exact refines.funded (taken.bookFunded funded)
    · exact funded
  | foreign key account =>
    rw [step]
    split
    · next allowed => exact (book_foreign allowed).funded funded
    · exact funded
  | purge key =>
    rw [step]
    split
    · next empty =>
      intro other live
      rw [book_purge funded empty] at live
      have ne : other ≠ key := by
        rintro rfl
        have positive := funded other live
        omega
      rw [Ledger.set_of_ne ne]
      exact funded other live
    · exact funded

/-- The book in front of the `i`th event. -/
def bookAt (dep : Deployment) (ledger : Ledger) (events : List Event) (i : ℕ) : Registry :=
  book dep (ledgerAt dep ledger events i)

private theorem bookFunded_ledgerAt (events : List Event) (funded : BookFunded dep ledger) (i : ℕ) :
    BookFunded dep (ledgerAt dep ledger events i) :=
  Run.invariant funded (fun _ event => step_bookFunded event) i

/-- From one position of a run to the next, the book stays or a call succeeds. -/
theorem bookAt_succ (events : List Event) (funded : BookFunded dep ledger) (i : ℕ) :
    (bookAt dep ledger events (i + 1) = bookAt dep ledger events i ∧ ∀ call m, ¬SucceedsAt dep ledger events i call m) ∨
      ∃ call m, SucceedsAt dep ledger events i call m := by
  cases at_ : events[i]? with
  | none =>
    refine .inl ⟨?_, fun call m success => ?_⟩
    · rw [bookAt, bookAt, ledgerAt_eq, ledgerAt_eq, Run.stateAt_succ_of_none at_]
    · rw [success.1] at at_
      cases at_
  | some event =>
    have here := bookFunded_ledgerAt events funded i
    have next : ledgerAt dep ledger events (i + 1) = step dep (ledgerAt dep ledger events i) event := by
      rw [ledgerAt_eq, Run.stateAt_succ at_]
      rfl
    cases event with
    | call call =>
      cases outcome : call.execute dep (ledgerAt dep ledger events i) with
      | ok m => exact .inr ⟨call, m, at_, outcome⟩
      | error e =>
        refine .inl ⟨by rw [bookAt, next, step, outcome, bookAt], fun other m success => ?_⟩
        have same : other = call := by simpa using success.1.symm.trans at_
        have result := success.2
        rw [same, outcome] at result
        cases result
    | foreign key account =>
      refine .inl ⟨?_, fun other m success => by rw [success.1] at at_; cases at_⟩
      rw [bookAt, next, step]
      split
      · next allowed => exact (book_foreign allowed).book
      · rfl
    | purge key =>
      refine .inl ⟨?_, fun other m success => by rw [success.1] at at_; cases at_⟩
      rw [bookAt, next, step]
      split
      · next empty => exact book_purge here empty
      · rfl

/-- This version of the program has written no account yet. Accounts of the previous version may exist. -/
structure Unwritten (dep : Deployment) (ledger : Ledger) : Prop where
  records : Genesis dep ledger
  entries : ∀ key, book dep ledger key = none

theorem unwritten_empty (dep : Deployment) : Unwritten dep Ledger.empty :=
  ⟨genesis_empty dep, fun _ => book_of_not_owned dep.programId_ne_system.symm⟩

theorem Unwritten.bookFunded (start : Unwritten dep ledger) : BookFunded dep ledger :=
  fun key live => absurd (start.entries key) live

/-- A call that succeeds somewhere in a run takes its fee and takes the book one step further. -/
theorem SucceedsAt.bookStep {i : ℕ} {call : Call} {m : Machine Approval}
    (success : SucceedsAt dep ledger events i call m) :
    ∃ collected fee, FeeTaken dep call (Machine.start (ledgerAt dep ledger events i)) collected fee ∧
      BookStep dep call.frame call.processorAccounts call.arguments (book dep collected.ledger) call.discriminator
        (bookAt dep ledger events (i + 1)) := by
  obtain ⟨collected, fee, taken, _, refines⟩ := Call.execute_book success.2
  rw [bookAt, success.ledgerAt_succ]
  exact ⟨collected, fee, taken, refines.step⟩

end LazorKit
