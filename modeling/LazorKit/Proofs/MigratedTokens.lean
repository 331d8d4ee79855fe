import LazorKit.Proofs.Balances
import LazorKit.Proofs.TokenProgram

/-! # Moving the listed tokens

A listed token is moved in full and its account closed. `Migrates` is what a whole list does to the ledger, and
`stake` the amount that is where it should be: with the destination, or in a source still to come. A step keeps
the stakes unless the source is its own destination, which closes the account over its tokens.
-/

namespace LazorKit

open Solana Balances

/-- A listed token. -/
structure MigratedToken where
  source : Pubkey
  dest : Pubkey
  mint : Pubkey
deriving DecidableEq

def sourcesOf (tokens : List MigratedToken) : List Pubkey := tokens.map (·.source)

/-- The tokens of a mint in an account. -/
def tokensOf (mint : Pubkey) (account : Account) : ℕ := if IsTokenOf mint account then tokenAmount account else 0

/-- The tokens of a mint in an account, if it is the owner's. -/
def tokensHeld (mint owner : Pubkey) (account : Account) : ℕ :=
  if IsHeldBy mint owner account then tokenAmount account else 0

/-- What an account counts for: all its tokens while it is still to be moved, afterwards those it holds for the
destination. -/
def stake (mint destination : Pubkey) (pending : List Pubkey) (ledger : Ledger) (key : Pubkey) : ℕ :=
  if pending.contains key then tokensOf mint (ledger key) else tokensHeld mint destination (ledger key)

/-- A listed source that is its own destination holds tokens, or an earlier one hands it some. -/
def Leaks : List MigratedToken → (Pubkey → Prop) → Prop
  | [], _ => False
  | token :: rest, filled =>
    (token.source = token.dest ∧ filled token.source) ∨
      Leaks rest fun key => filled key ∨ (key = token.dest ∧ filled token.source)

/-- One token moved and its account closed. -/
structure TokenStep (vault destination refund : Pubkey) (token : MigratedToken) (before after : Ledger) : Prop where
  source : IsHeldBy token.mint vault (before token.source)
  dest : IsHeldBy token.mint destination (before token.dest)
  steps : ∃ paid, TokenMoved before paid token.source token.dest (tokenAmount (before token.source)) ∧
    TokenClosed paid after token.source refund

inductive Migrates (vault destination refund : Pubkey) : List MigratedToken → Ledger → Ledger → Prop
  | nil {ledger : Ledger} : Migrates vault destination refund [] ledger ledger
  | cons {token : MigratedToken} {rest : List MigratedToken} {before middle after : Ledger}
      (step : TokenStep vault destination refund token before middle)
      (later : Migrates vault destination refund rest middle after) :
      Migrates vault destination refund (token :: rest) before after

section Accounts

variable {mint other owner : Pubkey} {first second : Account}

private theorem not_isTokenProgram_system : ¬ isTokenProgram systemProgram := by decide

private theorem isTokenOf_of_not (foreign : ¬ isTokenProgram first.owner) : ¬ IsTokenOf mint first :=
  fun token => foreign token.1

theorem tokensOf_of_not (foreign : ¬ isTokenProgram first.owner) : tokensOf mint first = 0 :=
  if_neg (isTokenOf_of_not foreign)

theorem tokensHeld_of_not (foreign : ¬ isTokenProgram first.owner) : tokensHeld mint owner first = 0 :=
  if_neg fun held => isTokenOf_of_not foreign held.1

theorem IsTokenOf.unique (one : IsTokenOf mint first) (two : IsTokenOf other first) : mint = other :=
  BytesN.ext_bytes (one.2.2.symm.trans two.2.2)

private theorem tokensOf_eq (token : IsTokenOf mint first) :
    tokensOf other first = if other = mint then tokenAmount first else 0 := by
  by_cases same : other = mint
  · rw [same, tokensOf, if_pos token, if_pos rfl]
  · rw [tokensOf, if_neg fun also => same (also.unique token), if_neg same]

private theorem tokensHeld_eq (held : IsHeldBy mint owner first) :
    tokensHeld other owner first = if other = mint then tokenAmount first else 0 := by
  by_cases same : other = mint
  · rw [same, tokensHeld, if_pos held, if_pos rfl]
  · rw [tokensHeld, if_neg fun also => same (also.1.unique held.1), if_neg same]

/-- Accounts of one owner, length and identity are token accounts alike. -/
theorem isTokenOf_congr (sameOwner : second.owner = first.owner) (length : second.data.length = first.data.length)
    (identity : tokenIdentity second = tokenIdentity first) : IsTokenOf mint second ↔ IsTokenOf mint first := by
  have window (account : Account) : account.data.slice 0 32 = (tokenIdentity account).slice 0 32 :=
    (@Bytes.slice_slice account.data 0 tokenAmountOffset 0 32 (by decide)).symm
  rw [IsTokenOf, IsTokenOf, sameOwner, length, window, window, identity]

theorem isHeldBy_congr (sameOwner : second.owner = first.owner) (length : second.data.length = first.data.length)
    (identity : tokenIdentity second = tokenIdentity first) :
      IsHeldBy mint owner second ↔ IsHeldBy mint owner first := by
  have window (account : Account) : account.data.slice tokenOwnerOffset 32 = (tokenIdentity account).slice 32 32 :=
    (@Bytes.slice_slice account.data 0 tokenAmountOffset 32 32 (by decide)).symm
  rw [IsHeldBy, IsHeldBy, isTokenOf_congr sameOwner length identity, window, window, identity]

end Accounts

namespace TokenStep

variable {vault destination refund : Pubkey} {token : MigratedToken} {before after : Ledger}

private theorem refund_ne (step : TokenStep vault destination refund token before after) : refund ≠ token.source := by
  obtain ⟨_, _, closed⟩ := step.steps
  exact closed.distinct.symm

theorem closed (step : TokenStep vault destination refund token before after) :
    after token.source = ⟨0, systemProgram, []⟩ := by
  obtain ⟨_, _, closed⟩ := step.steps
  exact closed.closed

theorem owner (step : TokenStep vault destination refund token before after) {key : Pubkey}
    (other : key ≠ token.source) : (after key).owner = (before key).owner := by
  obtain ⟨_, moved, closed⟩ := step.steps
  exact (closed.owner key other).trans (moved.owner key)

theorem length (step : TokenStep vault destination refund token before after) {key : Pubkey}
    (other : key ≠ token.source) : (after key).data.length = (before key).data.length := by
  obtain ⟨_, moved, closed⟩ := step.steps
  rw [closed.data key other, moved.length]

theorem identity (step : TokenStep vault destination refund token before after) {key : Pubkey}
    (other : key ≠ token.source) : tokenIdentity (after key) = tokenIdentity (before key) := by
  obtain ⟨_, moved, closed⟩ := step.steps
  rw [tokenIdentity, closed.data key other]
  exact moved.identity key

theorem amount (step : TokenStep vault destination refund token before after) {key : Pubkey}
    (other : key ≠ token.source) : tokenAmount (after key) =
      tokenAmount (before key) + if key = token.dest then tokenAmount (before token.source) else 0 := by
  obtain ⟨_, moved, closed⟩ := step.steps
  have same := moved.amounts key
  rw [if_neg other, Nat.add_zero] at same
  rw [tokenAmount, closed.data key other]
  exact same

/-- An account that is neither of the token's two nor the refund destination is as it was. -/
theorem frame (step : TokenStep vault destination refund token before after) {key : Pubkey}
    (notSource : key ≠ token.source) (notDest : key ≠ token.dest) (notRefund : key ≠ refund) :
    after key = before key := by
  obtain ⟨_, moved, closed⟩ := step.steps
  have paid := moved.others key notSource notDest
  apply Account.ext
  · exact (closed.lamports.of_ne notSource notRefund).trans (congrArg Account.lamports paid)
  · exact (closed.owner key notSource).trans (congrArg Account.owner paid)
  · exact (closed.data key notSource).trans (congrArg Account.data paid)

theorem conserves (step : TokenStep vault destination refund token before after) :
    Conserves {token.source, token.dest, refund} before.balances after.balances := by
  obtain ⟨_, moved, closed⟩ := step.steps
  apply (moved.lamports.conserves.mono ?_).trans (closed.lamports.conserves.mono ?_)
  · intro key member
    simp only [Finset.mem_insert, Finset.mem_singleton] at member ⊢
    tauto
  · intro key member
    simp only [Finset.mem_insert, Finset.mem_singleton] at member ⊢
    tauto

/-- What the other accounts hold of a mint grows by what the source had, where it goes. -/
theorem tokensOf_after (step : TokenStep vault destination refund token before after) {key : Pubkey}
    (other : key ≠ token.source) (mint : Pubkey) : tokensOf mint (after key) =
      tokensOf mint (before key) + if key = token.dest then tokensOf mint (before token.source) else 0 := by
  have alike : IsTokenOf mint (after key) ↔ IsTokenOf mint (before key) :=
    isTokenOf_congr (step.owner other) (step.length other) (step.identity other)
  have amount := step.amount other
  by_cases isDest : key = token.dest
  · subst isDest
    rw [if_pos rfl] at amount ⊢
    rw [tokensOf_eq step.source.1, tokensOf_eq step.dest.1, tokensOf]
    simp only [alike, amount]
    by_cases same : mint = token.mint
    · rw [if_pos same, if_pos same, if_pos (same ▸ step.dest.1)]
    · rw [if_neg same, if_neg same, if_neg fun also => same (also.unique step.dest.1)]
  · rw [if_neg isDest, Nat.add_zero] at amount ⊢
    simp only [tokensOf, alike, amount]

private theorem tokensHeld_after (step : TokenStep vault destination refund token before after) {key : Pubkey}
    (other : key ≠ token.source) (mint : Pubkey) : tokensHeld mint destination (after key) =
      tokensHeld mint destination (before key) +
        if key = token.dest then tokensOf mint (before token.source) else 0 := by
  have alike : IsHeldBy mint destination (after key) ↔ IsHeldBy mint destination (before key) :=
    isHeldBy_congr (step.owner other) (step.length other) (step.identity other)
  have amount := step.amount other
  by_cases isDest : key = token.dest
  · subst isDest
    rw [if_pos rfl] at amount ⊢
    rw [tokensOf_eq step.source.1, tokensHeld_eq step.dest, tokensHeld]
    simp only [alike, amount]
    by_cases same : mint = token.mint
    · rw [if_pos same, if_pos same, if_pos (same ▸ step.dest)]
    · rw [if_neg same, if_neg same, if_neg fun also => same (also.1.unique step.dest.1)]
  · rw [if_neg isDest, Nat.add_zero] at amount ⊢
    simp only [tokensHeld, alike, amount]

/-- The stake of the source goes to the other account, if there is one. -/
theorem stake_eq (step : TokenStep vault destination refund token before after) {pending : List Pubkey}
    (fresh : token.source ∉ pending) (mint key : Pubkey) :
    stake mint destination pending after key +
        (if key = token.source then tokensOf mint (before token.source) else 0) =
      stake mint destination (token.source :: pending) before key +
        (if key = token.dest ∧ key ≠ token.source then tokensOf mint (before token.source) else 0) := by
  by_cases isSource : key = token.source
  · subst isSource
    have gone : tokensHeld mint destination (after token.source) = 0 := by
      rw [step.closed]
      exact tokensHeld_of_not not_isTokenProgram_system
    rw [stake, if_neg (by simpa using fresh), gone, if_pos rfl, stake, if_pos (by simp), if_neg fun both => both.2 rfl,
      Nat.zero_add, Nat.add_zero]
  · rw [if_neg isSource, Nat.add_zero]
    simp only [stake, List.contains_iff_mem, List.mem_cons, isSource, false_or, ne_eq, not_false_eq_true, and_true]
    split
    · exact step.tokensOf_after isSource mint
    · exact step.tokensHeld_after isSource mint

/-- Tokens of a source that is another account's than its destination's are all still there; a source closed over
its own tokens loses them. -/
theorem sum_stake (step : TokenStep vault destination refund token before after) {pending : List Pubkey}
    (fresh : token.source ∉ pending) (mint : Pubkey) {keys : Finset Pubkey} (hasSource : token.source ∈ keys)
    (hasDest : token.dest ∈ keys) :
    ∑ key ∈ keys, stake mint destination pending after key +
        (if token.source = token.dest then tokensOf mint (before token.source) else 0) =
      ∑ key ∈ keys, stake mint destination (token.source :: pending) before key := by
  have pointwise := step.stake_eq fresh mint
  by_cases itself : token.source = token.dest
  · rw [if_pos itself, ← sum_add_ite _ hasSource]
    apply Finset.sum_congr rfl
    intro key _
    rw [pointwise, if_neg fun both => both.2 (both.1.trans itself.symm), Nat.add_zero]
  · have moved : Transfers (stake mint destination (token.source :: pending) before)
        (stake mint destination pending after) token.source token.dest (tokensOf mint (before token.source)) := by
      intro key
      rw [pointwise]
      by_cases isDest : key = token.dest
      · rw [if_pos ⟨isDest, isDest ▸ Ne.symm itself⟩, if_pos isDest]
      · rw [if_neg fun both => isDest both.1, if_neg isDest]
    rw [if_neg itself, Nat.add_zero, moved.sum_eq hasSource hasDest]

end TokenStep

namespace Migrates

variable {vault destination refund : Pubkey} {tokens : List MigratedToken} {before after : Ledger}

/-- Every source is still the vault's token account when its turn comes, so it was one all along. -/
theorem source (run : Migrates vault destination refund tokens before after) {token : MigratedToken}
    (listed : token ∈ tokens) : IsHeldBy token.mint vault (before token.source) := by
  induction run with
  | nil => cases listed
  | @cons head rest before middle after step later ih =>
    cases listed with
    | head => exact step.source
    | tail _ listed =>
      have held := ih listed
      have other : token.source ≠ head.source := by
        intro same
        rw [same, step.closed] at held
        exact not_isTokenProgram_system held.1.1
      exact (isHeldBy_congr (step.owner other) (step.length other) (step.identity other)).mp held

/-- A source is listed once: it is closed when a second turn would come. -/
theorem head_fresh {head : MigratedToken} (step : TokenStep vault destination refund head before after)
    {final : Ledger} (later : Migrates vault destination refund tokens after final) :
    head.source ∉ sourcesOf tokens := by
  intro again
  obtain ⟨token, listed, same⟩ := List.mem_map.mp again
  have held := later.source listed
  rw [same, step.closed] at held
  exact not_isTokenProgram_system held.1.1

/-- A closed account stays closed, unless it is the refund destination. -/
theorem gone (run : Migrates vault destination refund tokens before after) {key : Pubkey}
    (closed : before key = ⟨0, systemProgram, []⟩) (notRefund : key ≠ refund) : after key = ⟨0, systemProgram, []⟩ := by
  induction run with
  | nil => exact closed
  | @cons head rest before middle after step later ih =>
    apply ih
    have foreign : ¬ isTokenProgram (before key).owner := by
      rw [closed]
      exact not_isTokenProgram_system
    rw [step.frame _ _ notRefund, closed]
    · rintro rfl
      exact foreign step.source.1.1
    · rintro rfl
      exact foreign step.dest.1.1

theorem closed (run : Migrates vault destination refund tokens before after) {token : MigratedToken}
    (listed : token ∈ tokens) : after token.source = ⟨0, systemProgram, []⟩ ∧ token.source ≠ refund := by
  induction run with
  | nil => cases listed
  | cons step later ih =>
    cases listed with
    | head => exact ⟨later.gone step.closed step.refund_ne.symm, step.refund_ne.symm⟩
    | tail _ listed => exact ih listed

theorem conserves (run : Migrates vault destination refund tokens before after) {keys : Finset Pubkey}
    (hasRefund : refund ∈ keys) (within : ∀ token ∈ tokens, token.source ∈ keys ∧ token.dest ∈ keys) :
    Conserves keys before.balances after.balances := by
  induction run with
  | nil => exact .refl _ _
  | @cons head rest before middle after step later ih =>
    obtain ⟨hasSource, hasDest⟩ := within head (List.mem_cons_self ..)
    have first : Conserves keys before.balances middle.balances := by
      apply step.conserves.mono
      intro key member
      simp only [Finset.mem_insert, Finset.mem_singleton] at member
      rcases member with rfl | rfl | rfl
      · exact hasSource
      · exact hasDest
      · exact hasRefund
    exact first.trans (ih fun token listed => within token (List.mem_cons_of_mem _ listed))

/-- The stakes of the whole list, and what is left of them. -/
theorem sum_stake_le (run : Migrates vault destination refund tokens before after) (mint : Pubkey)
    {keys : Finset Pubkey} (within : ∀ token ∈ tokens, token.source ∈ keys ∧ token.dest ∈ keys) :
    ∑ key ∈ keys, tokensHeld mint destination (after key) ≤
      ∑ key ∈ keys, stake mint destination (sourcesOf tokens) before key := by
  induction run with
  | nil => exact le_of_eq (Finset.sum_congr rfl fun key _ => (if_neg Bool.false_ne_true).symm)
  | @cons head rest before middle after step later ih =>
    obtain ⟨hasSource, hasDest⟩ := within head (List.mem_cons_self ..)
    have kept := step.sum_stake (head_fresh step later) mint hasSource hasDest
    have rest := ih fun token listed => within token (List.mem_cons_of_mem _ listed)
    exact rest.trans ((Nat.le_add_right _ _).trans_eq kept)

/-- All stakes are kept exactly when no source is closed over its own tokens. -/
theorem sum_stake_eq_iff (run : Migrates vault destination refund tokens before after) {filled : Pubkey → Prop}
    (known : ∀ token ∈ tokens, (filled token.source ↔ 0 < tokenAmount (before token.source))) {keys : Finset Pubkey}
    (within : ∀ token ∈ tokens, token.source ∈ keys ∧ token.dest ∈ keys) :
    (∀ mint, ∑ key ∈ keys, tokensHeld mint destination (after key) =
      ∑ key ∈ keys, stake mint destination (sourcesOf tokens) before key) ↔ ¬ Leaks tokens filled := by
  induction run generalizing filled with
  | nil =>
    refine iff_of_true (fun mint => ?_) (not_false)
    exact Finset.sum_congr rfl fun key _ => (if_neg Bool.false_ne_true).symm
  | @cons head rest before middle after step later ih =>
    obtain ⟨hasSource, hasDest⟩ := within head (List.mem_cons_self ..)
    have laterWithin : ∀ token ∈ rest, token.source ∈ keys ∧ token.dest ∈ keys :=
      fun token listed => within token (List.mem_cons_of_mem _ listed)
    have fresh := head_fresh step later
    have kept (mint : Pubkey) : ∑ key ∈ keys, stake mint destination (sourcesOf rest) middle key +
        (if head.source = head.dest then tokensOf mint (before head.source) else 0) =
          ∑ key ∈ keys, stake mint destination (sourcesOf (head :: rest)) before key :=
      step.sum_stake fresh mint hasSource hasDest
    have headFilled := known head (List.mem_cons_self ..)
    have laterKnown : ∀ token ∈ rest, ((filled token.source ∨ token.source = head.dest ∧ filled head.source) ↔
        0 < tokenAmount (middle token.source)) := by
      intro token listed
      have other : token.source ≠ head.source := fun same => fresh (List.mem_map.mpr ⟨token, listed, same⟩)
      rw [step.amount other, known token (List.mem_cons_of_mem _ listed), headFilled]
      split
      · next isDest => simp only [isDest, true_and]; omega
      · next notDest => simp only [notDest, false_and, or_false, Nat.add_zero]
    have laterIff := @ih (fun key => filled key ∨ (key = head.dest ∧ filled head.source)) laterKnown laterWithin
    rw [Leaks, not_or, ← laterIff]
    constructor
    · intro all
      have squeezed (mint : Pubkey) : ∑ key ∈ keys, stake mint destination (sourcesOf rest) middle key =
          ∑ key ∈ keys, stake mint destination (sourcesOf (head :: rest)) before key :=
        ((Nat.le_add_right _ _).trans_eq (kept mint)).antisymm ((all mint).symm.le.trans
          (later.sum_stake_le mint laterWithin))
      refine ⟨?_, fun mint => (all mint).trans (squeezed mint).symm⟩
      rintro ⟨itself, full⟩
      have lost := kept head.mint
      rw [if_pos itself, tokensOf_eq step.source.1, if_pos rfl] at lost
      have same := squeezed head.mint
      have positive := headFilled.mp full
      omega
    · rintro ⟨noLoop, all⟩ mint
      have nothing : (if head.source = head.dest then tokensOf mint (before head.source) else 0) = 0 := by
        split
        · next itself =>
          have empty : tokenAmount (before head.source) = 0 := by
            by_contra full
            exact noLoop ⟨itself, headFilled.mpr (Nat.pos_of_ne_zero full)⟩
          rw [tokensOf_eq step.source.1, empty, ite_self]
        · rfl
      have same := kept mint
      rw [nothing, Nat.add_zero] at same
      exact (all mint).trans same

end Migrates

end LazorKit
