import LazorKit.Model.HeapBuffers
import LazorKit.Proofs.ConcreteRun
import LazorKit.Proofs.InnerInstructions

/-! # No buffer outgrows its size

Each vector is sized by one loop and filled by another. The loops agree on every input, also on the inputs
the second one refuses, so no vector moves to a larger allocation, whatever becomes of the call.
-/

namespace LazorKit

open Solana

section Actions

variable {buf : Bytes}

private theorem le_countActionHeadersFrom (fuel cursor count : ℕ) :
    count ≤ countActionHeadersFrom buf fuel cursor count := by
  induction fuel generalizing cursor count with
  | zero => exact le_rfl
  | succ fuel ih =>
    rw [countActionHeadersFrom]
    split
    · exact (Nat.le_succ count).trans (ih ..)
    · exact le_rfl

/-- Past the buffer nothing more is counted. -/
theorem countActionHeadersFrom_past {fuel cursor count : ℕ} (past : buf.length ≤ cursor) :
    countActionHeadersFrom buf fuel cursor count = count := by
  cases fuel with
  | zero => rfl
  | succ fuel =>
    rw [countActionHeadersFrom, if_neg]
    rintro ⟨_, header⟩
    rw [actionHeaderSize] at header
    omega

/-- The vector is where it was put, and full where the walk was accepted. -/
def Filled (capacity : ℕ) (outcome : Except ProgramError Unit × HeapVec ActionView) : Prop :=
  outcome.2.Unmoved capacity ∧ (outcome.1 = .ok () → outcome.2.items.length = capacity)

theorem Filled.refused {capacity : ℕ} {e : ProgramError} {actions : HeapVec ActionView}
    (still : actions.Unmoved capacity) :
    Filled capacity (.error e, actions) :=
  ⟨still, fun accepted => absurd accepted Except.error_ne_ok⟩

/-- Where the parser has pushed every view counted so far, it never pushes more than the rest of the count,
exactly that many where it accepts, and its vector stays where the count put it. -/
theorem pushActionsFrom_count {fuel cursor rounds capacity : ℕ} {actions : HeapVec ActionView}
    (enough : buf.length ≤ cursor + fuel) (left : rounds + actions.items.length = maxActions + 1)
    (sized : countActionHeadersFrom buf rounds cursor actions.items.length = capacity)
    (some_left : 0 < rounds) (still : actions.Unmoved capacity) :
    Filled capacity (pushActionsFrom buf fuel cursor actions) := by
  induction fuel generalizing cursor rounds actions with
  | zero =>
    have past : buf.length ≤ cursor := enough
    rw [countActionHeadersFrom_past past] at sized
    exact ⟨still, fun _ => sized⟩
  | succ fuel ih =>
    obtain ⟨rounds, rfl⟩ := Nat.exists_eq_succ_of_ne_zero some_left.ne'
    simp only [pushActionsFrom]
    split
    · split
      · next header =>
        simp only [countActionHeadersFrom] at sized
        rw [if_pos ⟨by omega, header⟩, ← Nat.add_assoc] at sized
        cases ActionType.fromU8 (buf.byte cursor) with
        | error e => exact .refused still
        | ok actionType =>
          simp only
          split
          · -- The header is pushed and counted; both walks go on behind its data.
            have room : actions.items.length < capacity := by
              rw [← sized]
              exact le_countActionHeadersFrom ..
            have longer (view : ActionView) : (actions.push view).items.length = actions.items.length + 1 := by
              rw [HeapVec.items_push, List.length_append, List.length_singleton]
            split
            · next few =>
              rw [longer] at few
              have further : buf.length ≤
                  cursor + actionHeaderSize + (buf.slice (cursor + 1) 2).toNatLE + fuel := by
                rw [actionHeaderSize]
                omega
              rw [← longer] at sized
              exact ih further (by rw [longer]; omega) sized (by omega) (still.push room _)
            · exact .refused (still.push room _)
          · exact .refused still
      · exact .refused still
    · next past =>
      rw [countActionHeadersFrom_past (Nat.le_of_not_lt past)] at sized
      exact ⟨still, fun _ => sized⟩

/-- The walk with its vector is the walk. -/
theorem seenAs_pushActionsFrom (fuel cursor : ℕ) (actions : HeapVec ActionView) :
    Except.seenAs HeapVec.items (pushActionsFrom buf fuel cursor actions) =
      parseActionsFrom buf fuel cursor actions.items := by
  induction fuel generalizing cursor actions with
  | zero => rfl
  | succ fuel ih =>
    rw [pushActionsFrom, parseActionsFrom]
    split
    · rw [Except.ensure]
      split
      · cases ActionType.fromU8 (buf.byte cursor) with
        | error e => rfl
        | ok actionType =>
          simp only [Except.ok_bind, Except.ensure, HeapVec.items_push]
          split
          · simp only [Except.ok_bind]
            split
            · rw [ih, HeapVec.items_push, Except.ok_bind]
            · rfl
          · rfl
      · rfl
    · rfl

private theorem seenAs_pushActions (buf : Bytes) : Except.seenAs HeapVec.items (pushActions buf) = parseActions buf :=
  seenAs_pushActionsFrom ..

private theorem pushActions_count (buf : Bytes) : Filled (countActionHeaders buf) (pushActions buf) :=
  pushActionsFrom_count (Nat.le_of_eq (Nat.zero_add _).symm) rfl rfl (Nat.succ_pos _) (HeapVec.unmoved_withCapacity _)

end Actions

section Preimage

variable {accounts : List AccountInfo} {ixs : List CompactInstruction}

private theorem length_hashedIndices (ixs : List CompactInstruction) :
    (ixs.flatMap CompactInstruction.hashedIndices).length = accountsHashEntries ixs := by
  rw [List.length_flatMap, accountsHashEntries]
  congr 1
  apply List.map_congr_left
  intro ix _
  rw [CompactInstruction.hashedIndices, List.length_cons, List.length_map, Nat.add_comm]

/-- The preimage takes one entry for every account walked. -/
theorem length_accountsHashPreimage {preimage : Bytes} (success : accountsHashPreimage accounts ixs = .ok preimage) :
    preimage.length = accountsHashEntries ixs * accountsHashEntryLen := by
  simp only [accountsHashPreimage, Except.bind_eq_ok, Except.mapM_eq_ok, Except.ok.injEq] at success
  obtain ⟨entries, each, rfl⟩ := success
  rw [← length_hashedIndices]
  generalize ixs.flatMap CompactInstruction.hashedIndices = indices at each ⊢
  induction each with
  | nil => rfl
  | cons head _ ih =>
    obtain ⟨acc, _, rfl⟩ := accountsHashEntry_eq_ok.mp head
    rw [List.flatten_cons, List.length_append, ih, List.length_append, acc.key.length_bytes, List.length_singleton,
      List.length_cons, Nat.succ_mul, Nat.add_comm]
    rfl

private theorem seenAs_pushHashedAccount (preimage : HeapVec UInt8) (index : ℕ) :
    Except.seenAs HeapVec.items (pushHashedAccount accounts preimage index) =
      (accountsHashEntry accounts index).map (preimage.items ++ ·) := by
  rw [pushHashedAccount, accountsHashEntry]
  cases accountByIndex accounts index with
  | error e => rfl
  | ok acc =>
    simp only [Except.seenAs, Except.map, Except.ok_bind, HeapVec.items_push, HeapVec.items_extend, List.append_assoc]

/-- The walk with its vector is the walk. -/
theorem seenAs_pushAccountsHashPreimage (accounts : List AccountInfo) (ixs : List CompactInstruction) :
    Except.seenAs HeapVec.items (pushAccountsHashPreimage accounts ixs) = accountsHashPreimage accounts ixs := by
  have walk := Except.seenAs_foldlKeeping
    (f := fun items index => (accountsHashEntry accounts index).map (items ++ ·)) seenAs_pushHashedAccount
  rw [pushAccountsHashPreimage, walk, Except.foldlM_append, accountsHashPreimage]
  simp only [HeapVec.withCapacity, List.nil_append]
  cases (ixs.flatMap CompactInstruction.hashedIndices).mapM (accountsHashEntry accounts) <;> rfl

/-- The preimage has not moved and still has room for the accounts to come. -/
def RoomFor (capacity : ℕ) (rest : List ℕ) (preimage : HeapVec UInt8) : Prop :=
  preimage.Unmoved capacity ∧ preimage.items.length + rest.length * accountsHashEntryLen ≤ capacity

theorem RoomFor.pushHashedAccount {capacity index : ℕ} {rest : List ℕ} {preimage : HeapVec UInt8}
    (room : RoomFor capacity (index :: rest) preimage) :
    RoomFor capacity rest (pushHashedAccount accounts preimage index).2 := by
  obtain ⟨still, left⟩ := room
  simp only [List.length_cons, accountsHashEntryLen] at left
  rw [LazorKit.pushHashedAccount]
  cases accountByIndex accounts index with
  | error e => exact ⟨still, by simp only [accountsHashEntryLen]; omega⟩
  | ok acc =>
    have width := acc.key.length_bytes
    have keyed : (preimage.extend acc.key.bytes).Unmoved capacity := still.extend (by omega)
    refine ⟨keyed.push ?_ _, ?_⟩
    · rw [HeapVec.items_extend, List.length_append, width]
      omega
    · simp only [HeapVec.items_push, HeapVec.items_extend, List.length_append, List.length_singleton, width,
        accountsHashEntryLen]
      omega

/-- However far the walk gets, the preimage stays where the number of entries put it. -/
theorem pushAccountsHashPreimage_unmoved (accounts : List AccountInfo) (ixs : List CompactInstruction) :
    (pushAccountsHashPreimage accounts ixs).2.Unmoved (accountsHashEntries ixs * accountsHashEntryLen) := by
  have start : RoomFor (accountsHashEntries ixs * accountsHashEntryLen)
      (ixs.flatMap CompactInstruction.hashedIndices)
        (.withCapacity (accountsHashEntries ixs * accountsHashEntryLen)) := by
    refine ⟨HeapVec.unmoved_withCapacity _, ?_⟩
    rw [length_hashedIndices]
    exact (Nat.zero_add _).le
  obtain ⟨_, still, _⟩ := Except.foldlKeeping_inv (RoomFor _) (fun _ _ _ room => room.pushHashedAccount) start
  exact still

end Preimage

section Cpis

variable {dep : Deployment} {fr : Frame} {accounts : List AccountInfo} {payerKey vaultKey : Pubkey}
  {sessionKey : Option Pubkey}

namespace CpiBuffers

/-- Neither vector has moved. -/
def Unmoved (buffers : CpiBuffers) (widest : ℕ) : Prop :=
  buffers.accountMetas.Unmoved widest ∧ buffers.cpiAccounts.Unmoved widest

theorem unmoved_withCapacity (widest : ℕ) : (withCapacity widest).Unmoved widest :=
  ⟨HeapVec.unmoved_withCapacity _, HeapVec.unmoved_withCapacity _⟩

/-- Pushing one account behind the other. -/
theorem foldl_push (accs : List (AccountInfo × Bool)) (buffers : CpiBuffers) :
    (accs.foldl (push payerKey vaultKey sessionKey) buffers).accountMetas.items =
        buffers.accountMetas.items ++ accs.map (innerMeta payerKey vaultKey sessionKey) ∧
      (accs.foldl (push payerKey vaultKey sessionKey) buffers).cpiAccounts.items =
        buffers.cpiAccounts.items ++ accs.map Prod.fst := by
  induction accs generalizing buffers with
  | nil => simp
  | cons acc rest ih =>
    rw [List.foldl_cons, (ih _).1, (ih _).2]
    simp only [push, HeapVec.items_push, List.map_cons, List.append_assoc, List.singleton_append, and_self]

private theorem Unmoved.foldl_push {widest : ℕ} {accs : List (AccountInfo × Bool)} {buffers : CpiBuffers}
    (still : buffers.Unmoved widest) (metasRoom : buffers.accountMetas.items.length + accs.length ≤ widest)
    (accountsRoom : buffers.cpiAccounts.items.length + accs.length ≤ widest) :
    (accs.foldl (push payerKey vaultKey sessionKey) buffers).Unmoved widest := by
  induction accs generalizing buffers with
  | nil => exact still
  | cons acc rest ih =>
    rw [List.length_cons] at metasRoom accountsRoom
    apply ih
    · exact ⟨still.1.push (by omega) _, still.2.push (by omega) _⟩
    · simp only [push, HeapVec.items_push, List.length_append, List.length_singleton]
      omega
    · simp only [push, HeapVec.items_push, List.length_append, List.length_singleton]
      omega

/-- A refill builds the metas of the inner instruction. -/
theorem items_refill (buffers : CpiBuffers) (accs : List (AccountInfo × Bool)) :
    (buffers.refill payerKey vaultKey sessionKey accs).accountMetas.items =
      accs.map (innerMeta payerKey vaultKey sessionKey) :=
  (foldl_push accs buffers.clear).1

theorem Unmoved.refill {widest : ℕ} {accs : List (AccountInfo × Bool)} {buffers : CpiBuffers}
    (still : buffers.Unmoved widest) (room : accs.length ≤ widest) :
    (buffers.refill payerKey vaultKey sessionKey accs).Unmoved widest := by
  apply Unmoved.foldl_push
  · exact ⟨still.1.clear, still.2.clear⟩
  · exact (Nat.zero_add _).trans_le room
  · exact (Nat.zero_add _).trans_le room

end CpiBuffers

private theorem length_decompress {ix : CompactInstruction} {decompressed : DecompressedInstruction}
    (success : ix.decompress accounts = .ok decompressed) : decompressed.accounts.length = ix.accounts.length := by
  simp only [CompactInstruction.decompress, Except.bind_eq_ok, Except.mapM_eq_ok, Except.ok.injEq] at success
  obtain ⟨_, _, resolved, each, rfl⟩ := success
  exact each.length_eq.symm

private theorem le_maxInnerAccounts {ixs : List CompactInstruction} {ix : CompactInstruction} (member : ix ∈ ixs) :
    ix.accounts.length ≤ maxInnerAccounts ixs :=
  List.le_max?_getD_of_mem (List.mem_map_of_mem member)

/-- No inner instruction has more metas than the widest compact instruction has accounts. -/
theorem length_innerInstruction_le {ixs : List CompactInstruction} {ix : CompactInstruction} (member : ix ∈ ixs)
    {decompressed : DecompressedInstruction} (success : ix.decompress accounts = .ok decompressed) :
    (innerInstruction payerKey vaultKey sessionKey decompressed).accounts.length ≤ maxInnerAccounts ixs := by
  rw [innerInstruction, List.length_map, length_decompress success]
  exact le_maxInnerAccounts member

/-- The instruction issued from the vectors is the inner instruction. -/
theorem executeInnerBuffered_fst (m : Machine Approval) (buffers : CpiBuffers) (ix : CompactInstruction) :
    (executeInnerBuffered dep fr accounts payerKey vaultKey sessionKey m buffers ix).1 =
      executeInner dep fr accounts payerKey vaultKey sessionKey m ix := by
  rw [executeInnerBuffered, executeInner]
  cases ix.decompress accounts with
  | error e => rfl
  | ok decompressed =>
    simp only [Except.ok_bind, Except.ensure]
    split
    · rw [Except.ok_bind, innerInstruction, CpiBuffers.items_refill]
    · rfl

private theorem executeInnerBuffered_unmoved {widest : ℕ} {buffers : CpiBuffers} {ix : CompactInstruction}
    (still : buffers.Unmoved widest) (room : ix.accounts.length ≤ widest) (m : Machine Approval) :
    (executeInnerBuffered dep fr accounts payerKey vaultKey sessionKey m buffers ix).2.Unmoved widest := by
  rw [executeInnerBuffered]
  cases found : ix.decompress accounts with
  | error e => exact still
  | ok decompressed =>
    simp only
    split
    · exact still.refill (by rwa [length_decompress found])
    · exact still

private theorem seenAs_executeTrackedBuffered (state : CpiProgress × CpiBuffers) (ix : CompactInstruction) :
    Except.seenAs Prod.fst (executeTrackedBuffered dep fr accounts payerKey vaultKey sessionKey state ix) =
      executeTracked dep fr accounts payerKey vaultKey sessionKey state.1 ix := by
  rw [executeTrackedBuffered, executeTracked, ← executeInnerBuffered_fst _ state.2]
  generalize executeInnerBuffered dep fr accounts payerKey vaultKey sessionKey state.1.machine state.2 ix = issued
  obtain ⟨outcome, buffers⟩ := issued
  cases outcome <;> rfl

private theorem seenAs_executeDeferredBuffered (state : Machine Approval × CpiBuffers) (ix : CompactInstruction) :
    Except.seenAs Prod.fst (executeDeferredBuffered dep fr accounts payerKey vaultKey state ix) =
      executeInner dep fr accounts payerKey vaultKey none state.1 ix := by
  rw [executeDeferredBuffered, ← executeInnerBuffered_fst _ state.2]
  generalize executeInnerBuffered dep fr accounts payerKey vaultKey none state.1 state.2 ix = issued
  obtain ⟨outcome, buffers⟩ := issued
  cases outcome <;> rfl

private theorem buffers_executeTrackedBuffered (state : CpiProgress × CpiBuffers) (ix : CompactInstruction) :
    (executeTrackedBuffered dep fr accounts payerKey vaultKey sessionKey state ix).2.2 =
      (executeInnerBuffered dep fr accounts payerKey vaultKey sessionKey state.1.machine state.2 ix).2 := by
  rw [executeTrackedBuffered]
  split <;> rfl

private theorem buffers_executeDeferredBuffered (state : Machine Approval × CpiBuffers) (ix : CompactInstruction) :
    (executeDeferredBuffered dep fr accounts payerKey vaultKey state ix).2.2 =
      (executeInnerBuffered dep fr accounts payerKey vaultKey none state.1 state.2 ix).2 := by
  rw [executeDeferredBuffered]
  split <;> rfl

/-- A loop whose rounds leave the vectors to `executeInnerBuffered` never moves them. -/
theorem foldlKeeping_unmoved {σ : Type}
    {round : σ × CpiBuffers → CompactInstruction → Except ProgramError Unit × (σ × CpiBuffers)}
    (left : ∀ state ix, ∃ m, (round state ix).2.2 =
      (executeInnerBuffered dep fr accounts payerKey vaultKey sessionKey m state.2 ix).2)
    (ixs : List CompactInstruction) (s : σ) :
    (Except.foldlKeeping round ixs (s, .withCapacity (maxInnerAccounts ixs))).2.2.Unmoved (maxInnerAccounts ixs) := by
  let Ready (rest : List CompactInstruction) (state : σ × CpiBuffers) : Prop :=
    state.2.Unmoved (maxInnerAccounts ixs) ∧ ∀ ix ∈ rest, ix.accounts.length ≤ maxInnerAccounts ixs
  have step (ix : CompactInstruction) (rest : List CompactInstruction) (state : σ × CpiBuffers)
      (ready : Ready (ix :: rest) state) : Ready rest (round state ix).2 := by
    obtain ⟨still, narrow⟩ := ready
    obtain ⟨m, same⟩ := left state ix
    refine ⟨?_, fun other member => narrow other (List.mem_cons_of_mem _ member)⟩
    rw [same]
    exact executeInnerBuffered_unmoved still (narrow ix (List.mem_cons_self ..)) m
  have start : Ready ixs (s, .withCapacity (maxInnerAccounts ixs)) :=
    ⟨CpiBuffers.unmoved_withCapacity _, fun _ member => le_maxInnerAccounts member⟩
  obtain ⟨_, still, _⟩ := Except.foldlKeeping_inv Ready step start
  exact still

end Cpis

/-- Every vector sized in advance holds what its loop pushes, on every input and wherever the loop ends, and
the loops with their vectors compute what the program computes. -/
structure BuffersHold : Prop where
  parse : ∀ buf, Except.seenAs HeapVec.items (pushActions buf) = parseActions buf
  headers : ∀ buf, (pushActions buf).2.items.length ≤ countActionHeaders buf
  headersExact : ∀ buf views, parseActions buf = .ok views → countActionHeaders buf = views.length
  views : ∀ buf, (pushActions buf).2.Unmoved (countActionHeaders buf)
  hash : ∀ accounts ixs, Except.seenAs HeapVec.items (pushAccountsHashPreimage accounts ixs) =
    accountsHashPreimage accounts ixs
  entries : ∀ accounts ixs preimage, accountsHashPreimage accounts ixs = .ok preimage →
    preimage.length = accountsHashEntries ixs * accountsHashEntryLen
  preimage : ∀ accounts ixs,
    (pushAccountsHashPreimage accounts ixs).2.Unmoved (accountsHashEntries ixs * accountsHashEntryLen)
  metas : ∀ accounts payerKey vaultKey sessionKey ixs, ∀ ix ∈ ixs, ∀ decompressed,
    CompactInstruction.decompress ix accounts = .ok decompressed →
      (innerInstruction payerKey vaultKey sessionKey decompressed).accounts.length ≤ maxInnerAccounts ixs
  execute : ∀ dep fr accounts payerKey vaultKey sessionKey ixs progress,
    Except.seenAs Prod.fst (executeLoopBuffered dep fr accounts payerKey vaultKey sessionKey ixs progress) =
      ixs.foldlM (executeTracked dep fr accounts payerKey vaultKey sessionKey) progress
  executeCpis : ∀ dep fr accounts payerKey vaultKey sessionKey ixs progress,
    (executeLoopBuffered dep fr accounts payerKey vaultKey sessionKey ixs progress).2.2.Unmoved (maxInnerAccounts ixs)
  deferred : ∀ dep fr accounts payerKey vaultKey ixs m,
    Except.seenAs Prod.fst (executeDeferredLoopBuffered dep fr accounts payerKey vaultKey ixs m) =
      ixs.foldlM (executeInner dep fr accounts payerKey vaultKey none) m
  deferredCpis : ∀ dep fr accounts payerKey vaultKey ixs m,
    (executeDeferredLoopBuffered dep fr accounts payerKey vaultKey ixs m).2.2.Unmoved (maxInnerAccounts ixs)

theorem buffers_hold : BuffersHold where
  parse := seenAs_pushActions
  headers buf := (pushActions_count buf).1.length_le
  headersExact buf views accepted := by
    rw [← seenAs_pushActions, Except.seenAs, Except.map_eq_ok] at accepted
    obtain ⟨u, success, rfl⟩ := accepted
    exact ((pushActions_count buf).2 success).symm
  views buf := (pushActions_count buf).1
  hash := seenAs_pushAccountsHashPreimage
  entries _ _ _ := length_accountsHashPreimage
  preimage := pushAccountsHashPreimage_unmoved
  metas _ _ _ _ _ _ member _ := length_innerInstruction_le member
  execute _ _ _ _ _ _ _ _ := Except.seenAs_foldlKeeping seenAs_executeTrackedBuffered _ _
  executeCpis _ _ _ _ _ _ ixs progress :=
    foldlKeeping_unmoved (fun state ix => ⟨_, buffers_executeTrackedBuffered state ix⟩) ixs progress
  deferred _ _ _ _ _ _ _ := Except.seenAs_foldlKeeping seenAs_executeDeferredBuffered _ _
  deferredCpis _ _ _ _ _ ixs m :=
    foldlKeeping_unmoved (fun state ix => ⟨_, buffers_executeDeferredBuffered state ix⟩) ixs m

namespace Sample

/-- A limit on lamports, and a whitelist of one program. -/
def headers : Bytes := solLimit ++ ([10, 32, 0] ++ List.replicate 8 0 ++ systemProgram.bytes)

def hashedAccounts : List AccountInfo :=
  [payerInfo, readonly wallet, writable vault, writable recipient, readonly systemProgram]

/-- Two instructions, the second with an account named twice. -/
def batchOfTwo : List CompactInstruction := [⟨4, [2, 3], []⟩, ⟨4, [2, 3, 0x80, 2], [1]⟩]

end Sample

/-- Two headers are counted for two actions, eight entries for the hash, and no instruction is wider than four. -/
theorem buffers_hold_sample :
    countActionHeaders Sample.headers = 2 ∧
      (∀ preimage, accountsHashPreimage Sample.hashedAccounts Sample.batchOfTwo = .ok preimage →
        preimage.length = 8 * 33) ∧
      (∃ preimage, accountsHashPreimage Sample.hashedAccounts Sample.batchOfTwo = .ok preimage) ∧
      ∀ ix ∈ Sample.batchOfTwo, ∃ decompressed, ix.decompress Sample.hashedAccounts = .ok decompressed ∧
        (innerInstruction Sample.payer Sample.vault none decompressed).accounts.length ≤ 4 := by
  have counted := buffers_hold.headersExact Sample.headers [⟨.solLimit, 0, 11, 8⟩, ⟨.programWhitelist, 0, 30, 32⟩]
    (by decide +kernel)
  have hashed : (accountsHashPreimage Sample.hashedAccounts Sample.batchOfTwo).succeeded = true := by decide +kernel
  have expands : ∀ ix ∈ Sample.batchOfTwo, (ix.decompress Sample.hashedAccounts).succeeded = true := by decide +kernel
  refine ⟨counted, fun preimage success => buffers_hold.entries _ _ preimage success,
    Except.exists_of_succeeded hashed, fun ix listed => ?_⟩
  obtain ⟨decompressed, success⟩ := Except.exists_of_succeeded (expands ix listed)
  exact ⟨decompressed, success, buffers_hold.metas _ _ _ _ _ ix listed decompressed success⟩

end LazorKit
