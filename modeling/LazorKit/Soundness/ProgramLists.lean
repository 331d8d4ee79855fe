import LazorKit.Soundness.InnerSigners

/-! # Which programs a policy lets an Execute call

Three places look up the program of a compact instruction: the lists of the policy by the raw index, the
accounts hash by the masked one, the loop through the expanded instruction. The parser refuses an index
with the flag bit, so they find one account. A policy-bound Execute therefore calls only programs its lists
allow: a whitelist, expired or not, admits what its unexpired entries name; a blacklist bans that and no more.
-/

namespace LazorKit

open Solana

/-- The three lookups of an instruction's program find this one. -/
structure SameProgram (accounts : List AccountInfo) (ix : CompactInstruction) (program : Pubkey) : Prop where
  tested : ∃ acc, accountByIndex accounts ix.programIdIndex.toNat = .ok acc ∧ acc.key = program
  hashed : ∃ acc flags, accounts[(decodeAccountIndex ix.programIdIndex).1]? = some acc ∧ acc.key = program ∧
    accountsHashEntry accounts (decodeAccountIndex ix.programIdIndex).1 = .ok (program.bytes ++ [flags])
  invoked : ∀ decompressed, ix.decompress accounts = .ok decompressed → decompressed.programId = program

/-- All three lookups fail. -/
structure NoProgram (accounts : List AccountInfo) (ix : CompactInstruction) : Prop where
  tested : ∀ acc, accountByIndex accounts ix.programIdIndex.toNat ≠ .ok acc
  hashed : ∀ entry, accountsHashEntry accounts (decodeAccountIndex ix.programIdIndex).1 ≠ .ok entry
  invoked : ∀ decompressed, ix.decompress accounts ≠ .ok decompressed

private theorem decompress_program {accounts : List AccountInfo} {ix : CompactInstruction}
    {decompressed : DecompressedInstruction} (success : ix.decompress accounts = .ok decompressed) :
    KeyAt accounts ix.programIdIndex.toNat decompressed.programId := by
  simp only [CompactInstruction.decompress, accountByIndex, Except.bind_eq_ok, Except.ofOption_eq_ok,
    Except.ok.injEq] at success
  obtain ⟨program, programAt, _, _, rfl⟩ := success
  exact ⟨program, programAt, rfl⟩

private theorem sameProgram_or {ix : CompactInstruction} (accounts : List AccountInfo)
    (inRange : ix.programIdIndex ≤ maxAccountIndex) :
    NoProgram accounts ix ∨ ∃ program, SameProgram accounts ix program := by
  have index := decodeAccountIndex_of_le inRange
  cases found : accounts[ix.programIdIndex.toNat]? with
  | none =>
    left
    refine ⟨fun acc tested => ?_, fun entry hashed => ?_, fun decompressed expanded => ?_⟩
    · rw [accountByIndex, Except.ofOption_eq_ok, found] at tested
      cases tested
    · obtain ⟨acc, at_, _⟩ := accountsHashEntry_eq_ok.mp hashed
      rw [index, found] at at_
      cases at_
    · obtain ⟨acc, at_, _⟩ := decompress_program expanded
      rw [found] at at_
      cases at_
  | some acc =>
    refine .inr ⟨acc.key, ⟨acc, Except.ofOption_eq_ok.mpr found, rfl⟩, ?_, fun decompressed expanded => ?_⟩
    · rw [index]
      exact ⟨acc, _, found, rfl, accountsHashEntry_eq_ok.mpr ⟨acc, found, rfl⟩⟩
    · exact (decompress_program expanded).unique ⟨acc, found, rfl⟩

/-- An unexpired action of the type names the program. -/
def Names (buf : Bytes) (actions : List ActionView) (kind : ActionType) (slot : ℕ) (program : Pubkey) : Prop :=
  ∃ action ∈ actions, action.actionType = kind ∧ isExpired action slot = false ∧
    buf.slice action.dataOffset 32 = program.bytes

/-- A program the lists of a policy allow. -/
structure ProgramAllowed (buf : Bytes) (actions : List ActionView) (slot : ℕ) (program : Pubkey) : Prop where
  whitelisted : (∃ action ∈ actions, action.actionType = .programWhitelist) →
    Names buf actions .programWhitelist slot program
  notBlacklisted : ¬Names buf actions .programBlacklist slot program

section Lists

variable {buf : Bytes} {actions : List ActionView} {kind : ActionType} {slot : ℕ} {program : Pubkey}

theorem namesProgram_eq_ok {named : Bool} (success : namesProgram buf kind program slot actions = .ok named) :
    named = true ↔ Names buf actions kind slot program := by
  induction actions with
  | nil =>
    cases Except.ok.inj success
    simp [Names]
  | cons action rest ih =>
    rw [namesProgram] at success
    split at success
    · next candidate =>
      simp only [Except.bind_eq_ok, readBytes32, Except.ensure_eq_ok, exists_const] at success
      obtain ⟨bytes, ⟨_, read⟩, success⟩ := success
      cases Except.ok.inj read
      split at success
      · next same =>
        cases Except.ok.inj success
        exact iff_of_true rfl ⟨action, List.mem_cons_self .., candidate.1, candidate.2, same⟩
      · next different =>
        rw [ih success]
        constructor
        · rintro ⟨other, listed, found⟩
          exact ⟨other, List.mem_cons_of_mem _ listed, found⟩
        · rintro ⟨other, listed, type, live, same⟩
          cases listed with
          | head => exact absurd same different
          | tail _ later => exact ⟨other, later, type, live, same⟩
    · next skipped =>
      rw [ih success]
      constructor
      · rintro ⟨other, listed, found⟩
        exact ⟨other, List.mem_cons_of_mem _ listed, found⟩
      · rintro ⟨other, listed, type, live, same⟩
        cases listed with
        | head => exact absurd ⟨type, live⟩ skipped
        | tail _ later => exact ⟨other, later, type, live, same⟩

private theorem checkProgram_eq_ok {accounts : List AccountInfo} {ix : CompactInstruction}
    (success : checkProgram actions buf accounts slot ix = .ok ())
    (at_ : KeyAt accounts ix.programIdIndex.toNat program) : ProgramAllowed buf actions slot program := by
  simp only [checkProgram, accountByIndex, Except.bind_eq_ok, Except.ofOption_eq_ok, Except.ensure_eq_ok] at success
  obtain ⟨target, found, _, white, banned, black, open_⟩ := success
  cases at_.unique ⟨target, found, rfl⟩
  constructor
  · rintro ⟨action, listed, type⟩
    rw [if_pos (List.any_eq_true.mpr ⟨action, listed, by simpa using type⟩)] at white
    simp only [Except.bind_eq_ok, Except.ensure_eq_ok] at white
    obtain ⟨found, names, rfl⟩ := white
    exact (namesProgram_eq_ok names).mp rfl
  · intro named
    rw [(namesProgram_eq_ok black).mpr named] at open_
    cases open_

end Lists

/-- No round of the loop calls this program. -/
theorem executeInner_foldlM_not_self {dep : Deployment} {fr : Frame} {accounts : List AccountInfo}
    {payerKey vaultKey : Pubkey} {sessionKey : Option Pubkey} {m m' : Machine Approval} {ixs : List CompactInstruction}
    (success : ixs.foldlM (executeInner dep fr accounts payerKey vaultKey sessionKey) m = .ok m') :
    ∀ ix ∈ ixs, ∀ decompressed, ix.decompress accounts = .ok decompressed → decompressed.programId ≠ dep.programId := by
  induction ixs generalizing m with
  | nil => simp
  | cons ix rest ih =>
    obtain ⟨middle, head, tail⟩ := Except.foldlM_cons_eq_ok.mp success
    refine List.forall_mem_cons.mpr ⟨fun decompressed expanded => ?_, ih tail⟩
    rw [executeInner, expanded] at head
    simp only [Except.bind_eq_ok, Except.ensure_eq_ok, exists_const, Except.ok.injEq, exists_eq_left'] at head
    exact head.1

/-- Which programs an Execute calls. -/
structure ProgramsListed (dep : Deployment) : Prop where
  /-- The lists, the accounts hash and the loop look up one program. -/
  lookups : ∀ (data : Bytes) (ixs : List CompactInstruction) (len : ℕ) (accounts : List AccountInfo),
    parseCompactInstructionsRefWithLen data = .ok (ixs, len) →
    ∀ ix ∈ ixs, NoProgram accounts ix ∨ ∃ program, SameProgram accounts ix program
  /-- A successful Execute calls the programs its stream names and never this one; where the approving
  account carries a policy, its lists allow every one of them. -/
  execute : ∀ (fr : Frame) (accounts : List AccountInfo) (data : Bytes) (m m' : Machine Approval),
    processExecute dep fr accounts data m = .ok m' → ∃ authority ixs len issued,
      KeyAt accounts 2 authority ∧ parseCompactInstructionsRefWithLen data = .ok (ixs, len) ∧
      m'.invoked = m.invoked ++ issued ∧
      List.Forall₂ (fun ix inner => SameProgram accounts ix inner.programId) ixs issued ∧
      (∀ inner ∈ issued, inner.programId ≠ dep.programId) ∧
      ∀ loc, executePolicy (m.data authority) = some loc →
        ∃ actions, parseActions (loc.slice (m.data authority)) = .ok actions ∧
          ∀ inner ∈ issued, ProgramAllowed (loc.slice (m.data authority)) actions fr.slot.toNat inner.programId

private theorem SameProgram.of_keyAt {accounts : List AccountInfo} {ix : CompactInstruction} {program : Pubkey}
    (inRange : ix.programIdIndex ≤ maxAccountIndex) (at_ : KeyAt accounts ix.programIdIndex.toNat program) :
    SameProgram accounts ix program := by
  obtain ⟨acc, found, rfl⟩ := at_
  rcases sameProgram_or accounts inRange with none_ | ⟨program, same⟩
  · exact absurd (Except.ofOption_eq_ok.mpr found) (none_.tested acc)
  · obtain ⟨other, tested, rfl⟩ := same.tested
    rw [accountByIndex, Except.ofOption_eq_ok, found] at tested
    cases Option.some.inj tested
    exact same

private theorem processExecute_programs {dep : Deployment} {fr : Frame} {accounts : List AccountInfo} {data : Bytes}
    {m m' : Machine Approval} (success : processExecute dep fr accounts data m = .ok m') :
    ∃ authority ixs len issued,
      KeyAt accounts 2 authority ∧ parseCompactInstructionsRefWithLen data = .ok (ixs, len) ∧
      m'.invoked = m.invoked ++ issued ∧
      List.Forall₂ (fun ix inner => SameProgram accounts ix inner.programId) ixs issued ∧
      (∀ inner ∈ issued, inner.programId ≠ dep.programId) ∧
      ∀ loc, executePolicy (m.data authority) = some loc →
        ∃ actions, parseActions (loc.slice (m.data authority)) = .ok actions ∧
          ∀ inner ∈ issued, ProgramAllowed (loc.slice (m.data authority)) actions fr.slot.toNat inner.programId := by
  obtain ⟨payer, wallet, authority, ixs, len, sessionKey, authenticated, progress, run⟩ := processExecute_eq_ok success
  obtain ⟨issued, expanded, invoked⟩ := run.issued
  have each := Except.mapM_eq_ok.mp expanded
  have inRange := parseCompactInstructionsRefWithLen_inRange run.parsed
  have partner {inner : Instruction} (listed : inner ∈ issued) : ∃ ix ∈ ixs, ∃ decompressed,
      ix.decompress accounts = .ok decompressed ∧ decompressed.programId = inner.programId := by
    obtain ⟨ix, member, found⟩ := each.exists_left listed
    obtain ⟨decompressed, success, rfl⟩ := Except.map_eq_ok.mp found
    exact ⟨ix, member, decompressed, success, rfl⟩
  refine ⟨authority.key, ixs, len, issued, ⟨_, run.authorityAt, rfl⟩, run.parsed, invoked, ?_, ?_, ?_⟩
  · have programs := (List.forall₂_and_left ixs issued).mpr ⟨inRange, each⟩
    apply programs.imp
    intro ix inner both
    obtain ⟨decompressed, success, rfl⟩ := Except.map_eq_ok.mp both.2
    exact .of_keyAt both.1 (decompress_program success)
  · intro inner listed
    obtain ⟨ix, member, decompressed, success, same⟩ := partner listed
    rw [← same]
    exact executeInner_foldlM_not_self (executeTracked_foldlM run.loop) ix member decompressed success
  · intro loc found
    have checks := run.lists loc found
    have present : loc.isPresent (authenticated.data authority.key) = true := by
      have behind := (Option.filter_eq_some_iff.mp found).2
      have kept := congrArg List.length (run.policyKept loc found)
      simp only [PolicyLocation.isPresent, PolicyLocation.slice, List.length_drop, decide_eq_true_eq] at behind kept ⊢
      omega
    rw [evaluatePreActions, if_pos present, run.policyKept loc found, Except.bind_eq_ok] at checks
    obtain ⟨actions, parsed, checks⟩ := checks
    refine ⟨actions, parsed, fun inner listed => ?_⟩
    obtain ⟨ix, member, decompressed, success, same⟩ := partner listed
    rw [← same]
    exact checkProgram_eq_ok (Except.forM_eq_ok.mp checks ix member) (decompress_program success)

/-- One program per instruction, and only programs the policy's lists allow. -/
theorem programs_listed (dep : Deployment) : ProgramsListed dep where
  lookups _ _ _ accounts parsed ix member :=
    sameProgram_or accounts (parseCompactInstructionsRefWithLen_inRange parsed ix member)
  execute _ _ _ _ _ := processExecute_programs

namespace Sample

/-- A whitelist that named the token program until slot 1000 and names the System program until 2000, with a limit on
lamports. -/
def whitelists : Bytes :=
  ([10, 32, 0] ++ Bytes.ofNatLE 8 1000 ++ splTokenProgram.bytes) ++
    ([10, 32, 0] ++ Bytes.ofNatLE 8 2000 ++ systemProgram.bytes) ++ solLimit

def whitelistActions : List ActionView :=
  [⟨.programWhitelist, 1000, 11, 32⟩, ⟨.programWhitelist, 2000, 54, 32⟩, ⟨.solLimit, 0, 97, 8⟩]

/-- The session with these lists. -/
def listedLedger : Ledger :=
  sessionLedger.set session ⟨1800000, programId, newSessionBytes 255 wallet ⟨sessionKey, 2000, whitelists, 0⟩⟩

def underLists : Machine Approval :=
  (processExecute forwardingDeployment (forwardingFrame 1004 4) sessionAccounts forwardingBatch
    (.start listedLedger)).getD (.start listedLedger)

end Sample

/-- A session whose whitelist has an expired entry and a live one calls the program of the live one. -/
theorem programs_listed_sample :
    Sample.underLists.invoked = [Sample.forwarded false Sample.sessionKey] ∧
      (∀ inner ∈ Sample.underLists.invoked, SameProgram Sample.sessionAccounts Sample.forwarding inner.programId ∧
        inner.programId ≠ Sample.programId ∧
        ProgramAllowed Sample.whitelists Sample.whitelistActions 1004 inner.programId) ∧
      ¬ProgramAllowed Sample.whitelists Sample.whitelistActions 1004 splTokenProgram := by
  have facts : (processExecute Sample.forwardingDeployment (Sample.forwardingFrame 1004 4) Sample.sessionAccounts
        Sample.forwardingBatch (.start Sample.listedLedger)).succeeded = true ∧
      executePolicy (Sample.listedLedger Sample.session).data = some ⟨sessionHeaderSize⟩ ∧
      PolicyLocation.slice ⟨sessionHeaderSize⟩ (Sample.listedLedger Sample.session).data = Sample.whitelists ∧
      Sample.underLists.invoked = [Sample.forwarded false Sample.sessionKey] := by
    decide +kernel
  obtain ⟨success, policy, lists, invoked⟩ := facts
  have parsed : parseCompactInstructionsRefWithLen Sample.forwardingBatch = .ok ([Sample.forwarding], 22) := by
    decide +kernel
  have views : parseActions Sample.whitelists = .ok Sample.whitelistActions := by decide +kernel
  obtain ⟨authority, ixs, len, issued, authorityAt, stream, same, each, others, listed⟩ :=
    (programs_listed Sample.forwardingDeployment).execute _ _ _ _ _ (Except.eq_ok_getD success)
  cases authorityAt.unique ⟨Sample.writable Sample.session, rfl, rfl⟩
  cases parsed.symm.trans stream
  have isIssued : Sample.underLists.invoked = issued := same
  obtain ⟨actions, found, allowed⟩ := listed _ policy
  have isPolicy : PolicyLocation.slice ⟨sessionHeaderSize⟩ ((Machine.start Sample.listedLedger : Machine Approval).data
      (Sample.writable Sample.session).key) = Sample.whitelists := lists
  rw [isPolicy] at found allowed
  cases views.symm.trans found
  refine ⟨invoked, fun inner member => ?_, fun admitted => ?_⟩
  · rw [isIssued] at member
    obtain ⟨ix, only, program⟩ := each.exists_left member
    cases List.mem_singleton.mp only
    exact ⟨program, others inner member, allowed inner member⟩
  · obtain ⟨action, member, isWhitelist, live, named⟩ := admitted.whitelisted (by decide)
    have none : ∀ action ∈ Sample.whitelistActions, action.actionType = .programWhitelist →
        isExpired action 1004 = false → Sample.whitelists.slice action.dataOffset 32 ≠ splTokenProgram.bytes := by
      decide +kernel
    exact none action member isWhitelist live named

end LazorKit
