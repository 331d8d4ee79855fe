import LazorKit.Proofs.RunRefine

/-! # Custody: who holds what over a wallet

The abstract protocol forgets everything about a record but what it stands for: a wallet with its
owner count, an authority with its rank and keys, a session or a deferred authorization of a wallet.
`CustodyStep` lists what one instruction can do to that picture and which rank approved it. Every
transition of the registry is such a step.
-/

namespace LazorKit

open Solana

/-- What an address stands for. -/
inductive Face where
  | wallet (ownerCount : ℕ)
  | authority (wallet : Pubkey) (role kind : UInt8) (material : Bytes)
  | session (wallet : Pubkey)
  | deferred (wallet : Pubkey)
  | vacant

namespace Face

/-- The wallet an authority, a session or a deferred authorization names. -/
def names : Face → Option Pubkey
  | .authority named _ _ _ | .session named | .deferred named => some named
  | .wallet _ | .vacant => none

/-- An authority of rank Owner over the wallet. -/
def IsOwnerOf (wallet : Pubkey) (face : Face) : Prop :=
  ∃ kind material, face = .authority wallet rankOwner kind material

end Face

/-- The key material between an authority's header and its policy. -/
def keyMaterial (bytes : Bytes) : Bytes :=
  bytes.slice AuthorityAccountHeader.size
    ((authorityFixedLen (AuthorityAccountHeader.read bytes).authorityType).getD 0 - AuthorityAccountHeader.size)

/-- What a record stands for. -/
def face : Option Bytes → Face
  | none => .vacant
  | some bytes =>
    if (WalletAccount.check bytes).succeeded then .wallet (WalletAccount.readOwnerCount bytes)
    else if (AuthorityAccountHeader.check bytes).succeeded then
      .authority (AuthorityAccountHeader.read bytes).wallet (AuthorityAccountHeader.read bytes).role
        (AuthorityAccountHeader.read bytes).authorityType (keyMaterial bytes)
    else if (SessionAccount.check bytes).succeeded then .session (SessionAccount.read bytes).wallet
    else if (DeferredExecAccount.check bytes).succeeded then .deferred (DeferredExecAccount.read bytes).wallet
    else .vacant

/-- The whole picture. -/
def faces (reg : Registry) : Pubkey → Face := fun key => face (reg key)

/-- One instruction as custody sees it: its discriminator, and the wallet and rank of the authority
that approved it, if one did. -/
inductive CustodyStep (f : Pubkey → Face) : UInt8 → Option (Pubkey × UInt8) → (Pubkey → Face) → Prop
  | idle {discriminator : UInt8} {approver : Option (Pubkey × UInt8)} : CustodyStep f discriminator approver f
  | createWallet {wallet owner : Pubkey} {kind : UInt8} {material : Bytes}
      (walletVacant : f wallet = .vacant) (ownerVacant : f owner = .vacant) (distinct : owner ≠ wallet) :
      CustodyStep f 0 none
        (Function.update (Function.update f wallet (.wallet 1)) owner (.authority wallet rankOwner kind material))
  | addAuthority {wallet key : Pubkey} {count : ℕ} {actor role kind : UInt8} {material : Bytes}
      (live : f wallet = .wallet count) (vacant : f key = .vacant) (allowed : canAdd actor role = true) :
      CustodyStep f 1 (some (wallet, actor))
        (Function.update (Function.update f wallet (.wallet (if role = rankOwner then count + 1 else count))) key
          (.authority wallet role kind material))
  | removeAuthority {wallet key : Pubkey} {count : ℕ} {actor role kind : UInt8} {material : Bytes}
      (live : f wallet = .wallet count) (held : f key = .authority wallet role kind material)
      (allowed : canRemove actor role count = true) :
      CustodyStep f 2 (some (wallet, actor))
        (Function.update (Function.update f wallet (.wallet (if role = rankOwner then count - 1 else count))) key
          .vacant)
  | transferOwnership {wallet current key : Pubkey} {count : ℕ} {kind kind' : UInt8} {material material' : Bytes}
      (live : f wallet = .wallet count) (held : f current = .authority wallet rankOwner kind material)
      (vacant : f key = .vacant) :
      CustodyStep f 3 (some (wallet, rankOwner))
        (Function.update (Function.update f key (.authority wallet rankOwner kind' material')) current .vacant)
  | createSession {wallet key : Pubkey} {count : ℕ} {actor : UInt8} (live : f wallet = .wallet count)
      (vacant : f key = .vacant) (rank : actor ≤ rankAdmin) :
      CustodyStep f 5 (some (wallet, actor)) (Function.update f key (.session wallet))
  | authorize {wallet key : Pubkey} {count : ℕ} {actor : UInt8} (live : f wallet = .wallet count)
      (vacant : f key = .vacant) (rank : actor ≤ rankAdmin) :
      CustodyStep f 6 (some (wallet, actor)) (Function.update f key (.deferred wallet))
  | revokeSession {wallet key : Pubkey} {actor : UInt8} (held : f key = .session wallet)
      (rank : actor ≤ rankAdmin) :
      CustodyStep f 9 (some (wallet, actor)) (Function.update f key .vacant)
  | expire {key : Pubkey} {discriminator : UInt8}
      (which : discriminator = 7 ∨ discriminator = 8 ∨ discriminator = 18)
      (held : ∀ count, f key ≠ .wallet count) (spared : ∀ wallet role kind material,
        f key ≠ .authority wallet role kind material) :
      CustodyStep f discriminator none (Function.update f key .vacant)

theorem succeeded_eq_true {ε : Type} {x : Except ε Unit} : x.succeeded = true ↔ x = .ok () := by
  cases x <;> simp [Except.succeeded]

private theorem checkHeader_not_succeeded {bytes : Bytes} {expected : AccountDiscriminator} {version : Option ℕ}
    {minLen : ℕ} (other : bytes.byte 0 ≠ expected.toByte) :
    (checkHeader bytes expected version minLen).succeeded = false := by
  by_contra success
  rw [Bool.not_eq_false, succeeded_eq_true] at success
  exact other (checkHeader_tag success)

theorem face_wallet {bytes : Bytes} (checked : WalletAccount.check bytes = .ok ()) :
    face (some bytes) = .wallet (WalletAccount.readOwnerCount bytes) := by
  rw [face, if_pos (succeeded_eq_true.mpr checked)]

theorem face_authority {bytes : Bytes} (checked : AuthorityAccountHeader.check bytes = .ok ()) :
    face (some bytes) = .authority (AuthorityAccountHeader.read bytes).wallet
      (AuthorityAccountHeader.read bytes).role (AuthorityAccountHeader.read bytes).authorityType
      (keyMaterial bytes) := by
  have tag := (AuthorityAccountHeader.check_eq_ok.mp checked).2.1
  have notWallet : (WalletAccount.check bytes).succeeded = false :=
    checkHeader_not_succeeded (by rw [tag]; decide)
  rw [face, notWallet, if_neg (by decide), if_pos (succeeded_eq_true.mpr checked)]

/-- A session's tag rules out the faces of a wallet and an authority. -/
theorem face_of_session_tag {bytes : Bytes} (tag : bytes.byte 0 = AccountDiscriminator.session.toByte) :
    face (some bytes) =
      if (SessionAccount.check bytes).succeeded then .session (SessionAccount.read bytes).wallet else .vacant := by
  have notWallet : (WalletAccount.check bytes).succeeded = false :=
    checkHeader_not_succeeded (by rw [tag]; decide)
  have notAuthority : (AuthorityAccountHeader.check bytes).succeeded = false :=
    checkHeader_not_succeeded (by rw [tag]; decide)
  have notDeferred : (DeferredExecAccount.check bytes).succeeded = false :=
    checkHeader_not_succeeded (by rw [tag]; decide)
  simp [face, notWallet, notAuthority, notDeferred]

theorem face_session {bytes : Bytes} (checked : SessionAccount.check bytes = .ok ()) :
    face (some bytes) = .session (SessionAccount.read bytes).wallet := by
  rw [face_of_session_tag (SessionAccount.check_eq_ok.mp checked).2.1, if_pos (succeeded_eq_true.mpr checked)]

theorem face_deferred {bytes : Bytes} (checked : DeferredExecAccount.check bytes = .ok ()) :
    face (some bytes) = .deferred (DeferredExecAccount.read bytes).wallet := by
  have tag := (DeferredExecAccount.check_eq_ok.mp checked).2.1
  have notWallet : (WalletAccount.check bytes).succeeded = false :=
    checkHeader_not_succeeded (by rw [tag]; decide)
  have notAuthority : (AuthorityAccountHeader.check bytes).succeeded = false :=
    checkHeader_not_succeeded (by rw [tag]; decide)
  have notSession : (SessionAccount.check bytes).succeeded = false :=
    checkHeader_not_succeeded (by rw [tag]; decide)
  rw [face, notWallet, notAuthority, notSession, if_neg (by decide), if_neg (by decide), if_neg (by decide),
    if_pos (succeeded_eq_true.mpr checked)]

theorem face_eq_authority {record : Option Bytes} {wallet : Pubkey} {role kind : UInt8} {material : Bytes} :
    face record = .authority wallet role kind material ↔
      ∃ bytes, record = some bytes ∧ AuthorityAccountHeader.check bytes = .ok () ∧
        (AuthorityAccountHeader.read bytes).wallet = wallet ∧ (AuthorityAccountHeader.read bytes).role = role ∧
        (AuthorityAccountHeader.read bytes).authorityType = kind ∧ keyMaterial bytes = material := by
  constructor
  · intro same
    unfold face at same
    split at same
    · cases same
    · next bytes =>
      split at same
      · cases same
      · split at same
        · next checked =>
          cases same
          exact ⟨bytes, rfl, succeeded_eq_true.mp checked, rfl, rfl, rfl, rfl⟩
        · split at same
          · cases same
          · split at same <;> cases same
  · rintro ⟨bytes, rfl, checked, rfl, rfl, rfl, rfl⟩
    exact face_authority checked

private theorem faces_update (reg : Registry) (key : Pubkey) (record : Option Bytes) :
    faces (Function.update reg key record) = Function.update (faces reg) key (face record) := by
  funext other
  by_cases same : other = key
  · subst same
    simp [faces]
  · simp [faces, same]

/-- Rewriting a record without changing what it stands for. -/
theorem faces_update_same {reg : Registry} {key : Pubkey} {record : Option Bytes}
    (same : face record = face (reg key)) : faces (Function.update reg key record) = faces reg := by
  rw [faces_update, same]
  exact Function.update_eq_self key (faces reg)

/-- Where the policy of an authority account starts. -/
theorem PolicyLocation.of_authority {bytes : Bytes} (checked : AuthorityAccountHeader.check bytes = .ok ()) :
    PolicyLocation.of bytes =
      (authorityFixedLen (AuthorityAccountHeader.read bytes).authorityType).map PolicyLocation.mk := by
  obtain ⟨fits, tag, _⟩ := AuthorityAccountHeader.check_eq_ok.mp checked
  match bytes, fits with
  | disc :: kind :: rest, _ =>
    simp only [Bytes.byte, List.getD_cons_zero] at tag
    subst tag
    simp only [PolicyLocation.of, AuthorityAccountHeader.read, Bytes.byte, List.getD_cons_succ,
      List.getD_cons_zero, List.head?_cons, authorityFixedLen]
    rw [if_neg (by decide), if_pos trivial]
    split <;> simp_all

theorem authorityFixedLen_pos {kind : UInt8} {fixed : ℕ} (known : authorityFixedLen kind = some fixed) :
    AuthorityAccountHeader.size ≤ fixed := by
  unfold authorityFixedLen at known
  split at known <;> cases known <;> decide

private theorem keyMaterial_congr {old new : Bytes} {fixed : ℕ}
    (known : authorityFixedLen (AuthorityAccountHeader.read old).authorityType = some fixed)
    (kind : (AuthorityAccountHeader.read new).authorityType = (AuthorityAccountHeader.read old).authorityType)
    (same : ∀ i, AuthorityAccountHeader.size ≤ i → i < fixed → new[i]? = old[i]?) :
    keyMaterial new = keyMaterial old := by
  rw [keyMaterial, keyMaterial, kind, known, Option.getD_some]
  exact Bytes.slice_congr fun i low high => same i low (by omega)

/-- Approving an instruction does not change what an authority stands for. -/
theorem face_authStep {dep : Deployment} {fr : Frame} {accounts : List AccountInfo} {key : Pubkey}
    {authPayload signedPayload : Bytes} {discriminator : UInt8} {old new : Bytes} {approval : Approval}
    (step : AuthStep dep fr accounts key authPayload signedPayload discriminator old new approval)
    (checked : AuthorityAccountHeader.check old = .ok ()) : face (some new) = face (some old) := by
  have material : keyMaterial new = keyMaterial old := by
    rw [keyMaterial, keyMaterial, step.read_eq]
    exact Bytes.slice_congr fun i low _ => step.getElem?_eq (.inr (le_trans (by decide) low))
  rw [face_authority checked, face_authority (step.check_eq checked), material, step.read_eq]

/-- Neither does evaluating its policy. -/
theorem face_policyStep {old new : Bytes} (step : PolicyStep old new)
    (checked : AuthorityAccountHeader.check old = .ok ()) : face (some new) = face (some old) := by
  rcases step with rfl | ⟨loc, _, _, _, _, _, found, present, evaluated⟩
  · rfl
  · obtain ⟨_, _, same⟩ := evaluatePostActions_eq_ok present evaluated
    rw [PolicyLocation.of_authority checked, Option.map_eq_some_iff] at found
    obtain ⟨fixed, known, rfl⟩ := found
    have header : ∀ i, i < AuthorityAccountHeader.size → new[i]? = old[i]? := fun i early =>
      same.getElem?_of_lt (early.trans_le (authorityFixedLen_pos known))
    have read := AuthorityAccountHeader.read_congr header
    rw [face_authority checked, face_authority (AuthorityAccountHeader.check_congr same.length header checked),
      read, keyMaterial_congr known (by rw [read]) fun i _ early => same.getElem?_of_lt early]

/-- A session keeps standing for its wallet while its policy is evaluated. -/
theorem face_policyStep_session {old new : Bytes} (step : PolicyStep old new)
    (tag : old.byte 0 = AccountDiscriminator.session.toByte) : face (some new) = face (some old) := by
  rcases step with rfl | ⟨loc, _, _, _, _, _, found, present, evaluated⟩
  · rfl
  · obtain ⟨_, _, same⟩ := evaluatePostActions_eq_ok present evaluated
    have offset : loc.offset = sessionHeaderSize := by
      match old, found with
      | disc :: rest, found =>
        simp only [Bytes.byte, List.getD_cons_zero] at tag
        subst tag
        rw [PolicyLocation.of, if_pos rfl] at found
        cases found
        rfl
    have tag' : new.byte 0 = AccountDiscriminator.session.toByte := by
      rw [same.byte_of_lt (by rw [offset]; decide), tag]
    have version : new.byte 2 = old.byte 2 := same.byte_of_lt (by rw [offset]; decide)
    have wallet : (SessionAccount.read new).wallet = (SessionAccount.read old).wallet := by
      simp only [SessionAccount.read, readKey]
      rw [same.slice_of_le (by rw [offset]; decide)]
    have check : SessionAccount.check new = SessionAccount.check old := by
      simp only [SessionAccount.check, checkHeader, same.length, tag, tag', version]
    rw [face_of_session_tag tag, face_of_session_tag tag', check, wallet]

private theorem face_newWallet (bump : UInt8) : face (some (newWalletBytes bump)) = .wallet 1 := by
  have checked : WalletAccount.check (newWalletBytes bump) = .ok () :=
    WalletAccount.check_eq_ok.mpr ⟨by simp [newWalletBytes], rfl, rfl⟩
  rw [face_wallet checked, newWalletBytes, WalletAccount.readOwnerCount_toBytes (show 1 < 2 ^ 32 by decide)]

theorem check_newAuthority (kind role bump : UInt8) (wallet : Pubkey) (material policy : Bytes) :
    AuthorityAccountHeader.check (newAuthorityBytes kind role bump wallet material policy) = .ok () :=
  AuthorityAccountHeader.check_eq_ok.mpr ⟨by simp [newAuthorityBytes], rfl, rfl⟩

theorem read_newAuthority {kind role bump : UInt8} {wallet : Pubkey} {material policy : Bytes}
    (short : policy.length < 2 ^ 16) :
    AuthorityAccountHeader.read (newAuthorityBytes kind role bump wallet material policy) =
      newAuthorityHeader kind role bump policy.length wallet :=
  AuthorityAccountHeader.read_toBytes_append (by show (0 : ℕ) < 2 ^ 32; decide) short

private theorem keyMaterial_newAuthority {kind role bump : UInt8} {wallet : Pubkey} {material policy : Bytes}
    (short : policy.length < 2 ^ 16)
    (space : authorityFixedLen kind = some (AuthorityAccountHeader.size + material.length)) :
    keyMaterial (newAuthorityBytes kind role bump wallet material policy) = material := by
  rw [keyMaterial, read_newAuthority short]
  simp only [newAuthorityHeader, space, Option.getD_some, Nat.add_sub_cancel_left]
  exact slice_chunk (by simp) rfl

private theorem face_newAuthority {kind role bump : UInt8} {wallet : Pubkey} {material policy : Bytes}
    (short : policy.length < 2 ^ 16)
    (space : authorityFixedLen kind = some (AuthorityAccountHeader.size + material.length)) :
    face (some (newAuthorityBytes kind role bump wallet material policy)) =
      .authority wallet role kind material := by
  rw [face_authority (check_newAuthority ..), keyMaterial_newAuthority short space, read_newAuthority short]
  rfl

theorem read_newSession {bump : UInt8} {wallet : Pubkey} {args : ParsedCreateSessionArgs}
    (bound : args.expiresAt < 2 ^ 64) :
    SessionAccount.read (newSessionBytes bump wallet args) =
      { discriminator := AccountDiscriminator.session.toByte, bump := bump,
        version := currentAccountVersion, padding := .fill 0, wallet := wallet,
        sessionKey := args.sessionKey, expiresAt := args.expiresAt } :=
  SessionAccount.read_toBytes_append bound

private theorem face_newSession {bump : UInt8} {wallet : Pubkey} {args : ParsedCreateSessionArgs}
    (bound : args.expiresAt < 2 ^ 64) : face (some (newSessionBytes bump wallet args)) = .session wallet := by
  have checked : SessionAccount.check (newSessionBytes bump wallet args) = .ok () :=
    SessionAccount.check_eq_ok.mpr ⟨by simp [newSessionBytes], rfl, rfl⟩
  rw [face_session checked, read_newSession bound]

private theorem face_newDeferred {bump : UInt8} {data : Bytes} {wallet authority payer : Pubkey} {expiresAt : ℕ}
    (bound : expiresAt < 2 ^ 64) :
    face (some (newDeferred bump data wallet authority payer expiresAt).toBytes) = .deferred wallet := by
  have checked : DeferredExecAccount.check (newDeferred bump data wallet authority payer expiresAt).toBytes =
      .ok () := DeferredExecAccount.check_eq_ok.mpr ⟨by simp, rfl, rfl⟩
  rw [face_deferred checked, DeferredExecAccount.read_toBytes _ bound]
  rfl

private theorem readOwnerCount_lt (bytes : Bytes) : WalletAccount.readOwnerCount bytes < 2 ^ 32 :=
  Bytes.toNatLE_slice_lt

private theorem face_recount {bytes : Bytes} {role : UInt8} {count : ℕ} (checked : WalletAccount.check bytes = .ok ())
    (bound : role = rankOwner → count < 2 ^ 32) :
    face (some (recount bytes role count)) =
      .wallet (if role = rankOwner then count else WalletAccount.readOwnerCount bytes) := by
  unfold recount
  split
  · next owner =>
    rw [face_wallet (WalletAccount.check_setOwnerCount checked),
      WalletAccount.readOwnerCount_setOwnerCount (WalletAccount.check_eq_ok.mp checked).1 (bound owner)]
  · exact face_wallet checked

private theorem lt_of_le_saturatingAdd {n a b : ℕ} (le : n ≤ saturatingAdd a b) : n < 2 ^ 64 := by
  unfold saturatingAdd at le
  omega

section Refinement

variable {dep : Deployment} {fr : Frame} {accounts : List AccountInfo} {data : Bytes} {reg reg' : Registry}
  {discriminator : UInt8} {approvals : List Approval}

/-- The authority behind an approval, as custody saw it when it approved. -/
def ApprovedBy (reg : Registry) (approvals : List Approval) (wallet : Pubkey) (role : UInt8) : Prop :=
  ∃ key discriminator assertion kind material, Approval.authority key discriminator assertion ∈ approvals ∧
    faces reg key = .authority wallet role kind material

/-- The acting authority as custody sees it. -/
theorem Acting.faces_eq {wallet key : Pubkey} {authPayload signedPayload old new : Bytes} {approval : Approval}
    (acting : Acting dep fr accounts reg wallet key authPayload signedPayload discriminator old new approval) :
    faces reg key = .authority wallet (AuthorityAccountHeader.read old).role
      (AuthorityAccountHeader.read old).authorityType (keyMaterial old) := by
  rw [faces, acting.recorded, face_authority acting.checked, acting.ofWallet]

theorem Acting.approvedBy {wallet key : Pubkey} {authPayload signedPayload old new : Bytes} {approval : Approval}
    (acting : Acting dep fr accounts reg wallet key authPayload signedPayload discriminator old new approval) :
    ApprovedBy reg [approval] wallet (AuthorityAccountHeader.read old).role := by
  obtain ⟨assertion, rfl⟩ := acting.step.approval_eq
  exact ⟨key, discriminator, assertion, _, _, List.mem_singleton.mpr rfl, acting.faces_eq⟩

private theorem Acting.faces_update {wallet key : Pubkey} {authPayload signedPayload old new : Bytes}
    {approval : Approval}
    (acting : Acting dep fr accounts reg wallet key authPayload signedPayload discriminator old new approval) :
    faces (Function.update reg key (some new)) = faces reg :=
  faces_update_same (by rw [acting.recorded, face_authStep acting.step acting.checked])

private theorem WalletRecord.faces_eq {wallet : Pubkey} {bytes : Bytes} (live : WalletRecord reg wallet bytes) :
    faces reg wallet = .wallet (WalletAccount.readOwnerCount bytes) := by
  rw [faces, live.recorded, face_wallet live.checked]

theorem faces_of_fresh {key : Pubkey} (fresh : reg key = none) : faces reg key = .vacant := by
  rw [faces, fresh, face]

private theorem faces_update_none (reg : Registry) (key : Pubkey) :
    faces (Function.update reg key none) = Function.update (faces reg) key .vacant := faces_update reg key none

/-- Every transition of the registry is one step of custody, and the rank a step asks for belongs to
an authority that approved the instruction. -/
theorem Transition.custody (transition : Transition dep fr accounts data reg discriminator approvals reg') :
    ∃ approver, CustodyStep (faces reg) discriminator approver (faces reg') ∧
      ∀ wallet role, approver = some (wallet, role) → ApprovedBy reg approvals wallet role := by
  cases transition with
  | protocol | migrate | reclaimLegacy | closeLegacy => exact ⟨none, .idle, by simp⟩
  | createWallet _ walletFresh authorityFresh distinct _ space =>
    refine ⟨none, ?_, by simp⟩
    rw [faces_update, faces_update, face_newWallet, face_newAuthority (by decide) space]
    exact .createWallet (faces_of_fresh walletFresh) (faces_of_fresh authorityFresh) distinct
  | addAuthority parsed live acting allowed _ _ _ fresh _ space bound =>
    have short := (AddAuthorityArgs.parse_eq_ok parsed).2.2
    refine ⟨some (_, _), ?_, fun wallet role same => by cases same; exact acting.approvedBy⟩
    rw [faces_update, faces_update, acting.faces_update, face_recount live.checked bound,
      face_newAuthority (short.trans_lt (by decide)) space]
    exact .addAuthority live.faces_eq (faces_of_fresh fresh) allowed
  | removeAuthority live acting recorded checked ofWallet _ allowed =>
    refine ⟨some (_, _), ?_, fun wallet role same => by cases same; exact acting.approvedBy⟩
    rw [faces_update_none, faces_update, acting.faces_update,
      face_recount live.checked fun _ => lt_of_le_of_lt (Nat.sub_le _ _) (readOwnerCount_lt _)]
    have held := face_authority checked
    rw [← recorded, ofWallet] at held
    exact .removeAuthority live.faces_eq held allowed
  | transferOwnership _ live acting owner _ _ fresh _ space =>
    refine ⟨some (_, _), ?_, fun wallet role same => by cases same; exact owner ▸ acting.approvedBy⟩
    rw [faces_update_none, faces_update, face_newAuthority (by decide) space]
    exact .transferOwnership live.faces_eq (owner ▸ acting.faces_eq) (faces_of_fresh fresh)
  | execute _ acting policy =>
    refine ⟨none, ?_, by simp⟩
    have same := (face_policyStep policy (acting.step.check_eq acting.checked)).trans
      (face_authStep acting.step acting.checked)
    rw [faces_update_same (by rw [acting.recorded, same])]
    exact .idle
  | executeSession _ _ recorded tag _ _ _ _ policy =>
    refine ⟨none, ?_, by simp⟩
    rw [faces_update_same (by rw [recorded, face_policyStep_session policy tag])]
    exact .idle
  | createSession _ live acting rank _ _ duration _ fresh =>
    refine ⟨some (_, _), ?_, fun wallet role same => by cases same; exact acting.approvedBy⟩
    rw [faces_update, acting.faces_update, face_newSession (lt_of_le_saturatingAdd duration)]
    refine .createSession live.faces_eq (faces_of_fresh fresh) ?_
    rcases rank with rank | rank <;> rw [rank] <;> decide
  | authorize _ live acting _ rank _ _ bound _ _ fresh =>
    refine ⟨some (_, _), ?_, fun wallet role same => by cases same; exact acting.approvedBy⟩
    rw [faces_update, acting.faces_update, face_newDeferred bound]
    exact .authorize live.faces_eq (faces_of_fresh fresh) rank
  | executeDeferred _ _ _ recorded checked =>
    refine ⟨none, ?_, by simp⟩
    rw [faces_update_none]
    refine .expire (by simp) ?_ ?_ <;> simp [faces, recorded, face_deferred checked]
  | reclaimDeferred _ recorded checked =>
    refine ⟨none, ?_, by simp⟩
    rw [faces_update_none]
    refine .expire (by simp) ?_ ?_ <;> simp [faces, recorded, face_deferred checked]
  | revokeSession _ acting rank recorded checked ofWallet =>
    refine ⟨some (_, _), ?_, fun wallet role same => by cases same; exact acting.approvedBy⟩
    rw [faces_update_none, acting.faces_update]
    refine .revokeSession ?_ rank
    rw [faces, recorded, face_session checked, ofWallet]
  | closeExpiredSession _ recorded tag =>
    refine ⟨none, ?_, by simp⟩
    rw [faces_update_none]
    refine .expire (by simp) (fun count => ?_) (fun wallet role kind material => ?_)
    all_goals
      rw [faces, recorded, face_of_session_tag tag]
      split <;> simp

end Refinement

end LazorKit
