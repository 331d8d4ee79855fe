import LazorKit.Model.Compact

/-! # The compact stream reads only what it consumes

Two streams that agree on the bytes one of them consumes hold the same instructions, whatever
follows. The signed part of Execute's data is exactly these bytes.
-/

namespace LazorKit

open Solana

namespace CompactInstruction

/-- How many bytes an instruction takes on the wire. -/
def size (ix : CompactInstruction) : ℕ := 4 + ix.accounts.length + ix.data.length

theorem fromBytes_eq_ok {bytes rest : Bytes} {ix : CompactInstruction} (parsed : fromBytes bytes = .ok (ix, rest)) :
    ix.programIdIndex = bytes.byte 0 ∧ ix.programIdIndex ≤ maxAccountIndex ∧
      ix.accounts = bytes.slice 2 (bytes.byte 1).toNat ∧ ix.accounts.length = (bytes.byte 1).toNat ∧
      ix.data = bytes.slice (4 + ix.accounts.length) (bytes.slice (2 + ix.accounts.length) 2).toNatLE ∧
      ix.data.length = (bytes.slice (2 + ix.accounts.length) 2).toNatLE ∧
      ix.size ≤ bytes.length ∧ rest = bytes.drop ix.size := by
  simp only [fromBytes, Except.bind_eq_ok, Except.ensure_eq_ok, exists_const] at parsed
  obtain ⟨_, index, long, full, result⟩ := parsed
  cases Except.ok.inj result
  have accountsLength : (bytes.slice 2 (bytes.byte 1).toNat).length = (bytes.byte 1).toNat :=
    Bytes.length_slice_of_le (by omega)
  have dataLength : (bytes.slice (2 + (bytes.byte 1).toNat + 2)
      (bytes.slice (2 + (bytes.byte 1).toNat) 2).toNatLE).length =
      (bytes.slice (2 + (bytes.byte 1).toNat) 2).toNatLE := Bytes.length_slice_of_le full
  have start : 4 + (bytes.byte 1).toNat = 2 + (bytes.byte 1).toNat + 2 := by omega
  simp only [size, accountsLength, dataLength, start]
  exact ⟨trivial, index, trivial, trivial, trivial, trivial, full, trivial⟩

private theorem fromBytes_agree {bytes bytes' rest rest' : Bytes} {ix ix' : CompactInstruction}
    (parsed : fromBytes bytes = .ok (ix, rest)) (parsed' : fromBytes bytes' = .ok (ix', rest'))
    (agree : Bytes.AgreeUpTo ix.size bytes bytes') : ix = ix' := by
  obtain ⟨program, _, accounts, accountsLength, data, dataLength, _⟩ := fromBytes_eq_ok parsed
  obtain ⟨program', _, accounts', accountsLength', data', dataLength', _⟩ := fromBytes_eq_ok parsed'
  have programs : ix.programIdIndex = ix'.programIdIndex := by
    rw [program, program', agree.byte (by rw [size]; omega)]
  have counts := agree.byte (i := 1) (by rw [size]; omega)
  have lists : ix.accounts = ix'.accounts := by
    rw [accounts, accounts', ← counts, agree.slice _ _ (by rw [size, accountsLength]; omega)]
  have widths := agree.slice (2 + ix.accounts.length) 2 (by rw [size]; omega)
  have datas : ix.data = ix'.data := by
    rw [data, data', ← lists, ← widths, agree.slice _ _ (by rw [size, dataLength])]
  cases ix
  cases ix'
  simp only [mk.injEq]
  exact ⟨programs, lists, datas⟩

end CompactInstruction

section Stream

variable {bytes bytes' rest rest' : Bytes} {ixs ixs' : List CompactInstruction}

/-- What a stream leaves is a suffix, behind the sizes of its instructions. -/
theorem parseCompactInstructions_rest {count : ℕ}
    (parsed : parseCompactInstructions count bytes = .ok (ixs, rest)) :
    (ixs.map CompactInstruction.size).sum ≤ bytes.length ∧
      rest = bytes.drop (ixs.map CompactInstruction.size).sum := by
  induction count generalizing bytes ixs with
  | zero =>
    cases Except.ok.inj parsed
    simp
  | succ count ih =>
    simp only [parseCompactInstructions, Except.bind_eq_ok] at parsed
    obtain ⟨⟨ix, tail⟩, head, ⟨more, _⟩, others, result⟩ := parsed
    cases Except.ok.inj result
    obtain ⟨_, _, _, _, _, _, fits, left⟩ := CompactInstruction.fromBytes_eq_ok head
    obtain ⟨fits', left'⟩ := ih others
    dsimp only at left left' fits'
    rw [left, List.length_drop] at fits'
    rw [left, List.drop_drop] at left'
    simp only [List.map_cons, List.sum_cons]
    exact ⟨by omega, left'⟩

private theorem parseCompactInstructions_agree {count : ℕ}
    (parsed : parseCompactInstructions count bytes = .ok (ixs, rest))
    (parsed' : parseCompactInstructions count bytes' = .ok (ixs', rest'))
    (agree : Bytes.AgreeUpTo (ixs.map CompactInstruction.size).sum bytes bytes') : ixs = ixs' := by
  induction count generalizing bytes bytes' ixs ixs' with
  | zero =>
    cases Except.ok.inj parsed
    cases Except.ok.inj parsed'
    rfl
  | succ count ih =>
    simp only [parseCompactInstructions, Except.bind_eq_ok] at parsed parsed'
    obtain ⟨⟨ix, tail⟩, head, ⟨more, _⟩, others, result⟩ := parsed
    obtain ⟨⟨ix', tail'⟩, head', ⟨more', _⟩, others', result'⟩ := parsed'
    cases Except.ok.inj result
    cases Except.ok.inj result'
    simp only [List.map_cons, List.sum_cons] at agree
    have first := CompactInstruction.fromBytes_agree head head' fun i lt => agree i (by omega)
    obtain ⟨_, _, _, _, _, _, _, left⟩ := CompactInstruction.fromBytes_eq_ok head
    obtain ⟨_, _, _, _, _, _, _, left'⟩ := CompactInstruction.fromBytes_eq_ok head'
    have below := agree.drop ix.size
    rw [Nat.add_sub_cancel_left] at below
    dsimp only at others others'
    rw [left] at others
    rw [left', ← first] at others'
    rw [first, ih others others' below]

/-- The consumed length is within the data, and the consumed bytes determine the instructions. -/
theorem parseCompactInstructionsRefWithLen_le {len : ℕ}
    (parsed : parseCompactInstructionsRefWithLen bytes = .ok (ixs, len)) : len ≤ bytes.length := by
  unfold parseCompactInstructionsRefWithLen at parsed
  split at parsed
  · cases parsed
  · simp only [Except.bind_eq_ok, Except.ensure_eq_ok, exists_const] at parsed
    obtain ⟨_, stream, _, result⟩ := parsed
    cases Except.ok.inj result
    exact Nat.sub_le _ _

theorem parseCompactInstructionsRefWithLen_inj {len len' : ℕ}
    (parsed : parseCompactInstructionsRefWithLen bytes = .ok (ixs, len))
    (parsed' : parseCompactInstructionsRefWithLen bytes' = .ok (ixs', len'))
    (same : bytes.take len = bytes'.take len') : ixs = ixs' := by
  have ends := Bytes.take_inj (parseCompactInstructionsRefWithLen_le parsed)
    (parseCompactInstructionsRefWithLen_le parsed') same
  rw [← ends] at same
  have agree := Bytes.AgreeUpTo.of_take same
  unfold parseCompactInstructionsRefWithLen at parsed parsed'
  split at parsed
  · cases parsed
  · next count stream =>
    split at parsed'
    · cases parsed'
    · next count' stream' =>
      simp only [Except.bind_eq_ok, Except.ensure_eq_ok, exists_const] at parsed parsed'
      obtain ⟨_, ⟨list, rest⟩, whole, result⟩ := parsed
      obtain ⟨_, ⟨list', rest'⟩, whole', result'⟩ := parsed'
      cases Except.ok.inj result
      cases Except.ok.inj result'
      obtain ⟨fits, left⟩ := parseCompactInstructions_rest whole
      have consumed : (count :: stream).length - rest.length = 1 + (list.map CompactInstruction.size).sum := by
        rw [left, List.length_drop, List.length_cons]
        omega
      rw [consumed] at agree
      have counts : count = count' := by simpa using agree 0 (by omega)
      have below := agree.drop 1
      rw [Nat.add_sub_cancel_left] at below
      rw [← counts] at whole'
      exact parseCompactInstructions_agree whole whole' below

end Stream

end LazorKit
