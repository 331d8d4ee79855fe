import LazorKit.Proofs.CompactStream
import LazorKit.ToMathlib.PrefixCodec

/-! # The compact format and its two parsers

The parser that borrows and the parser that copies agree on every byte string, on malformed and truncated
ones too. What either consumes is what the serializer writes for the instructions returned, and what the
serializer writes parses back whatever follows it. So the consumed prefix and the instructions stand for
one another.
-/

namespace LazorKit

open Solana

namespace CompactInstruction

private theorem fromBytesOwned_eq (bytes : Bytes) : fromBytesOwned bytes = fromBytes bytes := by
  rw [fromBytesOwned, fromBytes]
  by_cases long : 2 + (bytes.byte 1).toNat + 2 ≤ bytes.length
  · have first := Bytes.slice_one (show 2 + (bytes.byte 1).toNat < bytes.length by omega)
    have second := Bytes.slice_one (show 2 + (bytes.byte 1).toNat + 1 < bytes.length by omega)
    have both := Bytes.slice_append_slice bytes (2 + (bytes.byte 1).toNat) 1 1
    rw [first, second] at both
    have width : (bytes.slice (2 + (bytes.byte 1).toNat) 2).toNatLE =
        (bytes.byte (2 + (bytes.byte 1).toNat)).toNat + 256 * (bytes.byte (2 + (bytes.byte 1).toNat + 1)).toNat := by
      rw [← both]
      simp [Bytes.toNatLE]
    simp only [width]
  · simp only [Except.ensure, long, if_false]
    rfl

end CompactInstruction

private theorem pushCompactInstructions_eq (count : ℕ) (instructions : List CompactInstruction) (bytes : Bytes) :
    pushCompactInstructions count instructions bytes =
      (parseCompactInstructions count bytes).map fun parsed => (instructions ++ parsed.1, parsed.2) := by
  induction count generalizing instructions bytes with
  | zero =>
    rw [pushCompactInstructions, parseCompactInstructions]
    simp [Except.map]
  | succ count ih =>
    rw [pushCompactInstructions, parseCompactInstructions, CompactInstruction.fromBytesOwned_eq]
    cases CompactInstruction.fromBytes bytes with
    | error e => rfl
    | ok head =>
      change pushCompactInstructions count (instructions ++ [head.1]) head.2 =
        Except.map _ (parseCompactInstructions count head.2 >>= fun tail => .ok (head.1 :: tail.1, tail.2))
      rw [ih]
      cases parseCompactInstructions count head.2 with
      | error e => rfl
      | ok tail =>
        simp only [Except.map, bind, Except.bind]
        rw [List.append_assoc, List.singleton_append]

private theorem parseCompactInstructionsWithLen_eq (bytes : Bytes) :
    parseCompactInstructionsWithLen bytes = parseCompactInstructionsRefWithLen bytes := by
  cases bytes with
  | nil => rfl
  | cons count rest =>
    rw [parseCompactInstructionsWithLen, parseCompactInstructionsRefWithLen]
    simp only [pushCompactInstructions_eq, Bytes.byte, List.getD_cons_zero, List.drop_succ_cons, List.drop_zero]
    rw [Except.ensure_of (by rfl)]
    simp only [bind, Except.bind]
    split
    · rfl
    · cases parseCompactInstructions count.toNat rest with
      | error e => rfl
      | ok parsed => rfl

namespace CompactInstruction

/-- What the format can hold. -/
structure Packable (ix : CompactInstruction) : Prop where
  programIdIndex : ix.programIdIndex ≤ maxAccountIndex
  accounts : ix.accounts.length ≤ 255
  data : ix.data.length ≤ 65535

theorem fromBytes_toBytes (ix : CompactInstruction) (packable : ix.Packable) (rest : Bytes) :
    fromBytes (ix.toBytes ++ rest) = .ok (ix, rest) := by
  obtain ⟨program, accounts, data⟩ := ix
  obtain ⟨index, few, short⟩ := packable
  dsimp only at index few short
  have shape : (mk program accounts data).toBytes ++ rest =
      program :: UInt8.ofNat accounts.length :: (accounts ++ (Bytes.ofNatLE 2 data.length ++ (data ++ rest))) := by
    simp [toBytes]
  have count : (UInt8.ofNat accounts.length).toNat = accounts.length := by
    rw [UInt8.toNat_ofNat', Nat.mod_eq_of_lt (by omega)]
  have width : (Bytes.ofNatLE 2 data.length).toNatLE = data.length := Bytes.toNatLE_ofNatLE_of_lt (by omega)
  have size : (Bytes.ofNatLE 2 data.length).length = 2 := Bytes.length_ofNatLE 2 _
  rw [shape]
  generalize Bytes.ofNatLE 2 data.length = field at width size
  have number : Bytes.slice (program :: UInt8.ofNat accounts.length :: (accounts ++ (field ++ (data ++ rest))))
      (2 + accounts.length) 2 = field := by
    rw [Bytes.slice, Nat.add_comm, List.drop_succ_cons, List.drop_succ_cons, List.drop_left, ← size, List.take_left]
  have behind : List.drop (2 + accounts.length + 2)
      (program :: UInt8.ofNat accounts.length :: (accounts ++ (field ++ (data ++ rest)))) = data ++ rest := by
    rw [← List.drop_drop, Nat.add_comm, List.drop_succ_cons, List.drop_succ_cons, List.drop_left, ← size,
      List.drop_left]
  have total : (program :: UInt8.ofNat accounts.length :: (accounts ++ (field ++ (data ++ rest)))).length =
      2 + accounts.length + 2 + data.length + rest.length := by
    simp only [List.length_cons, List.length_append, size]
    omega
  simp only [fromBytes, Except.bind_eq_ok, Except.ensure_eq_ok, exists_const, total, Bytes.byte, List.getD_cons_zero,
    List.getD_cons_succ, count, number, width]
  refine ⟨by omega, index, by omega, by omega, ?_⟩
  rw [← List.drop_drop, behind, List.drop_left, Bytes.slice, Bytes.slice, behind, List.take_left]
  simp

private theorem toBytes_of_fromBytes (bytes : Bytes) (ix : CompactInstruction) (rest : Bytes)
    (parsed : fromBytes bytes = .ok (ix, rest)) : ix.Packable ∧ bytes = ix.toBytes ++ rest := by
  obtain ⟨program, index, accounts, accountsLength, data, dataLength, fits, left⟩ := fromBytes_eq_ok parsed
  rw [size] at fits
  have few := (bytes.byte 1).toNat_lt
  have short : (bytes.slice (2 + ix.accounts.length) 2).toNatLE < 256 ^ 2 := Bytes.toNatLE_slice_lt
  refine ⟨⟨index, by omega, by omega⟩, ?_⟩
  have field : bytes.slice (2 + ix.accounts.length) 2 = Bytes.ofNatLE 2 ix.data.length := by
    have back := Bytes.ofNatLE_toNatLE (bytes.slice (2 + ix.accounts.length) 2)
    rw [Bytes.length_slice_of_le (by omega), ← dataLength] at back
    exact back.symm
  have count : bytes.byte 1 = UInt8.ofNat ix.accounts.length := by rw [accountsLength, UInt8.ofNat_toNat]
  have header : bytes.take 2 = [ix.programIdIndex, UInt8.ofNat ix.accounts.length] := by
    have first : bytes.take 1 = [bytes.byte 0] := Bytes.slice_one (show 0 < bytes.length by omega)
    rw [← Bytes.take_append_slice bytes 1 1, Bytes.slice_one (by omega), count, first, program]
    rfl
  calc bytes = bytes.take ix.size ++ rest := by rw [left, List.take_append_drop]
    _ = bytes.take 2 ++ bytes.slice 2 ix.accounts.length ++ bytes.slice (2 + ix.accounts.length) 2 ++
        bytes.slice (2 + ix.accounts.length + 2) ix.data.length ++ rest := by
      rw [Bytes.take_append_slice, Bytes.take_append_slice, Bytes.take_append_slice, size]
      congr 2
      omega
    _ = ix.toBytes ++ rest := by
      have start : 2 + ix.accounts.length + 2 = 4 + ix.accounts.length := by omega
      rw [← accountsLength] at accounts
      rw [← dataLength] at data
      rw [header, field, toBytes, start, ← accounts, ← data]

/-- The format of one instruction. -/
def codec : PrefixCodec ProgramError CompactInstruction where
  write := toBytes
  read := fromBytes
  Writable := Packable
  read_write := fromBytes_toBytes
  write_of_read := toBytes_of_fromBytes

end CompactInstruction

theorem parseCompactInstructions_eq_readMany (count : ℕ) (bytes : Bytes) :
    parseCompactInstructions count bytes = CompactInstruction.codec.readMany count bytes := by
  induction count generalizing bytes with
  | zero => rfl
  | succ count ih =>
    rw [parseCompactInstructions, PrefixCodec.readMany]
    simp only [ih]
    rfl

/-- What a parse consumed is what the serializer writes for its instructions. -/
theorem serializeCompactInstructions_of_parse {bytes : Bytes} {ixs : List CompactInstruction} {len : ℕ}
    (parsed : parseCompactInstructionsRefWithLen bytes = .ok (ixs, len)) :
    serializeCompactInstructions ixs = .ok (bytes.take len) := by
  cases bytes with
  | nil => cases parsed
  | cons count stream =>
    simp only [parseCompactInstructionsRefWithLen, Except.bind_eq_ok, Except.ensure_eq_ok, exists_const,
      parseCompactInstructions_eq_readMany] at parsed
    obtain ⟨few, ⟨list, rest⟩, whole, result⟩ := parsed
    cases result
    obtain ⟨length, packable, written⟩ := CompactInstruction.codec.write_of_readMany whole
    change stream = list.flatMap CompactInstruction.toBytes ++ rest at written
    rw [maxCompactInstructions] at few
    simp only [serializeCompactInstructions, Except.bind_eq_ok, Except.ensure_eq_ok, exists_const]
    refine ⟨by omega, (), ?_, ?_⟩
    · apply Except.forM_eq_ok.mpr
      intro ix member
      exact Except.ensure_of (packable ix member).accounts
    · have consumed :
          (count :: stream).length - rest.length = (list.flatMap CompactInstruction.toBytes).length + 1 := by
        rw [written, List.length_cons, List.length_append]
        omega
      rw [consumed, List.take_succ_cons, length, UInt8.ofNat_toNat, written, List.take_left]

/-- What the serializer writes parses back, whatever follows. -/
theorem parse_serializeCompactInstructions {ixs : List CompactInstruction} (few : ixs.length ≤ maxCompactInstructions)
    (packable : ∀ ix ∈ ixs, ix.Packable) :
    ∃ bytes, serializeCompactInstructions ixs = .ok bytes ∧
      ∀ suffix, parseCompactInstructionsRefWithLen (bytes ++ suffix) = .ok (ixs, bytes.length) := by
  rw [maxCompactInstructions] at few
  refine ⟨UInt8.ofNat ixs.length :: ixs.flatMap CompactInstruction.toBytes, ?_, fun suffix => ?_⟩
  · simp only [serializeCompactInstructions, Except.bind_eq_ok, Except.ensure_eq_ok, exists_const]
    refine ⟨by omega, (), ?_, trivial⟩
    apply Except.forM_eq_ok.mpr
    intro ix member
    exact Except.ensure_of (packable ix member).accounts
  · have count : (UInt8.ofNat ixs.length).toNat = ixs.length := by
      rw [UInt8.toNat_ofNat', Nat.mod_eq_of_lt (by omega)]
    simp only [List.cons_append, parseCompactInstructionsRefWithLen, Except.bind_eq_ok, Except.ensure_eq_ok,
      exists_const, parseCompactInstructions_eq_readMany, count]
    refine ⟨few, _, CompactInstruction.codec.readMany_write packable suffix, ?_⟩
    simp only [List.length_cons, List.length_append, Except.ok.injEq, Prod.mk.injEq, true_and]
    omega

/-- The two parsers agree on every byte string; what they consume is the serialization of what they
return; and the serialization of up to sixteen packable instructions parses back with any suffix. -/
theorem compact_round_trip :
    (∀ bytes, parseCompactInstructionsRefWithLen bytes = parseCompactInstructionsWithLen bytes) ∧
    (∀ bytes ixs len, parseCompactInstructionsRefWithLen bytes = .ok (ixs, len) →
      serializeCompactInstructions ixs = .ok (bytes.take len)) ∧
    ∀ ixs : List CompactInstruction, ixs.length ≤ 16 →
      (∀ ix ∈ ixs, ix.programIdIndex ≤ 127 ∧ ix.accounts.length ≤ 255 ∧ ix.data.length ≤ 65535) →
      ∃ bytes, serializeCompactInstructions ixs = .ok bytes ∧
        ∀ suffix, parseCompactInstructionsRefWithLen (bytes ++ suffix) = .ok (ixs, bytes.length) ∧
          parseCompactInstructionsWithLen (bytes ++ suffix) = .ok (ixs, bytes.length) := by
  refine ⟨fun bytes => (parseCompactInstructionsWithLen_eq bytes).symm,
    fun bytes ixs len => serializeCompactInstructions_of_parse, fun ixs few packable => ?_⟩
  obtain ⟨bytes, written, parses⟩ := parse_serializeCompactInstructions few fun ix member =>
    ⟨(packable ix member).1, (packable ix member).2.1, (packable ix member).2.2⟩
  refine ⟨bytes, written, fun suffix => ⟨parses suffix, ?_⟩⟩
  rw [parseCompactInstructionsWithLen_eq]
  exact parses suffix

theorem compact_round_trip_sample :
    (∃ ixs, serializeCompactInstructions ixs = .ok [1, 3, 2, 0, 129, 1, 0, 9]) ∧
      ∃ bytes, serializeCompactInstructions [⟨3, [0, 129], [9]⟩] = .ok bytes ∧
        parseCompactInstructionsWithLen (bytes ++ [7, 7]) = .ok ([⟨3, [0, 129], [9]⟩], bytes.length) := by
  refine ⟨⟨_, compact_round_trip.2.1 [1, 3, 2, 0, 129, 1, 0, 9, 5, 5] [⟨3, [0, 129], [9]⟩] 8 (by decide)⟩, ?_⟩
  obtain ⟨bytes, written, parses⟩ := compact_round_trip.2.2 [⟨3, [0, 129], [9]⟩] (by decide) (by decide)
  exact ⟨bytes, written, (parses [7, 7]).2⟩

end LazorKit
