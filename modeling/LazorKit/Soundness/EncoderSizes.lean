import LazorKit.Model.Legacy.Packing
import LazorKit.Proofs.KitTransactions

/-! # The encoders of compact instructions and their sizes

Counts are written as one byte and data lengths as two. The program's writer asserts the counts, the two
client libraries assert nothing, not even that their indexes are bytes, and nobody asserts the data length. What
a parser returns always has sizes the format can hold, so an encoder whose output is read as another list was
given sizes that do not fit; and of lists of such sizes the zero-filled one is always read as another.
-/

namespace LazorKit

open Solana

/-- Whatever the parser reads from what was written is the list it was written for. -/
def ReadsBack (ixs : List CompactInstruction) (written : Except ProgramError Bytes) : Prop :=
  ∀ bytes, written = .ok bytes → ∀ parsed len,
    parseCompactInstructionsRefWithLen bytes = .ok (parsed, len) → parsed = ixs

/-- The same of what a client library packed. -/
def Kit.ReadsBack (ixs : List RawCompactInstruction) (bytes : Bytes) : Prop :=
  ∀ parsed len, parseCompactInstructionsRefWithLen bytes = .ok (parsed, len) →
    (parsed : List RawCompactInstruction) = ixs

/-- The same for a single instruction. -/
def CompactInstruction.ReadsBackAlone (ix : CompactInstruction) (written : Except ProgramError Bytes) : Prop :=
  ∀ bytes, written = .ok bytes → ∀ parsed rest, fromBytes bytes = .ok (parsed, rest) → parsed = ix

/-- Number of accounts and length of the data, instruction by instruction. -/
def sizesOf (ixs : List CompactInstruction) : List (ℕ × ℕ) := ixs.map fun ix => (ix.accounts.length, ix.data.length)

/-- The program's writer refuses the sizes, its parser refuses the count, or every data length fits. -/
def WriterSizes (sizes : List (ℕ × ℕ)) : Prop :=
  16 < sizes.length ∨ (∃ size ∈ sizes, 255 < size.1) ∨ ∀ size ∈ sizes, size.2 ≤ 65535

namespace Kit

/-- The number is that of a byte. -/
def Number.IsByte (number : Number) : Prop := ∃ byte, Number.ofByte byte = number

instance (number : Number) : Decidable number.IsByte :=
  decidable_of_iff (Number.ofByte number.toUint8 = number)
    ⟨fun same => ⟨_, same⟩, by rintro ⟨byte, rfl⟩; rw [Number.toUint8_ofByte]⟩

/-- Every index of the instruction is a byte. -/
def RawCompactInstruction.IndexesAreBytes (ix : RawCompactInstruction) : Prop :=
  ix.programIdIndex.IsByte ∧ ∀ index ∈ ix.accountIndexes, index.IsByte

instance (ix : RawCompactInstruction) : Decidable ix.IndexesAreBytes :=
  inferInstanceAs (Decidable (_ ∧ ∀ index ∈ ix.accountIndexes, index.IsByte))

/-- Number of accounts and length of the data of an instruction, and whether its indexes are bytes. -/
structure Shape where
  accounts : ℕ
  data : ℕ
  bytes : Bool

def shapesOf (ixs : List RawCompactInstruction) : List Shape :=
  ixs.map fun ix => ⟨ix.accountIndexes.length, ix.data.length, ix.IndexesAreBytes⟩

/-- The parser refuses the count as it is written, or all sizes fit and all indexes are bytes. -/
def PackerShapes (shapes : List Shape) : Prop :=
  16 < shapes.length % 256 ∨
    shapes.length ≤ 255 ∧ ∀ shape ∈ shapes, shape.accounts ≤ 255 ∧ shape.data ≤ 65535 ∧ shape.bytes = true

end Kit

/-- The format can hold the counts and lengths of the list. -/
def FitsFormat (ixs : List CompactInstruction) : Prop :=
  ixs.length ≤ maxCompactInstructions ∧ ∀ ix ∈ ixs, ix.accounts.length ≤ 255 ∧ ix.data.length ≤ 65535

/-- The stream all the encoders write, with counts and lengths cut to their fields. -/
def encodedStream (ixs : List CompactInstruction) : Bytes :=
  UInt8.ofNat ixs.length :: ixs.flatMap CompactInstruction.toBytes

/-- What the parser returns fits the format. -/
theorem fitsFormat_of_parse {bytes : Bytes} {parsed : List CompactInstruction} {len : ℕ}
    (success : parseCompactInstructionsRefWithLen bytes = .ok (parsed, len)) : FitsFormat parsed := by
  cases bytes with
  | nil => cases success
  | cons count stream =>
    simp only [parseCompactInstructionsRefWithLen, Except.bind_eq_ok, Except.ensure_eq_ok, exists_const,
      parseCompactInstructions_eq_readMany] at success
    obtain ⟨few, ⟨list, rest⟩, whole, result⟩ := success
    cases result
    obtain ⟨length, packable, _⟩ := CompactInstruction.codec.write_of_readMany whole
    exact ⟨length ▸ few, fun ix member => ⟨(packable ix member).accounts, (packable ix member).data⟩⟩

/-- An instruction that fits is read as itself, or its program index is refused. -/
theorem CompactInstruction.fromBytes_toBytes_inv {ix : CompactInstruction} {rest : Bytes}
    {parsed : CompactInstruction × Bytes} (few : ix.accounts.length ≤ 255) (short : ix.data.length ≤ 65535)
    (success : fromBytes (ix.toBytes ++ rest) = .ok parsed) :
      ix.programIdIndex ≤ maxAccountIndex ∧ parsed = (ix, rest) := by
  obtain ⟨first, inRange, _⟩ := fromBytes_eq_ok success
  have program : parsed.1.programIdIndex = ix.programIdIndex := first.trans (by simp [toBytes, Bytes.byte])
  rw [program] at inRange
  rw [fromBytes_toBytes ix ⟨inRange, few, short⟩ rest] at success
  exact ⟨inRange, (Except.ok.inj success).symm⟩

/-- Instructions that fit are read as themselves, if they are read at all. -/
theorem parse_fitting {ixs : List CompactInstruction} {parsed : List CompactInstruction × Bytes}
    (sizes : ∀ ix ∈ ixs, ix.accounts.length ≤ 255 ∧ ix.data.length ≤ 65535)
    (success : parseCompactInstructions ixs.length (ixs.flatMap CompactInstruction.toBytes) = .ok parsed) :
    parsed.1 = ixs := by
  induction ixs generalizing parsed with
  | nil =>
    cases success
    rfl
  | cons ix more ih =>
    rw [List.forall_mem_cons] at sizes
    rw [List.flatMap_cons, List.length_cons] at success
    simp only [parseCompactInstructions, Except.bind_eq_ok] at success
    obtain ⟨head, first, tail, others, result⟩ := success
    obtain ⟨_, rfl⟩ := CompactInstruction.fromBytes_toBytes_inv sizes.1.1 sizes.1.2 first
    cases result
    rw [ih sizes.2 others]

private theorem parse_encodedStream {ixs parsed : List CompactInstruction} {len : ℕ} (fits : FitsFormat ixs)
    (success : parseCompactInstructionsRefWithLen (encodedStream ixs) = .ok (parsed, len)) : parsed = ixs := by
  obtain ⟨few, sizes⟩ := fits
  rw [maxCompactInstructions] at few
  have count : (UInt8.ofNat ixs.length).toNat = ixs.length := by rw [UInt8.toNat_ofNat', Nat.mod_eq_of_lt (by omega)]
  simp only [encodedStream, parseCompactInstructionsRefWithLen, Except.bind_eq_ok, Except.ensure_eq_ok, exists_const,
    count] at success
  obtain ⟨_, found, whole, result⟩ := success
  cases result
  exact parse_fitting sizes whole

/-- An encoder of the stream is exact when the list fits, or when the parser refuses what was written. -/
theorem readsBack_iff {ixs : List CompactInstruction} {written : Except ProgramError Bytes}
    (stream : ∀ bytes, written = .ok bytes → bytes = encodedStream ixs) :
    ReadsBack ixs written ↔ FitsFormat ixs ∨
      ∀ bytes, written = .ok bytes → ∀ parsed, parseCompactInstructionsRefWithLen bytes ≠ .ok parsed := by
  by_cases fits : FitsFormat ixs
  · refine iff_of_true (fun bytes success parsed len read => ?_) (.inl fits)
    rw [stream bytes success] at read
    exact parse_encodedStream fits read
  · rw [or_iff_right fits]
    constructor
    · rintro exact bytes success ⟨parsed, len⟩ read
      rw [exact bytes success parsed len read] at read
      exact fits (fitsFormat_of_parse read)
    · intro refused bytes success parsed len read
      exact absurd read (refused bytes success _)

/-- The zero-filled instruction of a size. -/
def zeroFilled (size : ℕ × ℕ) : CompactInstruction := ⟨0, List.replicate size.1 0, List.replicate size.2 0⟩

private theorem sizesOf_zeroFilled (sizes : List (ℕ × ℕ)) : sizesOf (sizes.map zeroFilled) = sizes := by
  rw [sizesOf, List.map_map]
  refine (List.map_congr_left fun size _ => ?_).trans (List.map_id sizes)
  simp [zeroFilled]

private theorem packable_zeroFilled {size : ℕ × ℕ} (few : size.1 ≤ 255) (short : size.2 ≤ 65535) :
    (zeroFilled size).Packable := by
  refine ⟨?_, ?_, ?_⟩
  · exact UInt8.zero_le
  · rwa [zeroFilled, List.length_replicate]
  · rwa [zeroFilled, List.length_replicate]

/-- Zeros are empty instructions. -/
theorem parse_zeros (count : ℕ) {width : ℕ} (room : 4 * count ≤ width) (rest : Bytes) :
    ∃ parsed, parseCompactInstructions count (List.replicate width 0 ++ rest) = .ok parsed := by
  induction count generalizing width with
  | zero => exact ⟨_, rfl⟩
  | succ count ih =>
    obtain ⟨width, rfl⟩ := Nat.exists_eq_add_of_le' (show 4 ≤ width by omega)
    have front : List.replicate (width + 4) 0 ++ rest =
        (zeroFilled (0, 0)).toBytes ++ (List.replicate width 0 ++ rest) := by
      rw [Nat.add_comm, List.replicate_add, List.append_assoc]
      rfl
    have one := CompactInstruction.fromBytes_toBytes (zeroFilled (0, 0)) (packable_zeroFilled (by decide) (by decide))
      (List.replicate width 0 ++ rest)
    obtain ⟨tail, later⟩ := ih (show 4 * count ≤ width by omega)
    refine ⟨(zeroFilled (0, 0) :: tail.1, tail.2), ?_⟩
    rw [front, parseCompactInstructions, one, Except.ok_bind, later]
    rfl

/-- Long data is written as its front, under the length of the front, and the rest behind. -/
theorem toBytes_longData (ix : CompactInstruction) :
    ix.toBytes = { ix with data := ix.data.take (ix.data.length % 256 ^ 2) }.toBytes ++
      ix.data.drop (ix.data.length % 256 ^ 2) := by
  have field : Bytes.ofNatLE 2 (ix.data.length % 256 ^ 2) = Bytes.ofNatLE 2 ix.data.length := by
    have back := Bytes.ofNatLE_toNatLE (Bytes.ofNatLE 2 ix.data.length)
    rwa [Bytes.length_ofNatLE, Bytes.toNatLE_ofNatLE] at back
  have width : (ix.data.take (ix.data.length % 256 ^ 2)).length = ix.data.length % 256 ^ 2 := by
    rw [List.length_take, Nat.min_eq_left (Nat.mod_le ..)]
  simp only [CompactInstruction.toBytes, width, field, List.append_assoc, List.take_append_drop]

/-- Many accounts, all zero, are written as a few and an empty instruction's data length, and zeros behind. -/
theorem toBytes_manyAccounts {accounts data : ℕ} (many : 255 < accounts) :
    (zeroFilled (accounts, data)).toBytes = (zeroFilled (accounts % 256, 0)).toBytes ++
      (List.replicate (accounts - accounts % 256 - 2) 0 ++ (Bytes.ofNatLE 2 data ++ List.replicate data 0)) := by
  have count : UInt8.ofNat (accounts % 256) = UInt8.ofNat accounts := by
    rw [← UInt8.toNat_inj, UInt8.toNat_ofNat', UInt8.toNat_ofNat']
    omega
  have split : List.replicate accounts (0 : UInt8) =
      List.replicate (accounts % 256) 0 ++ ([0, 0] ++ List.replicate (accounts - accounts % 256 - 2) 0) := by
    rw [show ([0, 0] : Bytes) = List.replicate 2 0 from rfl, ← List.replicate_add, ← List.replicate_add]
    congr 1
    omega
  simp only [zeroFilled, CompactInstruction.toBytes, List.length_replicate, count]
  rw [split]
  simp only [List.append_assoc, List.replicate_zero]
  rfl

/-- A zero-filled instruction that does not fit is read as a shorter one, with many zeros behind it. -/
theorem toBytes_zeroFilled {size : ℕ × ℕ} (large : ¬(size.1 ≤ 255 ∧ size.2 ≤ 65535)) :
    ∃ (ix : CompactInstruction) (width : ℕ) (more : Bytes), ix.Packable ∧ 4 * maxCompactInstructions ≤ width ∧
      (zeroFilled size).toBytes = ix.toBytes ++ (List.replicate width 0 ++ more) := by
  obtain ⟨accounts, data⟩ := size
  simp only at large
  rw [maxCompactInstructions]
  by_cases few : accounts ≤ 255
  · refine ⟨zeroFilled (accounts, data % 256 ^ 2), data - data % 256 ^ 2, [],
      packable_zeroFilled few (by omega), by omega, ?_⟩
    rw [toBytes_longData, List.append_nil]
    simp only [zeroFilled, List.length_replicate, List.take_replicate, List.drop_replicate,
      Nat.min_eq_left (Nat.mod_le data (256 ^ 2))]
  · exact ⟨zeroFilled (accounts % 256, 0), _, _, packable_zeroFilled (by omega) (Nat.zero_le _), by omega,
      toBytes_manyAccounts (by omega)⟩

/-- Zero-filled instructions always parse, into as many as the parser looks for. -/
theorem parse_zeroFilled {sizes : List (ℕ × ℕ)} {count : ℕ} (enough : count ≤ sizes.length)
    (few : count ≤ maxCompactInstructions) :
    ∃ parsed, parseCompactInstructions count ((sizes.map zeroFilled).flatMap CompactInstruction.toBytes) =
      .ok parsed := by
  induction sizes generalizing count with
  | nil =>
    obtain rfl := Nat.le_zero.mp enough
    exact ⟨_, rfl⟩
  | cons size rest ih =>
    cases count with
    | zero => exact ⟨_, rfl⟩
    | succ count =>
      rw [List.map_cons, List.flatMap_cons, parseCompactInstructions]
      by_cases fits : size.1 ≤ 255 ∧ size.2 ≤ 65535
      · have packable := packable_zeroFilled fits.1 fits.2
        obtain ⟨tail, later⟩ := ih (Nat.le_of_succ_le_succ enough) (Nat.le_of_succ_le few)
        rw [CompactInstruction.fromBytes_toBytes _ packable, Except.ok_bind, later]
        exact ⟨_, rfl⟩
      · obtain ⟨ix, width, more, packable, wide, written⟩ := toBytes_zeroFilled fits
        obtain ⟨tail, later⟩ := parse_zeros count (show 4 * count ≤ width by omega)
          (more ++ (rest.map zeroFilled).flatMap CompactInstruction.toBytes)
        rw [written, List.append_assoc, List.append_assoc, CompactInstruction.fromBytes_toBytes _ packable,
          Except.ok_bind, later]
        exact ⟨_, rfl⟩

/-- The stream of a zero-filled list is read, unless its count is refused. -/
theorem parse_zeroFilledStream {sizes : List (ℕ × ℕ)} (few : sizes.length % 256 ≤ maxCompactInstructions) :
    ∃ parsed, parseCompactInstructionsRefWithLen (encodedStream (sizes.map zeroFilled)) = .ok parsed := by
  obtain ⟨parsed, success⟩ := parse_zeroFilled (Nat.mod_le sizes.length 256) few
  have count : (UInt8.ofNat (sizes.map zeroFilled).length).toNat = sizes.length % 256 := by
    rw [UInt8.toNat_ofNat', List.length_map]
  rw [encodedStream, parseCompactInstructionsRefWithLen, count, success, Except.ensure_of few]
  exact ⟨_, rfl⟩

theorem FitsFormat.sizes {ixs : List CompactInstruction} (fits : FitsFormat ixs) :
    ∀ size ∈ sizesOf ixs, size.1 ≤ 255 ∧ size.2 ≤ 65535 := by
  rw [sizesOf, List.forall_mem_map]
  exact fits.2

/-- Of a zero-filled list that is read back, the sizes fit. -/
theorem fits_of_zeroFilled {sizes : List (ℕ × ℕ)} {written : Except ProgramError Bytes}
    (few : sizes.length % 256 ≤ maxCompactInstructions) (stream : written = .ok (encodedStream (sizes.map zeroFilled)))
    (exact : ReadsBack (sizes.map zeroFilled) written) :
    sizes.length ≤ maxCompactInstructions ∧ ∀ size ∈ sizes, size.1 ≤ 255 ∧ size.2 ≤ 65535 := by
  obtain ⟨⟨parsed, len⟩, read⟩ := parse_zeroFilledStream few
  have fits := fitsFormat_of_parse read
  rw [exact _ stream parsed len read] at fits
  have each := fits.sizes
  rw [sizesOf_zeroFilled] at each
  have width : (sizes.map zeroFilled).length = sizes.length := List.length_map zeroFilled
  exact ⟨width ▸ fits.1, each⟩

namespace Kit

private theorem RawCompactInstruction.ofBytes_truncate {ix : RawCompactInstruction} (bytes : ix.IndexesAreBytes) :
    ofBytes ix.truncate = ix := by
  have back {number : Number} (isByte : number.IsByte) : Number.ofByte number.toUint8 = number := by
    obtain ⟨byte, rfl⟩ := isByte
    rw [Number.toUint8_ofByte]
  obtain ⟨program, accounts⟩ := bytes
  have same : ix.accountIndexes.map (Number.ofByte ∘ (·.toUint8)) = ix.accountIndexes :=
    (List.map_congr_left fun index member => back (accounts index member)).trans (List.map_id _)
  rw [ofBytes, truncate, List.map_map, back program, same]

private theorem RawCompactInstruction.map_ofBytes_truncate {ixs : List RawCompactInstruction}
    (bytes : ∀ ix ∈ ixs, ix.IndexesAreBytes) : (ixs.map (·.truncate)).map ofBytes = ixs := by
  rw [List.map_map]
  exact (List.map_congr_left fun ix member => ofBytes_truncate (bytes ix member)).trans (List.map_id _)

private theorem RawCompactInstruction.indexesAreBytes_ofBytes (ix : CompactInstruction) :
    (ofBytes ix).IndexesAreBytes := by
  refine ⟨⟨_, rfl⟩, ?_⟩
  rw [ofBytes, List.forall_mem_map]
  exact fun index _ => ⟨index, rfl⟩

/-- No byte. -/
def Number.outside : Number := .finite (256 : ℕ) (isDouble_natCast (by decide))

private theorem Number.toUint8_outside : Number.outside.toUint8 = 0 := by
  rw [outside, toUint8, Rat.num_natCast, Rat.den_natCast, Nat.cast_one, Int.tdiv_one, byteOf_natCast]
  rfl

private theorem Number.not_isByte_outside : ¬Number.outside.IsByte := by
  rintro ⟨byte, same⟩
  have value := Nat.cast_inj.mp (Number.finite.inj same)
  exact absurd byte.toNat_lt (value ▸ by decide)

/-- The zero-filled instruction of a shape; 256 is cut to zero as well. -/
def zeroFilled (shape : Shape) : RawCompactInstruction where
  programIdIndex := if shape.bytes then .ofByte 0 else .outside
  accountIndexes := List.replicate shape.accounts (.ofByte 0)
  data := List.replicate shape.data 0

private theorem truncate_zeroFilled (shape : Shape) :
    (zeroFilled shape).truncate = LazorKit.zeroFilled (shape.accounts, shape.data) := by
  rw [RawCompactInstruction.truncate, zeroFilled, LazorKit.zeroFilled, List.map_replicate, Number.toUint8_ofByte]
  cases shape.bytes with
  | true => rw [if_pos rfl, Number.toUint8_ofByte]
  | false => rw [if_neg Bool.false_ne_true, Number.toUint8_outside]

private theorem indexesAreBytes_zeroFilled (shape : Shape) :
    (zeroFilled shape).IndexesAreBytes ↔ shape.bytes = true := by
  have zero : ∀ index ∈ (zeroFilled shape).accountIndexes, index.IsByte :=
    fun _ member => ⟨0, (List.eq_of_mem_replicate member).symm⟩
  rw [RawCompactInstruction.IndexesAreBytes, and_iff_left zero, zeroFilled]
  cases shape.bytes with
  | true => exact iff_of_true ⟨0, rfl⟩ rfl
  | false => exact iff_of_false Number.not_isByte_outside Bool.false_ne_true

private theorem shapesOf_zeroFilled (shapes : List Shape) : shapesOf (shapes.map zeroFilled) = shapes := by
  rw [shapesOf, List.map_map]
  refine (List.map_congr_left fun shape _ => ?_).trans (List.map_id shapes)
  simp only [Function.comp_apply, indexesAreBytes_zeroFilled]
  simp [zeroFilled]

/-- What was read and is the list that was packed has the shapes of a list that fits. -/
theorem shapes_of_parse {bytes : Bytes} {parsed : List CompactInstruction} {len : ℕ}
    (read : parseCompactInstructionsRefWithLen bytes = .ok (parsed, len)) {shape : Shape}
    (listed : shape ∈ shapesOf parsed) : shape.accounts ≤ 255 ∧ shape.data ≤ 65535 ∧ shape.bytes = true := by
  rw [shapesOf, List.map_map] at listed
  obtain ⟨ix, member, rfl⟩ := List.mem_map.mp listed
  obtain ⟨few, short⟩ := (fitsFormat_of_parse read).2 ix member
  refine ⟨?_, short, decide_eq_true (RawCompactInstruction.indexesAreBytes_ofBytes ix)⟩
  rwa [Function.comp_apply, RawCompactInstruction.ofBytes, List.length_map]

section Packer

variable {pack : List RawCompactInstruction → Bytes} (stream : ∀ ixs, pack ixs = encodedStream (ixs.map (·.truncate)))

include stream

/-- A packer reads back every list of some shapes exactly if the shapes fit or the count is refused as it is written. -/
theorem readsBack_packer_iff (shapes : List Shape) :
    (∀ ixs, shapesOf ixs = shapes → ReadsBack ixs (pack ixs)) ↔ PackerShapes shapes := by
  constructor
  · intro exact
    by_contra unfit
    rw [PackerShapes, not_or, not_lt] at unfit
    obtain ⟨few, unfit⟩ := unfit
    have zeros : (shapes.map zeroFilled).map (·.truncate) =
        (shapes.map fun shape => (shape.accounts, shape.data)).map LazorKit.zeroFilled := by
      rw [List.map_map, List.map_map]
      exact List.map_congr_left fun shape _ => truncate_zeroFilled shape
    obtain ⟨⟨parsed, len⟩, read⟩ := @parse_zeroFilledStream (shapes.map fun shape => (shape.accounts, shape.data))
      (by rwa [List.length_map])
    rw [← zeros, ← stream] at read
    have same := congrArg shapesOf (exact _ (shapesOf_zeroFilled shapes) parsed len read)
    rw [shapesOf_zeroFilled] at same
    have count := (fitsFormat_of_parse read).1
    have width := congrArg List.length same
    rw [shapesOf, List.length_map, List.length_map] at width
    rw [maxCompactInstructions, width] at count
    exact unfit ⟨by omega, fun shape listed => shapes_of_parse read (same ▸ listed)⟩
  · rintro fit ixs rfl parsed len read
    have head := read
    rw [stream] at head read
    simp only [encodedStream, parseCompactInstructionsRefWithLen, Except.bind_eq_ok, Except.ensure_eq_ok, exists_const]
      at head
    have few := head.1
    rw [UInt8.toNat_ofNat', maxCompactInstructions, List.length_map] at few
    rw [PackerShapes, shapesOf, List.length_map] at fit
    obtain ⟨small, each⟩ := fit.resolve_left (by omega)
    rw [List.forall_mem_map] at each
    have fits : FitsFormat (ixs.map (·.truncate)) := by
      constructor
      · rw [maxCompactInstructions, List.length_map]
        omega
      · rw [List.forall_mem_map]
        intro ix member
        rw [RawCompactInstruction.truncate, List.length_map]
        exact ⟨(each ix member).1, (each ix member).2.1⟩
    rw [parse_encodedStream fits read]
    exact RawCompactInstruction.map_ofBytes_truncate fun ix member => of_decide_eq_true (each ix member).2.2

/-- A packer is exact on a list of bytes that fits, or when the parser refuses what was written. -/
theorem readsBack_packed_iff (ixs : List RawCompactInstruction) :
    ReadsBack ixs (pack ixs) ↔
      (FitsFormat (ixs.map (·.truncate)) ∧ ∀ ix ∈ ixs, ix.IndexesAreBytes) ∨
        ∀ parsed, parseCompactInstructionsRefWithLen (pack ixs) ≠ .ok parsed := by
  constructor
  · intro exact
    by_contra unfit
    rw [not_or] at unfit
    obtain ⟨unfit, accepted⟩ := unfit
    push Not at accepted
    obtain ⟨⟨parsed, len⟩, read⟩ := accepted
    have same := exact parsed len read
    subst same
    refine unfit ⟨?_, ?_⟩
    · rw [RawCompactInstruction.map_truncate]
      exact fitsFormat_of_parse read
    · rw [List.forall_mem_map]
      exact fun ix _ => RawCompactInstruction.indexesAreBytes_ofBytes ix
  · rintro (⟨fits, bytes⟩ | refused) parsed len read
    · rw [stream] at read
      rw [parse_encodedStream fits read, RawCompactInstruction.map_ofBytes_truncate bytes]
    · exact absurd read (refused _)

end Packer

end Kit

private theorem serializeCompactInstructions_eq_ok {ixs : List CompactInstruction} {bytes : Bytes} :
    serializeCompactInstructions ixs = .ok bytes ↔
      ixs.length ≤ 255 ∧ (∀ ix ∈ ixs, ix.accounts.length ≤ 255) ∧ bytes = encodedStream ixs := by
  simp only [serializeCompactInstructions, Except.bind_eq_ok, Except.ensure_eq_ok, exists_const, Except.ok.injEq]
  apply and_congr_right
  intro _
  constructor
  · rintro ⟨_, asserted, rfl⟩
    exact ⟨fun ix member => Except.ensure_eq_ok.mp (Except.forM_eq_ok.mp asserted ix member), rfl⟩
  · rintro ⟨narrow, rfl⟩
    exact ⟨(), Except.forM_eq_ok.mpr fun ix member => Except.ensure_of (narrow ix member), rfl⟩

/-- The program's writer. -/
theorem readsBack_writer_iff (sizes : List (ℕ × ℕ)) :
    (∀ ixs, sizesOf ixs = sizes → ReadsBack ixs (serializeCompactInstructions ixs)) ↔ WriterSizes sizes := by
  constructor
  · intro exact
    by_contra unfit
    rw [WriterSizes, not_or, not_or, not_lt] at unfit
    obtain ⟨few, narrow, unfit⟩ := unfit
    have asserted : serializeCompactInstructions (sizes.map zeroFilled) =
        .ok (encodedStream (sizes.map zeroFilled)) := by
      refine serializeCompactInstructions_eq_ok.mpr ⟨?_, ?_, rfl⟩
      · rw [List.length_map]
        omega
      · rw [List.forall_mem_map]
        intro size member
        rw [zeroFilled, List.length_replicate]
        exact Nat.le_of_not_lt fun wide => narrow ⟨size, member, wide⟩
    obtain ⟨_, each⟩ := fits_of_zeroFilled ((Nat.mod_le _ _).trans few) asserted (exact _ (sizesOf_zeroFilled sizes))
    exact unfit fun size member => (each size member).2
  · rintro fit ixs rfl bytes written parsed len read
    obtain ⟨_, narrow, rfl⟩ := serializeCompactInstructions_eq_ok.mp written
    have head := read
    simp only [encodedStream, parseCompactInstructionsRefWithLen, Except.bind_eq_ok, Except.ensure_eq_ok, exists_const]
      at head
    have few := head.1
    rw [UInt8.toNat_ofNat', maxCompactInstructions, Nat.mod_eq_of_lt (by omega)] at few
    rw [WriterSizes, sizesOf, List.length_map, List.forall_mem_map] at fit
    rcases fit with many | ⟨size, member, wide⟩ | each
    · omega
    · obtain ⟨ix, listed, rfl⟩ := List.mem_map.mp member
      have bound := narrow ix listed
      simp only at wide
      omega
    · exact parse_encodedStream ⟨few, fun ix member => ⟨narrow ix member, each ix member⟩⟩ read

/-- The program's writer of a single instruction. -/
theorem readsBackAlone_iff (ix : CompactInstruction) :
    ix.ReadsBackAlone ix.toBytesAsserted ↔
      255 < ix.accounts.length ∨ maxAccountIndex < ix.programIdIndex ∨ ix.data.length ≤ 65535 := by
  simp only [CompactInstruction.ReadsBackAlone, CompactInstruction.toBytesAsserted, Except.bind_eq_ok,
    Except.ensure_eq_ok, exists_const, Except.ok.injEq]
  constructor
  · intro exact
    by_contra unfit
    rw [not_or, not_or, not_lt, UInt8.not_lt, not_le] at unfit
    obtain ⟨few, inRange, long⟩ := unfit
    have cut : ix.data.length % 256 ^ 2 < 65536 := Nat.mod_lt _ (by decide)
    have packable : { ix with data := ix.data.take (ix.data.length % 256 ^ 2) }.Packable := by
      refine ⟨inRange, few, ?_⟩
      rw [List.length_take]
      omega
    have read := CompactInstruction.fromBytes_toBytes _ packable (ix.data.drop (ix.data.length % 256 ^ 2))
    rw [← toBytes_longData] at read
    have same := congrArg (fun read : CompactInstruction => read.data.length) (exact _ ⟨few, rfl⟩ _ _ read)
    simp only [List.length_take] at same
    omega
  · rintro fit bytes ⟨few, rfl⟩ parsed rest read
    have program : (ix.toBytes).byte 0 = ix.programIdIndex := by simp [CompactInstruction.toBytes, Bytes.byte]
    obtain ⟨first, inRange, _⟩ := CompactInstruction.fromBytes_eq_ok read
    rw [first, program] at inRange
    have short : ix.data.length ≤ 65535 := by
      rcases fit with wide | high | short
      · omega
      · exact absurd inRange (UInt8.not_le.mpr high)
      · exact short
    rw [← List.append_nil ix.toBytes] at read
    obtain ⟨_, same⟩ := CompactInstruction.fromBytes_toBytes_inv few short read
    exact congrArg Prod.fst same

private theorem Kit.packCompactInstructions_stream (ixs : List RawCompactInstruction) :
    Kit.packCompactInstructions ixs = encodedStream (ixs.map (·.truncate)) := by
  rw [Kit.packCompactInstructions_eq, encodedStream, List.length_map]

private theorem Legacy.packCompactInstructions_stream (ixs : List Kit.RawCompactInstruction) :
    packCompactInstructions ixs = encodedStream (ixs.map (·.truncate)) :=
  Kit.packCompactInstructions_stream ixs

/-- Whether every list of given sizes or shapes is read back, encoder by encoder; whether a single instruction is;
and, list by list, that an encoder is exact when the list fits or the parser refuses what was written. -/
structure EncodersReadBack (sizes : List (ℕ × ℕ)) (shapes : List Kit.Shape) (ix : CompactInstruction)
    (batch : List CompactInstruction) (raw : List Kit.RawCompactInstruction) : Prop where
  writer : (∀ ixs, sizesOf ixs = sizes → ReadsBack ixs (serializeCompactInstructions ixs)) ↔ WriterSizes sizes
  single : ix.ReadsBackAlone ix.toBytesAsserted ↔
    255 < ix.accounts.length ∨ maxAccountIndex < ix.programIdIndex ∨ ix.data.length ≤ 65535
  kit : (∀ ixs, Kit.shapesOf ixs = shapes → Kit.ReadsBack ixs (Kit.packCompactInstructions ixs)) ↔
    Kit.PackerShapes shapes
  legacy : (∀ ixs, Kit.shapesOf ixs = shapes → Kit.ReadsBack ixs (Legacy.packCompactInstructions ixs)) ↔
    Kit.PackerShapes shapes
  written : ReadsBack batch (serializeCompactInstructions batch) ↔ FitsFormat batch ∨
    ∀ bytes, serializeCompactInstructions batch = .ok bytes →
      ∀ parsed, parseCompactInstructionsRefWithLen bytes ≠ .ok parsed
  packed : ∀ pack ∈ [Kit.packCompactInstructions, Legacy.packCompactInstructions], Kit.ReadsBack raw (pack raw) ↔
    (FitsFormat (raw.map (·.truncate)) ∧ ∀ ix ∈ raw, ix.IndexesAreBytes) ∨
      ∀ parsed, parseCompactInstructionsRefWithLen (pack raw) ≠ .ok parsed

theorem encoders_read_back (sizes : List (ℕ × ℕ)) (shapes : List Kit.Shape) (ix : CompactInstruction)
    (batch : List CompactInstruction) (raw : List Kit.RawCompactInstruction) :
    EncodersReadBack sizes shapes ix batch raw where
  writer := readsBack_writer_iff sizes
  single := readsBackAlone_iff ix
  kit := Kit.readsBack_packer_iff Kit.packCompactInstructions_stream shapes
  legacy := Kit.readsBack_packer_iff Legacy.packCompactInstructions_stream shapes
  written := readsBack_iff fun bytes success => (serializeCompactInstructions_eq_ok.mp success).2.2
  packed := by
    rw [List.forall_mem_cons, List.forall_mem_singleton]
    exact ⟨Kit.readsBack_packed_iff Kit.packCompactInstructions_stream raw,
      Kit.readsBack_packed_iff Legacy.packCompactInstructions_stream raw⟩

/-- A single instruction with 256 accounts, or with the program index 256, or with 65536 bytes of data, is read as an
empty one of program 0. -/
theorem encoders_cut_sizes :
    (∀ pack ∈ [Kit.packCompactInstructions, Legacy.packCompactInstructions],
      ¬Kit.ReadsBack [Kit.zeroFilled ⟨256, 0, true⟩] (pack [Kit.zeroFilled ⟨256, 0, true⟩]) ∧
      ¬Kit.ReadsBack [Kit.zeroFilled ⟨0, 0, false⟩] (pack [Kit.zeroFilled ⟨0, 0, false⟩])) ∧
    ¬ReadsBack [zeroFilled (0, 65536)] (serializeCompactInstructions [zeroFilled (0, 65536)]) ∧
    ¬(zeroFilled (0, 65536)).ReadsBackAlone (zeroFilled (0, 65536)).toBytesAsserted := by
  refine ⟨?_, fun exact => ?_, fun exact => ?_⟩
  · have cut {pack : List Kit.RawCompactInstruction → Bytes}
        (stream : ∀ ixs, pack ixs = encodedStream (ixs.map (·.truncate))) {shape : Kit.Shape}
        (large : ¬(shape.accounts ≤ 255 ∧ shape.data ≤ 65535 ∧ shape.bytes = true)) :
        ¬Kit.ReadsBack [Kit.zeroFilled shape] (pack [Kit.zeroFilled shape]) := by
      intro exact
      obtain ⟨⟨parsed, len⟩, read⟩ := @parse_zeroFilledStream [(shape.accounts, shape.data)] Nat.one_le_ofNat
      have packed : pack [Kit.zeroFilled shape] = encodedStream [zeroFilled (shape.accounts, shape.data)] := by
        rw [stream, List.map_singleton, Kit.truncate_zeroFilled]
      have same := exact parsed len (packed ▸ read)
      refine large (Kit.shapes_of_parse read ?_)
      rw [same, ← List.map_singleton, Kit.shapesOf_zeroFilled]
      exact List.mem_singleton_self shape
    rw [List.forall_mem_cons, List.forall_mem_singleton]
    exact ⟨⟨cut Kit.packCompactInstructions_stream (by decide), cut Kit.packCompactInstructions_stream (by decide)⟩,
      cut Legacy.packCompactInstructions_stream (by decide), cut Legacy.packCompactInstructions_stream (by decide)⟩
  · have asserted : serializeCompactInstructions [zeroFilled (0, 65536)] =
        .ok (encodedStream [zeroFilled (0, 65536)]) := by
      refine serializeCompactInstructions_eq_ok.mpr ⟨by decide, ?_, rfl⟩
      rw [List.forall_mem_singleton]
      exact Nat.zero_le _
    have fits := @fits_of_zeroFilled [(0, 65536)] _ (by decide) asserted exact
    exact absurd (fits.2 (0, 65536) (List.mem_singleton_self _)).2 (by decide)
  · rcases (readsBackAlone_iff _).mp exact with many | high | short
    · exact absurd many (Nat.not_lt_zero _)
    · exact absurd high (by decide)
    · rw [zeroFilled, List.length_replicate] at short
      omega

end LazorKit
