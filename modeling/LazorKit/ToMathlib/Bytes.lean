import Mathlib.Data.List.Basic
import Mathlib.Data.Set.Finite.List
import Mathlib.Tactic.Ring
import Mathlib.Tactic.Common

/-! # Byte strings, windows and little-endian naturals

Account data and instruction data are plain lists of bytes. A window is read with `slice` and
overwritten in place with `splice`; both are characterised byte by byte, so that two windows
can be compared without unfolding either. Naturals are stored least significant byte first.
-/

/-- A byte string. -/
abbrev Bytes := List UInt8

namespace Bytes

/-- The `count` bytes from `offset` on, or as many of them as there are. -/
def slice (bytes : Bytes) (offset count : ℕ) : Bytes := (bytes.drop offset).take count

/-- Overwrite the bytes from `offset` on with `patch`. -/
def splice (bytes : Bytes) (offset : ℕ) (patch : Bytes) : Bytes :=
  bytes.take offset ++ patch ++ bytes.drop (offset + patch.length)

/-- One byte, reading zero past the end. -/
def byte (bytes : Bytes) (offset : ℕ) : UInt8 := bytes.getD offset 0

/-- Every byte is zero. -/
def isZero (bytes : Bytes) : Bool := bytes.all (· == 0)

/-- The natural with these little-endian bytes. -/
def toNatLE : Bytes → ℕ
  | [] => 0
  | b :: rest => b.toNat + 256 * toNatLE rest

/-- The `width` little-endian bytes of a natural, dropping what does not fit. -/
def ofNatLE : ℕ → ℕ → Bytes
  | 0, _ => []
  | width + 1, n => UInt8.ofNat (n % 256) :: ofNatLE width (n / 256)

@[simp] theorem length_slice (bytes : Bytes) (offset count : ℕ) :
    (bytes.slice offset count).length = min count (bytes.length - offset) := by
  simp [slice]

theorem length_slice_of_le {bytes : Bytes} {offset count : ℕ} (fits : offset + count ≤ bytes.length) :
    (bytes.slice offset count).length = count := by
  rw [length_slice]; omega

theorem getElem?_slice (bytes : Bytes) (offset count i : ℕ) :
    (bytes.slice offset count)[i]? = if i < count then bytes[offset + i]? else none := by
  simp [slice, List.getElem?_take, List.getElem?_drop]

theorem slice_drop (bytes : Bytes) (start offset count : ℕ) :
    slice (bytes.drop start) offset count = bytes.slice (start + offset) count := by
  rw [slice, slice, List.drop_drop]

/-- A window of a window. -/
theorem slice_slice {bytes : Bytes} {offset count start width : ℕ} (inside : start + width ≤ count) :
    (bytes.slice offset count).slice start width = bytes.slice (offset + start) width := by
  apply List.ext_getElem?
  intro i
  rw [getElem?_slice, getElem?_slice, getElem?_slice]
  split
  · rw [if_pos (by omega), Nat.add_assoc]
  · rfl

/-- Two windows agree when the underlying bytes do. -/
theorem slice_congr {first second : Bytes} {offset count : ℕ}
    (same : ∀ i, offset ≤ i → i < offset + count → first[i]? = second[i]?) :
    first.slice offset count = second.slice offset count := by
  apply List.ext_getElem?
  intro i
  rw [getElem?_slice, getElem?_slice]
  split
  · exact same _ (by omega) (by omega)
  · rfl

theorem slice_append_slice (bytes : Bytes) (offset first second : ℕ) :
    bytes.slice offset first ++ bytes.slice (offset + first) second =
      bytes.slice offset (first + second) := by
  rw [slice, slice, slice, List.take_add, List.drop_drop]

theorem take_append_slice (bytes : Bytes) (first second : ℕ) :
    bytes.take first ++ bytes.slice first second = bytes.take (first + second) := by
  rw [slice, List.take_add]

theorem slice_one {bytes : Bytes} {offset : ℕ} (fits : offset < bytes.length) :
    bytes.slice offset 1 = [bytes.byte offset] := by
  rw [slice, List.drop_eq_getElem_cons fits, List.take_succ_cons, List.take_zero, byte,
    List.getD_eq_getElem?_getD, List.getElem?_eq_getElem fits, Option.getD_some]

theorem slice_append_left {first second : Bytes} {offset count : ℕ}
    (fits : offset + count ≤ first.length) :
    Bytes.slice (first ++ second) offset count = first.slice offset count := by
  apply slice_congr
  intro i _ high
  exact List.getElem?_append_left (by omega)

theorem slice_append_right {first second : Bytes} {offset count : ℕ}
    (past : first.length ≤ offset) :
    Bytes.slice (first ++ second) offset count = second.slice (offset - first.length) count := by
  simp [slice, List.drop_append, List.drop_eq_nil_of_le past]

/-- What stands between a front and a back is read by its own offset and length. -/
theorem slice_middle {front middle back : Bytes} {offset count : ℕ} (start : front.length = offset)
    (width : middle.length = count) : Bytes.slice (front ++ (middle ++ back)) offset count = middle := by
  subst start width
  rw [slice_append_right (Nat.le_refl _), Nat.sub_self, slice_append_left (by omega)]
  simp [slice]

theorem slice_front {front back : Bytes} {count : ℕ} (width : front.length = count) :
    Bytes.slice (front ++ back) 0 count = front := by
  subst width
  simp [slice]

theorem byte_append_left {front back : Bytes} {offset : ℕ} (inside : offset < front.length) :
    Bytes.byte (front ++ back) offset = front.byte offset := by
  rw [byte, byte, List.getD_eq_getElem?_getD, List.getD_eq_getElem?_getD, List.getElem?_append_left inside]

/-- The byte behind a front. -/
theorem byte_append {front back : Bytes} {b : UInt8} {offset : ℕ} (start : front.length = offset) :
    Bytes.byte (front ++ b :: back) offset = b := by
  subst start
  simp [byte]

@[simp] theorem slice_zero_length (bytes : Bytes) : bytes.slice 0 bytes.length = bytes := by
  simp [slice]

theorem length_splice {bytes patch : Bytes} {offset : ℕ}
    (fits : offset + patch.length ≤ bytes.length) :
    (bytes.splice offset patch).length = bytes.length := by
  simp [splice]; omega

/-- A byte of the spliced string comes from the patch inside its window and from the original
outside it. -/
theorem getElem?_splice {bytes patch : Bytes} {offset : ℕ}
    (fits : offset + patch.length ≤ bytes.length) (i : ℕ) :
    (bytes.splice offset patch)[i]? =
      if offset ≤ i ∧ i < offset + patch.length then patch[i - offset]? else bytes[i]? := by
  have head : (bytes.take offset).length = offset := by simp; omega
  have body : (bytes.take offset ++ patch).length = offset + patch.length := by simp; omega
  unfold splice
  split
  · next inside =>
    rw [List.getElem?_append_left (by omega), List.getElem?_append_right (by omega), head]
  · next outside =>
    by_cases before : i < offset
    · rw [List.getElem?_append_left (by omega), List.getElem?_append_left (by omega),
        List.getElem?_take_of_lt before]
    · rw [List.getElem?_append_right (by omega), body, List.getElem?_drop]
      congr 1
      omega

theorem getElem?_splice_of_outside {bytes patch : Bytes} {offset i : ℕ}
    (fits : offset + patch.length ≤ bytes.length)
    (outside : i < offset ∨ offset + patch.length ≤ i) :
    (bytes.splice offset patch)[i]? = bytes[i]? := by
  rw [getElem?_splice fits, if_neg (by omega)]

/-- The written window reads back as the patch. -/
theorem slice_splice_self {bytes patch : Bytes} {offset count : ℕ}
    (fits : offset + patch.length ≤ bytes.length) (width : count = patch.length) :
    (bytes.splice offset patch).slice offset count = patch := by
  subst width
  apply List.ext_getElem?
  intro i
  rw [getElem?_slice, getElem?_splice fits]
  by_cases inside : i < patch.length
  · rw [if_pos inside, if_pos (by omega)]
    congr 1
    omega
  · rw [if_neg inside, List.getElem?_eq_none (by omega)]

/-- A window disjoint from the written one is untouched. -/
theorem slice_splice_of_disjoint {bytes patch : Bytes} {offset start count : ℕ}
    (fits : offset + patch.length ≤ bytes.length)
    (disjoint : start + count ≤ offset ∨ offset + patch.length ≤ start) :
    (bytes.splice offset patch).slice start count = bytes.slice start count :=
  slice_congr fun _ _ _ => getElem?_splice_of_outside fits (by omega)

/-- Overwriting inside a window is overwriting the window. -/
theorem slice_splice_inside {bytes patch : Bytes} {offset count start : ℕ} (fits : offset + count ≤ bytes.length)
    (inside : start + patch.length ≤ count) :
    (bytes.splice (offset + start) patch).slice offset count = (bytes.slice offset count).splice start patch := by
  apply List.ext_getElem?
  intro i
  rw [getElem?_slice, getElem?_splice (by omega), getElem?_splice (by rwa [length_slice_of_le fits]), getElem?_slice]
  split
  · have shift : offset + start ≤ offset + i ∧ offset + i < offset + start + patch.length ↔
        start ≤ i ∧ i < start + patch.length := by omega
    have index : offset + i - (offset + start) = i - start := by omega
    simp only [shift, index]
  · rw [if_neg (by omega)]

theorem byte_splice_of_outside {bytes patch : Bytes} {offset i : ℕ}
    (fits : offset + patch.length ≤ bytes.length)
    (outside : i < offset ∨ offset + patch.length ≤ i) :
    (bytes.splice offset patch).byte i = bytes.byte i := by
  simp only [byte, List.getD_eq_getElem?_getD, getElem?_splice_of_outside fits outside]

theorem splice_nil (bytes : Bytes) (offset : ℕ) : bytes.splice offset [] = bytes := by
  simp [splice]

/-- Filling the blank behind a front. -/
theorem splice_blank {front patch : Bytes} {offset blank : ℕ} (start : front.length = offset) :
    Bytes.splice (front ++ List.replicate blank 0) offset patch =
      front ++ patch ++ List.replicate (blank - patch.length) 0 := by
  subst start
  simp [splice, List.drop_append]

theorem isZero_replicate (count : ℕ) : isZero (List.replicate count 0) = true := by
  simp [isZero]

theorem isZero_eq_replicate {bytes : Bytes} (zero : bytes.isZero = true) :
    bytes = List.replicate bytes.length 0 := by
  apply List.eq_replicate_iff.mpr
  exact ⟨rfl, fun b member => by simpa using List.all_eq_true.mp zero b member⟩

theorem byte_zero_of_isZero {bytes : Bytes} (zero : bytes.isZero = true) : bytes.byte 0 = 0 := by
  rw [isZero_eq_replicate zero]
  cases bytes with
  | nil => rfl
  | cons b rest => rfl

theorem toNatLE_lt (bytes : Bytes) : bytes.toNatLE < 256 ^ bytes.length := by
  induction bytes with
  | nil => simp [toNatLE]
  | cons b rest ih =>
    have bound : b.toNat < 256 := b.toNat_lt
    rw [toNatLE, List.length_cons, pow_succ]
    omega

/-- A field of `count` bytes holds less than `256 ^ count`. -/
theorem toNatLE_slice_lt {bytes : Bytes} {offset count : ℕ} : (bytes.slice offset count).toNatLE < 256 ^ count :=
  (toNatLE_lt _).trans_le (Nat.pow_le_pow_right (by decide) (by rw [length_slice]; omega))

@[simp] theorem length_ofNatLE (width n : ℕ) : (ofNatLE width n).length = width := by
  induction width generalizing n with
  | zero => rfl
  | succ width ih => simp [ofNatLE, ih]

theorem toNatLE_ofNatLE (width n : ℕ) : (ofNatLE width n).toNatLE = n % 256 ^ width := by
  induction width generalizing n with
  | zero => simp [ofNatLE, toNatLE, Nat.mod_one]
  | succ width ih =>
    have head : (UInt8.ofNat (n % 256)).toNat = n % 256 := by
      rw [UInt8.toNat_ofNat', Nat.mod_eq_of_lt (by omega)]
    rw [ofNatLE, toNatLE, head, ih, pow_succ', Nat.mod_mul]

theorem toNatLE_ofNatLE_of_lt {width n : ℕ} (bound : n < 256 ^ width) :
    (ofNatLE width n).toNatLE = n := by
  rw [toNatLE_ofNatLE, Nat.mod_eq_of_lt bound]

theorem ofNatLE_toNatLE (bytes : Bytes) : ofNatLE bytes.length bytes.toNatLE = bytes := by
  induction bytes with
  | nil => rfl
  | cons b rest ih =>
    have bound : b.toNat < 256 := b.toNat_lt
    have low : (b.toNat + 256 * toNatLE rest) % 256 = b.toNat := by omega
    have high : (b.toNat + 256 * toNatLE rest) / 256 = toNatLE rest := by omega
    rw [List.length_cons, toNatLE, ofNatLE, low, high, ih, UInt8.ofNat_toNat]

/-- A window is written back from the number it stores. -/
theorem ofNatLE_toNatLE_slice {bytes : Bytes} {offset count : ℕ} (fits : offset + count ≤ bytes.length) :
    ofNatLE count (bytes.slice offset count).toNatLE = bytes.slice offset count := by
  have whole := ofNatLE_toNatLE (bytes.slice offset count)
  rwa [length_slice_of_le fits] at whole

/-- Equal leading parts have equal lengths. -/
theorem take_inj {first second : Bytes} {n k : ℕ} (fits : n ≤ first.length) (fits' : k ≤ second.length)
    (same : first.take n = second.take k) : n = k := by
  have lengths := congrArg List.length same
  rw [List.length_take, List.length_take] at lengths
  omega

/-- A concatenation of parts of one width determines its parts. -/
theorem flatten_injective {width : ℕ} {entries entries' : List Bytes} (count : entries.length = entries'.length)
    (widths : ∀ entry ∈ entries, entry.length = width) (widths' : ∀ entry ∈ entries', entry.length = width)
    (same : entries.flatten = entries'.flatten) : entries = entries' := by
  induction entries generalizing entries' with
  | nil => exact (List.length_eq_zero_iff.mp count.symm).symm
  | cons entry rest ih =>
    cases entries' with
    | nil => cases count
    | cons entry' rest' =>
      rw [List.forall_mem_cons] at widths widths'
      obtain ⟨head, tail⟩ := List.append_inj same (widths.1.trans widths'.1.symm)
      rw [head, ih (Nat.succ.inj count) widths.2 widths'.2 tail]

/-- The first `count` bytes are the same, wherever either string ends. -/
def AgreeUpTo (count : ℕ) (first second : Bytes) : Prop := ∀ i, i < count → first[i]? = second[i]?

namespace AgreeUpTo

variable {count : ℕ} {first second : Bytes}

theorem of_take (same : first.take count = second.take count) : AgreeUpTo count first second := by
  intro i lt
  rw [← List.getElem?_take_of_lt lt, same, List.getElem?_take_of_lt lt]

theorem drop (agree : AgreeUpTo count first second) (skip : ℕ) :
    AgreeUpTo (count - skip) (first.drop skip) (second.drop skip) := by
  intro i lt
  rw [List.getElem?_drop, List.getElem?_drop]
  exact agree _ (by omega)

theorem slice (agree : AgreeUpTo count first second) (offset width : ℕ) (fits : offset + width ≤ count) :
    Bytes.slice first offset width = Bytes.slice second offset width :=
  slice_congr fun i _ high => agree i (by omega)

theorem byte (agree : AgreeUpTo count first second) {i : ℕ} (lt : i < count) :
    Bytes.byte first i = Bytes.byte second i := by
  rw [Bytes.byte, Bytes.byte, List.getD_eq_getElem?_getD, List.getD_eq_getElem?_getD, agree i lt]

end AgreeUpTo

end Bytes

/-- Exactly `n` bytes. -/
structure BytesN (n : ℕ) where
  bytes : Bytes
  length_bytes : bytes.length = n
deriving DecidableEq

/-- An address or a digest. -/
abbrev Bytes32 := BytesN 32

namespace BytesN

variable {n : ℕ}

theorem ext_bytes {first second : BytesN n} (same : first.bytes = second.bytes) : first = second := by
  cases first; cases second; simpa using same

theorem bytes_injective : Function.Injective (BytesN.bytes (n := n)) := fun _ _ => ext_bytes

/-- The same byte throughout. -/
def fill (b : UInt8) : BytesN n := ⟨List.replicate n b, by simp⟩

instance : Inhabited (BytesN n) := ⟨fill 0⟩

/-- A window of exactly the right length. -/
def ofBytes (bytes : Bytes) : BytesN n := if h : bytes.length = n then ⟨bytes, h⟩ else default

theorem bytes_ofBytes {bytes : Bytes} (width : bytes.length = n) :
    (ofBytes bytes : BytesN n).bytes = bytes := by
  simp [ofBytes, width]

@[simp] theorem ofBytes_bytes (key : BytesN n) : ofBytes key.bytes = key := by
  simp [ofBytes, key.length_bytes]

instance : Finite (BytesN n) := by
  have bytes : Finite UInt8 :=
    Finite.of_injective (fun b : UInt8 => (⟨b.toNat, b.toNat_lt⟩ : Fin 256))
      (fun a b same => UInt8.toNat_inj.mp (Fin.mk.inj_iff.mp same))
  have lists : Finite {l : List UInt8 | l.length = n} := List.finite_length_eq UInt8 n
  exact Finite.of_injective
    (fun key : BytesN n => (⟨key.bytes, key.length_bytes⟩ : {l : List UInt8 | l.length = n}))
    (fun a b same => ext_bytes (by simpa using same))

end BytesN
