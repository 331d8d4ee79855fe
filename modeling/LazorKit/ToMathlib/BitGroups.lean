import LazorKit.ToMathlib.Bytes
import Mathlib.Data.List.Range
import Mathlib.Algebra.Order.Ring.Nat

/-! # Bytes as text, in groups of bits

A number is written with a fixed width, most significant bit first. A bit string is cut into groups of
another width from the left, and zeros stand behind its end. Writing each group of a byte string as one letter
gives the family of encodings that base 16, 32 and 64 belong to, without padding. Where the letters can be
told apart, the bytes can be read back, whatever the width of a group up to eight.
-/

namespace BitGroups

/-- The low `width` bits of a number, most significant first. -/
def bitsOf : ℕ → ℕ → List Bool
  | 0, _ => []
  | width + 1, n => n.testBit width :: bitsOf width n

/-- The number with these bits. -/
def ofBits : List Bool → ℕ
  | [] => 0
  | bit :: rest => bit.toNat * 2 ^ rest.length + ofBits rest

/-- The `i`th group, with zeros behind the end of the string. -/
def group (width : ℕ) (bits : List Bool) (i : ℕ) : List Bool :=
  (List.range width).map fun j => bits.getD (width * i + j) false

/-- The first `count` groups. -/
def groups (width count : ℕ) (bits : List Bool) : List (List Bool) := (List.range count).map (group width bits)

/-- The bits of a byte string. -/
def byteBits (bytes : Bytes) : List Bool := bytes.flatMap fun b => bitsOf 8 b.toNat

/-- How many groups hold so many bytes. -/
def groupCount (width bytes : ℕ) : ℕ := (8 * bytes + (width - 1)) / width

variable {α : Type*}

/-- One letter for each group. -/
def encode (width : ℕ) (letter : ℕ → α) (bytes : Bytes) : List α :=
  (groups width (groupCount width bytes.length) (byteBits bytes)).map fun bits => letter (ofBits bits)

/-- The whole bytes in the groups the letters stand for. -/
def decode (width : ℕ) (value : α → Option ℕ) (text : List α) : Option Bytes := do
  let values ← text.mapM value
  let bits := values.flatMap (bitsOf width)
  some ((groups 8 (bits.length / 8) bits).map fun byte => UInt8.ofNat (ofBits byte))

@[simp] theorem length_bitsOf (width n : ℕ) : (bitsOf width n).length = width := by
  induction width with
  | zero => rfl
  | succ width ih => rw [bitsOf, List.length_cons, ih]

theorem ofBits_bitsOf (width n : ℕ) : ofBits (bitsOf width n) = n % 2 ^ width := by
  induction width with
  | zero => rw [bitsOf, ofBits, pow_zero, Nat.mod_one]
  | succ width ih =>
    rw [bitsOf, ofBits, length_bitsOf, ih, Nat.mod_pow_succ, Nat.toNat_testBit, Nat.mul_comm, Nat.add_comm]

theorem ofBits_lt (bits : List Bool) : ofBits bits < 2 ^ bits.length := by
  induction bits with
  | nil => exact Nat.one_pos
  | cons bit rest ih =>
    rw [ofBits, List.length_cons, pow_succ]
    cases bit with
    | false => simp only [Bool.toNat_false]; omega
    | true => simp only [Bool.toNat_true]; omega

/-- Only the low bits are written. -/
theorem bitsOf_mod {width bound n : ℕ} (wide : width ≤ bound) : bitsOf width (n % 2 ^ bound) = bitsOf width n := by
  induction width with
  | zero => rfl
  | succ width ih =>
    rw [bitsOf, bitsOf, ih (by omega), Nat.testBit_mod_two_pow, decide_eq_true (by omega), Bool.true_and]

theorem bitsOf_append (high low n : ℕ) : bitsOf (high + low) n = bitsOf high (n / 2 ^ low) ++ bitsOf low n := by
  induction high with
  | zero => rw [Nat.zero_add, bitsOf, List.nil_append]
  | succ high ih =>
    rw [Nat.succ_add, bitsOf, bitsOf, ih, List.cons_append, ← Nat.shiftRight_eq_div_pow, Nat.testBit_shiftRight,
      Nat.add_comm]

theorem bitsOf_zero (width : ℕ) : bitsOf width 0 = List.replicate width false := by
  induction width with
  | zero => rfl
  | succ width ih => rw [bitsOf, ih, Nat.zero_testBit, List.replicate_succ]

theorem bitsOf_ofBits (bits : List Bool) : bitsOf bits.length (ofBits bits) = bits := by
  induction bits with
  | nil => rfl
  | cons bit rest ih =>
    have low := ofBits_lt rest
    have head : (ofBits (bit :: rest)).testBit rest.length = bit := by
      rw [ofBits, Nat.mul_comm, Nat.testBit_two_pow_mul_add _ low, if_neg (Nat.lt_irrefl _), Nat.sub_self]
      cases bit <;> rfl
    have tail : bitsOf rest.length (ofBits (bit :: rest)) = rest := by
      rw [← bitsOf_mod (Nat.le_refl _), ofBits, Nat.mul_comm, Nat.mul_add_mod, Nat.mod_eq_of_lt low, ih]
    rw [List.length_cons, bitsOf, head, tail]

section Groups

variable {width count i : ℕ} {bits front back : List Bool}

@[simp] theorem length_group (width : ℕ) (bits : List Bool) (i : ℕ) : (group width bits i).length = width := by
  simp [group]

@[simp] theorem length_groups (width count : ℕ) (bits : List Bool) : (groups width count bits).length = count := by
  simp [groups]

theorem groups_succ : groups width (count + 1) bits = groups width count bits ++ [group width bits count] := by
  rw [groups, groups, List.range_succ, List.map_append, List.map_singleton]

theorem group_congr {bits' : List Bool} {i' : ℕ}
    (same : ∀ j < width, bits.getD (width * i + j) false = bits'.getD (width * i' + j) false) :
    group width bits i = group width bits' i' := by
  refine List.map_congr_left fun j member => same j (List.mem_range.mp member)

/-- Zeros behind the end change nothing. -/
theorem group_append_false (blank : ℕ) : group width (bits ++ List.replicate blank false) i = group width bits i := by
  apply group_congr
  intro j _
  simp only [List.getD_eq_getElem?_getD, List.getElem?_append, List.getElem?_replicate]
  split
  · rfl
  · next past =>
    rw [List.getElem?_eq_none (by omega)]
    split <;> rfl

/-- A group that lies inside the front. -/
theorem group_append_left (inside : width * (i + 1) ≤ front.length) :
    group width (front ++ back) i = group width front i := by
  apply group_congr
  intro j low
  rw [Nat.mul_succ] at inside
  rw [List.getD_eq_getElem?_getD, List.getD_eq_getElem?_getD, List.getElem?_append_left (by omega)]

/-- A group behind a front of whole groups. -/
theorem group_append_right (whole : front.length = width * count) :
    group width (front ++ back) (count + i) = group width back i := by
  apply group_congr
  intro j low
  rw [List.getD_eq_getElem?_getD, List.getD_eq_getElem?_getD, Nat.mul_add, Nat.add_assoc,
    List.getElem?_append_right (by omega), whole, Nat.add_sub_cancel_left]

theorem group_self (whole : bits.length = width) : group width bits 0 = bits := by
  apply List.ext_getElem
  · rw [length_group, whole]
  · intro j _ low
    simp [group, List.getElem?_eq_getElem low]

theorem groups_append (whole : front.length = width * count) (more : ℕ) :
    groups width (count + more) (front ++ back) = groups width count front ++ groups width more back := by
  rw [groups, List.range_add, List.map_append, List.map_map]
  congr 1
  · refine List.map_congr_left fun i member => group_append_left ?_
    rw [whole]
    exact Nat.mul_le_mul_left _ (List.mem_range.mp member)
  · exact List.map_congr_left fun i _ => group_append_right whole

/-- The groups hold the string itself. -/
theorem getD_flatten_groups {k : ℕ} (inside : k < width * count) :
    (groups width count bits).flatten.getD k false = bits.getD k false := by
  induction count with
  | zero => omega
  | succ count ih =>
    have whole : (groups width count bits).flatten.length = width * count := by
      simp [List.length_flatten, groups, Function.comp_def, Nat.mul_comm]
    rw [groups_succ, List.flatten_append, List.flatten_singleton, List.getD_eq_getElem?_getD]
    by_cases early : k < width * count
    · rw [List.getElem?_append_left (by omega), ← List.getD_eq_getElem?_getD, ih early]
    · rw [Nat.mul_succ] at inside
      have low : k - width * count < width := by omega
      have place : width * count + (k - width * count) = k := by omega
      rw [List.getElem?_append_right (by omega), whole, group, List.getElem?_map, List.getElem?_range low,
        Option.map_some, Option.getD_some, place]

end Groups

theorem byteBits_append (front back : Bytes) : byteBits (front ++ back) = byteBits front ++ byteBits back :=
  List.flatMap_append

@[simp] theorem length_byteBits (bytes : Bytes) : (byteBits bytes).length = 8 * bytes.length := by
  induction bytes with
  | nil => rfl
  | cons b rest ih =>
    rw [byteBits, List.flatMap_cons, List.length_append, length_bitsOf, ← byteBits, ih, List.length_cons]
    omega

theorem groups_byteBits (bytes : Bytes) :
    (groups 8 bytes.length (byteBits bytes)).map (fun byte => UInt8.ofNat (ofBits byte)) = bytes := by
  induction bytes with
  | nil => rfl
  | cons b rest ih =>
    have head : (bitsOf 8 b.toNat).length = 8 * 1 := length_bitsOf 8 _
    rw [byteBits, List.flatMap_cons, ← byteBits, List.length_cons, Nat.add_comm, groups_append head, List.map_append,
      ih, groups, List.range_one, List.map_singleton, List.map_singleton, group_self (length_bitsOf 8 _), ofBits_bitsOf,
      Nat.mod_eq_of_lt b.toNat_lt, UInt8.ofNat_toNat, List.singleton_append]

section Text

variable {width : ℕ} {letter : ℕ → α} {value : α → Option ℕ}

theorem length_encode (width : ℕ) (letter : ℕ → α) (bytes : Bytes) :
    (encode width letter bytes).length = groupCount width bytes.length := by
  rw [encode, List.length_map, length_groups]

theorem mem_encode {bytes : Bytes} {a : α} (member : a ∈ encode width letter bytes) :
    ∃ n < 2 ^ width, a = letter n := by
  obtain ⟨bits, listed, rfl⟩ := List.mem_map.mp member
  obtain ⟨i, _, rfl⟩ := List.mem_map.mp listed
  have bound := ofBits_lt (group width (byteBits bytes) i)
  rw [length_group] at bound
  exact ⟨_, bound, rfl⟩

/-- Letters that all have a value are read. -/
theorem mapM_value {β : Type*} {value : α → Option ℕ} {letter : β → α} {number : β → ℕ} {parts : List β}
    (each : ∀ part ∈ parts, value (letter part) = some (number part)) :
    (parts.map letter).mapM value = some (parts.map number) := by
  induction parts with
  | nil => rfl
  | cons part rest ih =>
    rw [List.forall_mem_cons] at each
    rw [List.map_cons, List.mapM_cons, each.1, ih each.2]
    rfl

/-- The groups of so many bytes hold them and less than one byte more. -/
theorem width_mul_groupCount (positive : 0 < width) (small : width ≤ 8) (bytes : ℕ) :
    8 * bytes ≤ width * groupCount width bytes ∧ width * groupCount width bytes / 8 = bytes := by
  have parts := Nat.div_add_mod (8 * bytes + (width - 1)) width
  have rest := Nat.mod_lt (8 * bytes + (width - 1)) positive
  rw [groupCount]
  constructor
  · omega
  · omega

/-- Where the letters can be told apart, what was written reads back. -/
theorem decode_encode (positive : 0 < width) (small : width ≤ 8) (known : ∀ n < 2 ^ width, value (letter n) = some n)
    (bytes : Bytes) : decode width value (encode width letter bytes) = some bytes := by
  obtain ⟨enough, back⟩ := width_mul_groupCount positive small bytes.length
  let parts := groups width (groupCount width bytes.length) (byteBits bytes)
  have values : (encode width letter bytes).mapM value = some (parts.map ofBits) := by
    apply mapM_value
    intro bits member
    obtain ⟨i, _, rfl⟩ := List.mem_map.mp member
    have bound := ofBits_lt (group width (byteBits bytes) i)
    rw [length_group] at bound
    exact known _ bound
  have bits : (parts.map ofBits).flatMap (bitsOf width) = parts.flatten := by
    rw [List.flatMap_map, List.flatten_eq_flatMap]
    apply List.flatMap_congr
    intro bits member
    obtain ⟨i, _, rfl⟩ := List.mem_map.mp member
    have back := bitsOf_ofBits (group width (byteBits bytes) i)
    rwa [length_group] at back
  have size : parts.flatten.length = width * groupCount width bytes.length := by
    simp [parts, List.length_flatten, groups, Function.comp_def, Nat.mul_comm]
  rw [decode, values]
  simp only [Option.bind_eq_bind, Option.bind_some, bits, size, back]
  have same : groups 8 bytes.length parts.flatten = groups 8 bytes.length (byteBits bytes) := by
    refine List.map_congr_left fun i member => group_congr fun j low => getD_flatten_groups ?_
    have inside := List.mem_range.mp member
    omega
  rw [same, groups_byteBits]

end Text

end BitGroups
