import LazorKit.ToMathlib.Bytes
import LazorKit.ToMathlib.ExceptBind

/-! # Formats read off the front

A reader takes a value off the front of a byte string and returns what is left. For a format that
delimits itself the two directions determine each other: what was written reads back whatever follows
it, and what was read is what the writer would have written. Both carry over to a known number of values
written behind one another.
-/

/-- A self-delimiting format with its reader and its writer. -/
structure PrefixCodec (ε α : Type) where
  write : α → Bytes
  read : Bytes → Except ε (α × Bytes)
  /-- The values the format can hold. -/
  Writable : α → Prop
  read_write : ∀ value, Writable value → ∀ rest, read (write value ++ rest) = .ok (value, rest)
  write_of_read : ∀ bytes value rest, read bytes = .ok (value, rest) → Writable value ∧ bytes = write value ++ rest

namespace PrefixCodec

variable {ε α : Type} (codec : PrefixCodec ε α)

/-- Read a number of values off the front. -/
def readMany : ℕ → Bytes → Except ε (List α × Bytes)
  | 0, bytes => .ok ([], bytes)
  | count + 1, bytes => do
    let head ← codec.read bytes
    let tail ← readMany count head.2
    .ok (head.1 :: tail.1, tail.2)

theorem readMany_write {values : List α} (writable : ∀ value ∈ values, codec.Writable value) (rest : Bytes) :
    codec.readMany values.length (values.flatMap codec.write ++ rest) = .ok (values, rest) := by
  induction values with
  | nil => rfl
  | cons value values ih =>
    rw [List.forall_mem_cons] at writable
    rw [List.flatMap_cons, List.append_assoc, List.length_cons, readMany, codec.read_write value writable.1]
    simp only [Except.bind_eq_ok, Except.ok.injEq, exists_eq_left']
    exact ⟨_, ih writable.2, rfl⟩

theorem write_of_readMany {count : ℕ} {bytes rest : Bytes} {values : List α}
    (success : codec.readMany count bytes = .ok (values, rest)) :
    values.length = count ∧ (∀ value ∈ values, codec.Writable value) ∧ bytes = values.flatMap codec.write ++ rest := by
  induction count generalizing bytes values with
  | zero =>
    cases success
    simp
  | succ count ih =>
    simp only [readMany, Except.bind_eq_ok] at success
    obtain ⟨⟨value, middle⟩, head, ⟨others, left⟩, tail, result⟩ := success
    cases result
    obtain ⟨writable, front⟩ := codec.write_of_read _ _ _ head
    obtain ⟨length, rest_, back⟩ := ih tail
    refine ⟨by rw [List.length_cons, length], List.forall_mem_cons.mpr ⟨writable, rest_⟩, ?_⟩
    dsimp only at back
    rw [List.flatMap_cons, List.append_assoc, ← back, ← front]

end PrefixCodec
