import LazorKit.ToMathlib.ExceptBind

/-! # Vectors on a heap that never frees

A vector keeps its items in an allocation of some capacity, and an append that does not fit moves it to a
larger one. Where nothing is freed a move costs the old allocation for good, so the question about a vector
that was sized in advance is whether it ever moves. Its loop may fail halfway, so the state of a loop here
outlives a failing round.
-/

universe u v w

/-- A vector, with the number of times it moved to a larger allocation. -/
structure HeapVec (α : Type u) where
  items : List α
  capacity : ℕ
  moves : ℕ
  fits : items.length ≤ capacity

namespace HeapVec

variable {α : Type u} {v : HeapVec α} {capacity : ℕ}

def withCapacity (capacity : ℕ) : HeapVec α := ⟨[], capacity, 0, Nat.zero_le _⟩

/-- Append. Past the capacity the vector moves to an allocation of at least twice the size. -/
def extend (v : HeapVec α) (more : List α) : HeapVec α :=
  if room : v.items.length + more.length ≤ v.capacity then
    ⟨v.items ++ more, v.capacity, v.moves, by rwa [List.length_append]⟩
  else
    ⟨v.items ++ more, max (2 * v.capacity) (v.items.length + more.length), v.moves + 1,
      by rw [List.length_append]; exact Nat.le_max_right _ _⟩

def push (v : HeapVec α) (a : α) : HeapVec α := v.extend [a]

/-- Drop the items and keep the allocation. -/
def clear (v : HeapVec α) : HeapVec α := ⟨[], v.capacity, v.moves, Nat.zero_le _⟩

@[simp] theorem items_extend (v : HeapVec α) (more : List α) : (v.extend more).items = v.items ++ more := by
  unfold extend
  split <;> rfl

@[simp] theorem items_push (v : HeapVec α) (a : α) : (v.push a).items = v.items ++ [a] := items_extend v [a]

@[simp] theorem items_clear (v : HeapVec α) : v.clear.items = [] := rfl

/-- Still in the allocation it was given. -/
def Unmoved (v : HeapVec α) (capacity : ℕ) : Prop := v.capacity = capacity ∧ v.moves = 0

theorem unmoved_withCapacity (capacity : ℕ) : (withCapacity capacity : HeapVec α).Unmoved capacity := ⟨rfl, rfl⟩

theorem Unmoved.length_le (still : v.Unmoved capacity) : v.items.length ≤ capacity := still.1 ▸ v.fits

theorem Unmoved.extend {more : List α} (still : v.Unmoved capacity)
    (room : v.items.length + more.length ≤ capacity) : (v.extend more).Unmoved capacity := by
  rw [← still.1] at room
  unfold HeapVec.extend
  rw [dif_pos room]
  exact still

theorem Unmoved.push (still : v.Unmoved capacity) (room : v.items.length < capacity) (a : α) :
    (v.push a).Unmoved capacity :=
  still.extend room

theorem Unmoved.clear (still : v.Unmoved capacity) : v.clear.Unmoved capacity := still

end HeapVec

namespace Except

variable {ε : Type u} {α : Type v} {σ τ : Type w}

/-- A loop whose state outlives a failing round. -/
def foldlKeeping (round : σ → α → Except ε Unit × σ) : List α → σ → Except ε Unit × σ
  | [], s => (.ok (), s)
  | a :: rest, s =>
    match (round s a).1 with
    | .ok () => foldlKeeping round rest (round s a).2
    | .error e => (.error e, (round s a).2)

/-- The outcome with what is seen of the state, where there was no failure. -/
def seenAs (seen : σ → τ) (outcome : Except ε Unit × σ) : Except ε τ := outcome.1.map fun _ => seen outcome.2

/-- A loop that keeps its state ends as the plain one does, when every round does. -/
theorem seenAs_foldlKeeping {seen : σ → τ} {round : σ → α → Except ε Unit × σ} {f : τ → α → Except ε τ}
    (same : ∀ s a, seenAs seen (round s a) = f (seen s) a) (xs : List α) (s : σ) :
    seenAs seen (foldlKeeping round xs s) = xs.foldlM f (seen s) := by
  induction xs generalizing s with
  | nil => rfl
  | cons a rest ih =>
    rw [List.foldlM_cons, ← same, foldlKeeping]
    unfold seenAs
    cases (round s a).1 with
    | ok u => exact ih (round s a).2
    | error e => rfl

/-- What holds of the state and of what remains to do holds wherever the loop ends. -/
theorem foldlKeeping_inv {round : σ → α → Except ε Unit × σ} (P : List α → σ → Prop)
    (step : ∀ a rest s, P (a :: rest) s → P rest (round s a).2) {xs : List α} {s : σ} (start : P xs s) :
    ∃ rest, P rest (foldlKeeping round xs s).2 := by
  induction xs generalizing s with
  | nil => exact ⟨[], start⟩
  | cons a rest ih =>
    rw [foldlKeeping]
    cases (round s a).1 with
    | ok u => exact ih (step a rest s start)
    | error e => exact ⟨rest, step a rest s start⟩

/-- Appending part by part is collecting the parts. -/
theorem foldlM_append {β : Type v} {ε : Type u} {γ : Type v} {part : β → Except ε (List γ)} (xs : List β)
    (front : List γ) :
    xs.foldlM (fun items x => (part x).map (items ++ ·)) front =
      (xs.mapM part).map fun parts => front ++ parts.flatten := by
  induction xs generalizing front with
  | nil => simp [pure, Except.pure, Except.map]
  | cons x rest ih =>
    rw [List.foldlM_cons, List.mapM_cons]
    cases part x with
    | error e => rfl
    | ok here =>
      simp only [Except.map, Except.ok_bind] at ih ⊢
      rw [ih]
      cases rest.mapM part with
      | error e => rfl
      | ok later => simp [Except.ok_bind, pure, Except.pure]

end Except
