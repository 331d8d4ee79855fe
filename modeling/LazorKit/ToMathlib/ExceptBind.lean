import Mathlib.Data.List.Basic
import Mathlib.Data.List.Forall2
import Mathlib.Tactic.Common

/-! # Inverting a successful computation

A fallible function is a chain of binds in `Except`. The lemmas here turn "the chain returned
`ok`" into the conjunction of what each link returned, so that a success is inverted by one
`simp only` and taken apart by `obtain`, without unfolding any callee.
-/

/-- What stands against a concatenation is a concatenation. -/
theorem List.forall₂_append_left_iff {α β : Type*} {R : α → β → Prop} {xs ys : List α} {zs : List β} :
    List.Forall₂ R (xs ++ ys) zs ↔ ∃ as bs, List.Forall₂ R xs as ∧ List.Forall₂ R ys bs ∧ zs = as ++ bs := by
  induction xs generalizing zs with
  | nil => simp
  | cons x xs ih =>
    simp only [List.cons_append, List.forall₂_cons_left_iff, ih]
    constructor
    · rintro ⟨a, _, first, ⟨as, bs, rest, tail, rfl⟩, rfl⟩
      exact ⟨a :: as, bs, ⟨a, as, first, rest, rfl⟩, tail, rfl⟩
    · rintro ⟨_, bs, ⟨a, as, first, rest, rfl⟩, tail, rfl⟩
      exact ⟨a, as ++ bs, first, ⟨as, bs, rest, tail, rfl⟩, rfl⟩

namespace Except

universe u v

variable {ε : Type u} {α β : Type v}

/-- Refuse with `e` unless `p` holds. -/
def ensure (p : Prop) [Decidable p] (e : ε) : Except ε Unit := if p then .ok () else .error e

/-- Refuse with `e` where there is no value. -/
def ofOption (e : ε) : Option α → Except ε α
  | some a => .ok a
  | none => .error e

theorem bind_eq_ok {x : Except ε α} {f : α → Except ε β} {b : β} :
    (x >>= f) = .ok b ↔ ∃ a, x = .ok a ∧ f a = .ok b := by
  cases x with
  | error e => simp [bind, Except.bind]
  | ok a => simp [bind, Except.bind]

theorem bind_eq_error {x : Except ε α} {f : α → Except ε β} {e : ε} :
    x >>= f = .error e ↔ x = .error e ∨ ∃ a, x = .ok a ∧ f a = .error e := by
  cases x with
  | error e' => simp [bind, Except.bind]
  | ok a => simp [bind, Except.bind]

theorem ok_ne_error {a : α} {e : ε} : (Except.ok a : Except ε α) ≠ .error e := by
  intro same
  cases same

theorem error_ne_ok {a : α} {e : ε} : (Except.error e : Except ε α) ≠ .ok a := by
  intro same
  cases same

/-- A chain never ends in an error that none of its links ends in. -/
theorem bind_ne_error {x : Except ε α} {f : α → Except ε β} {e : ε} (first : x ≠ .error e)
    (then_ : ∀ a, x = .ok a → f a ≠ .error e) : x >>= f ≠ .error e := by
  intro failed
  rcases bind_eq_error.mp failed with here | ⟨a, passed, later⟩
  · exact first here
  · exact then_ a passed later

theorem pure_eq_ok {a b : α} : (pure a : Except ε α) = .ok b ↔ a = b := by
  simp [pure, Except.pure]

theorem ensure_eq_ok {p : Prop} [Decidable p] {e : ε} {u : Unit} : ensure p e = .ok u ↔ p := by
  unfold ensure
  split <;> simp_all

theorem ensure_eq_error {p : Prop} [Decidable p] {e e' : ε} : ensure p e = .error e' ↔ ¬p ∧ e = e' := by
  unfold ensure
  split <;> simp_all

theorem ensure_ne_error {p : Prop} [Decidable p] {e e' : ε} (other : e ≠ e') : ensure p e ≠ .error e' :=
  fun failed => other (ensure_eq_error.mp failed).2

theorem ensure_of {p : Prop} [Decidable p] {e : ε} (holds : p) : ensure p e = .ok () :=
  ensure_eq_ok.mpr holds

theorem ofOption_eq_ok {e : ε} {o : Option α} {a : α} : ofOption e o = .ok a ↔ o = some a := by
  cases o <;> simp [ofOption]

theorem mapError_eq_ok {f : ε → ε} {x : Except ε α} {a : α} : x.mapError f = .ok a ↔ x = .ok a := by
  cases x <;> simp [Except.mapError]

theorem map_eq_ok {x : Except ε α} {f : α → β} {b : β} :
    x.map f = .ok b ↔ ∃ a, x = .ok a ∧ f a = b := by
  cases x <;> simp [Except.map]

/-- A loop of checks succeeds exactly when each check does. -/
theorem forM_eq_ok {f : α → Except ε PUnit} {xs : List α} {u : PUnit} :
    forM xs f = .ok u ↔ ∀ x ∈ xs, f x = .ok ⟨⟩ := by
  induction xs with
  | nil => simp [pure, Except.pure]
  | cons x xs ih =>
    rw [List.forM_cons, bind_eq_ok, List.forall_mem_cons]
    constructor
    · rintro ⟨_, head, tail⟩
      exact ⟨head, ih.mp tail⟩
    · rintro ⟨head, tail⟩
      exact ⟨⟨⟩, head, ih.mpr tail⟩

theorem forM_ne_error {f : α → Except ε PUnit} {xs : List α} {e : ε} (each : ∀ x ∈ xs, f x ≠ .error e) :
    forM xs f ≠ .error e := by
  induction xs with
  | nil =>
    intro failed
    cases failed
  | cons x xs ih =>
    rw [List.forall_mem_cons] at each
    rw [List.forM_cons]
    exact bind_ne_error each.1 fun _ _ => ih each.2

theorem foldlM_cons_eq_ok {f : β → α → Except ε β} {init result : β} {x : α} {xs : List α} :
    (x :: xs).foldlM f init = .ok result ↔
      ∃ middle, f init x = .ok middle ∧ xs.foldlM f middle = .ok result := by
  rw [List.foldlM_cons, bind_eq_ok]

theorem foldlM_nil_eq_ok {f : β → α → Except ε β} {init result : β} :
    ([] : List α).foldlM f init = .ok result ↔ init = result := by
  rw [List.foldlM_nil, pure_eq_ok]

/-- What every link of a successful fold preserves, the fold preserves. -/
theorem foldlM_preserves {f : β → α → Except ε β} {xs : List α} {R : β → β → Prop}
    (refl : ∀ b, R b b) (trans : ∀ a b c, R a b → R b c → R a c)
    (step : ∀ x ∈ xs, ∀ b b', f b x = .ok b' → R b b') {init result : β}
    (success : xs.foldlM f init = .ok result) : R init result := by
  induction xs generalizing init with
  | nil =>
    rw [foldlM_nil_eq_ok] at success
    exact success ▸ refl init
  | cons x xs ih =>
    obtain ⟨middle, head, tail⟩ := foldlM_cons_eq_ok.mp success
    exact trans _ _ _ (step x (List.mem_cons_self ..) _ _ head)
      (ih (fun y member => step y (List.mem_cons_of_mem _ member)) tail)

/-- A loop that appends: where each round looks up some indices and appends a part for each of what it found,
the whole loop looks up all of them in order and appends all the parts. -/
theorem foldlM_collect {ι γ : Type*} {R : ι → γ → Prop} {indices : α → List ι} {part : γ → List β}
    {f : List β → α → Except ε (List β)}
    (round : ∀ init x result, f init x = .ok result ↔
      ∃ found, List.Forall₂ R (indices x) found ∧ result = init ++ found.flatMap part)
    {xs : List α} {init result : List β} :
    xs.foldlM f init = .ok result ↔
      ∃ found, List.Forall₂ R (xs.flatMap indices) found ∧ result = init ++ found.flatMap part := by
  induction xs generalizing init with
  | nil =>
    rw [foldlM_nil_eq_ok, List.flatMap_nil]
    simp only [List.forall₂_nil_left_iff, exists_eq_left, List.flatMap_nil, List.append_nil]
    exact eq_comm
  | cons x xs ih =>
    simp only [foldlM_cons_eq_ok, round, ih, List.flatMap_cons, List.forall₂_append_left_iff]
    constructor
    · rintro ⟨_, ⟨here, first, rfl⟩, later, rest, rfl⟩
      exact ⟨here ++ later, ⟨here, later, first, rest, rfl⟩, by rw [List.flatMap_append, List.append_assoc]⟩
    · rintro ⟨_, ⟨here, later, first, rest, rfl⟩, rfl⟩
      exact ⟨_, ⟨here, first, rfl⟩, later, rest, by rw [List.flatMap_append, List.append_assoc]⟩

/-- A successful `mapM` pairs every element with its image. -/
theorem mapM_eq_ok {f : α → Except ε β} {xs : List α} {ys : List β} :
    xs.mapM f = .ok ys ↔ List.Forall₂ (fun x y => f x = .ok y) xs ys := by
  induction xs generalizing ys with
  | nil => rw [List.mapM_nil, pure_eq_ok, List.forall₂_nil_left_iff, eq_comm]
  | cons x xs ih =>
    simp only [List.mapM_cons, bind_eq_ok, pure_eq_ok, List.forall₂_cons_left_iff]
    constructor
    · rintro ⟨y, head, rest, tail, rfl⟩
      exact ⟨y, rest, head, ih.mp tail, rfl⟩
    · rintro ⟨y, rest, head, tail, rfl⟩
      exact ⟨y, head, rest, ih.mpr tail, rfl⟩

/-- A failing `mapM` fails at one of the elements. -/
theorem exists_error_of_mapM {f : α → Except ε β} {xs : List α} {e : ε} (failed : xs.mapM f = .error e) :
    ∃ x ∈ xs, f x = .error e := by
  induction xs with
  | nil => cases failed
  | cons x xs ih =>
    simp only [List.mapM_cons, bind_eq_error] at failed
    rcases failed with here | ⟨_, _, later | ⟨_, _, done⟩⟩
    · exact ⟨x, List.mem_cons_self .., here⟩
    · obtain ⟨y, member, there⟩ := ih later
      exact ⟨y, List.mem_cons_of_mem _ member, there⟩
    · cases done

theorem ok_bind (a : α) (f : α → Except ε β) : (Except.ok a >>= f) = f a := rfl

theorem bind_congr {x : Except ε α} {f g : α → Except ε β} (same : ∀ a, x = .ok a → f a = g a) :
    (x >>= f) = (x >>= g) := by
  cases x with
  | error error => rfl
  | ok a => exact same a rfl

theorem mapM_congr {f g : α → Except ε β} {xs : List α} (same : ∀ x ∈ xs, f x = g x) : xs.mapM f = xs.mapM g := by
  induction xs with
  | nil => rfl
  | cons x xs ih =>
    rw [List.forall_mem_cons] at same
    rw [List.mapM_cons, List.mapM_cons, same.1, ih same.2]

/-- The value of a success, for evaluating a computation that is known to succeed. -/
def getD (fallback : α) : Except ε α → α
  | .ok a => a
  | .error _ => fallback

/-- Whether a computation succeeded. -/
def succeeded : Except ε α → Bool
  | .ok _ => true
  | .error _ => false

theorem exists_of_succeeded {x : Except ε α} (success : x.succeeded = true) : ∃ a, x = .ok a := by
  cases x with
  | ok a => exact ⟨a, rfl⟩
  | error e => cases success

theorem eq_ok_getD {x : Except ε α} {fallback : α} (success : x.succeeded = true) :
    x = .ok (x.getD fallback) := by
  cases x with
  | ok a => rfl
  | error e => simp [succeeded] at success

end Except

/-- In pairwise related lists every element on the right has a partner on the left. -/
theorem List.Forall₂.exists_left {α β : Type*} {R : α → β → Prop} {xs : List α} {ys : List β}
    (each : List.Forall₂ R xs ys) {y : β} (member : y ∈ ys) : ∃ x ∈ xs, R x y := by
  induction each with
  | nil => cases member
  | cons head _ ih =>
    cases member with
    | head => exact ⟨_, List.mem_cons_self .., head⟩
    | tail _ later =>
      obtain ⟨x, listed, related⟩ := ih later
      exact ⟨x, List.mem_cons_of_mem _ listed, related⟩
