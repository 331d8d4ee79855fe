import Mathlib.Logic.Function.Basic
import Mathlib.Tactic.Common

/-! # Stores whose entries belong to someone

Each entry of a store says whom it belongs to. A change avoids an owner if it touches no entry that is theirs and
makes none theirs; such changes compose, and a single write avoids everyone but the owners of the old and of the
new entry.
-/

namespace OwnedMap

variable {κ ν ω : Type*} {owner : κ → ν → ω} {one : ω} {store store' store'' : κ → Option ν} {key : κ}

/-- The entry at a key is there and is theirs. -/
def Belongs (owner : κ → ν → ω) (one : ω) (store : κ → Option ν) (key : κ) : Prop :=
  ∃ value, store key = some value ∧ owner key value = one

/-- Every entry stays what it was, or is someone else's before and after. -/
def Avoids (owner : κ → ν → ω) (one : ω) (store store' : κ → Option ν) : Prop :=
  ∀ key, store' key = store key ∨ ¬Belongs owner one store key ∧ ¬Belongs owner one store' key

theorem belongs_congr (same : store' key = store key) : Belongs owner one store' key ↔ Belongs owner one store key := by
  rw [Belongs, Belongs, same]

theorem not_belongs_of_none (vacant : store key = none) : ¬Belongs owner one store key := by
  rintro ⟨_, there, _⟩
  rw [vacant] at there
  cases there

/-- A write that leaves someone else's entry, or none, gives nobody else's key to them. -/
theorem not_belongs_update [DecidableEq κ] {written : κ} {entry : Option ν} (before : ¬Belongs owner one store key)
    (after : ∀ value, entry = some value → owner written value ≠ one) :
    ¬Belongs owner one (Function.update store written entry) key := by
  rintro ⟨value, there, theirs⟩
  by_cases same : key = written
  · subst same
    rw [Function.update_self] at there
    exact after value there theirs
  · rw [Function.update_of_ne same] at there
    exact before ⟨value, there, theirs⟩

namespace Avoids

theorem refl (owner : κ → ν → ω) (one : ω) (store : κ → Option ν) : Avoids owner one store store := fun _ => .inl rfl

theorem trans (first : Avoids owner one store store') (second : Avoids owner one store' store'') :
    Avoids owner one store store'' := by
  intro key
  rcases first key with same | ⟨before, middle⟩
  · rcases second key with same' | ⟨middle, after⟩
    · exact .inl (same'.trans same)
    · exact .inr ⟨fun theirs => middle ((belongs_congr same).mpr theirs), after⟩
  · rcases second key with same' | ⟨_, after⟩
    · exact .inr ⟨before, fun theirs => middle ((belongs_congr same').mp theirs)⟩
    · exact .inr ⟨before, after⟩

/-- An entry that is theirs on either side is the same on both. -/
theorem eq (avoids : Avoids owner one store store')
    (theirs : Belongs owner one store key ∨ Belongs owner one store' key) : store' key = store key := by
  rcases avoids key with same | ⟨before, after⟩
  · exact same
  · rcases theirs with theirs | theirs
    · exact absurd theirs before
    · exact absurd theirs after

/-- A write over someone else's entry, or over none, that leaves someone else's or none. -/
theorem update [DecidableEq κ] {entry : Option ν} (before : ¬Belongs owner one store key)
    (after : ∀ value, entry = some value → owner key value ≠ one) :
    Avoids owner one store (Function.update store key entry) := by
  intro other
  by_cases same : other = key
  · subst same
    exact .inr ⟨before, not_belongs_update before after⟩
  · exact .inl (Function.update_of_ne same _ _)

end Avoids

end OwnedMap
