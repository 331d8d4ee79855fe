import Mathlib.Data.List.Nodup
import Mathlib.Tactic.Common

/-! # Maps that keep insertion order

A map as a scripting language has it: iterating gives the keys in the order they were first set, and setting
a key again changes its value in place. The lemmas say what one `set` does to lookups and to the keys, and
what a loop of `set`s does to every entry.
-/

/-- The entries in the order their keys were first set. -/
abbrev OrderedMap (K V : Type*) := List (K × V)

namespace OrderedMap

variable {K V : Type*} [DecidableEq K]

/-- The value of a key, if it is set. -/
def get? : OrderedMap K V → K → Option V
  | [], _ => none
  | (key, value) :: rest, wanted => if key = wanted then some value else get? rest wanted

/-- Set a key: in place if it is there, behind the last one if it is not. -/
def set : OrderedMap K V → K → V → OrderedMap K V
  | [], key, value => [(key, value)]
  | (first, old) :: rest, key, value =>
    if first = key then (first, value) :: rest else (first, old) :: set rest key value

/-- Whether a key is set. -/
def has (map : OrderedMap K V) (key : K) : Bool := (get? map key).isSome

def keys (map : OrderedMap K V) : List K := map.map Prod.fst

theorem get?_set (map : OrderedMap K V) (key : K) (value : V) (wanted : K) :
    get? (set map key value) wanted = if key = wanted then some value else get? map wanted := by
  induction map with
  | nil => rfl
  | cons entry rest ih =>
    obtain ⟨first, old⟩ := entry
    rw [set]
    split
    · next own =>
      subst own
      rw [get?, get?]
      split <;> rfl
    · next other =>
      rw [get?, get?, ih]
      split
      · next own =>
        subst own
        rw [if_neg (Ne.symm other)]
      · rfl

theorem mem_keys_iff {map : OrderedMap K V} {key : K} : key ∈ keys map ↔ has map key = true := by
  rw [has]
  induction map with
  | nil => simp [keys, get?]
  | cons entry rest ih =>
    obtain ⟨first, old⟩ := entry
    rw [keys, List.map_cons, List.mem_cons, get?]
    split
    · next own => exact iff_of_true (.inl own.symm) rfl
    · next other =>
      rw [← ih]
      exact or_iff_right (Ne.symm other)

/-- An entry found is an entry of the map. -/
theorem mem_of_get? {map : OrderedMap K V} {key : K} {value : V} (found : get? map key = some value) :
    (key, value) ∈ map := by
  induction map with
  | nil => cases found
  | cons entry rest ih =>
    obtain ⟨first, old⟩ := entry
    rw [get?] at found
    split at found
    · next own =>
      cases found
      exact own ▸ List.mem_cons_self ..
    · exact List.mem_cons_of_mem _ (ih found)

theorem has_set (map : OrderedMap K V) (key : K) (value : V) (wanted : K) :
    has (set map key value) wanted = (decide (key = wanted) || has map wanted) := by
  rw [has, get?_set]
  split
  · next own => simp [own]
  · next other => simp [other, has]

/-- What holds of every entry set by a loop, and of the map before it, holds of every entry found. -/
theorem get?_foldl_set {P : K → V → Prop} {entries : List (K × V)} (each : ∀ entry ∈ entries, P entry.1 entry.2)
    {map : OrderedMap K V} (before : ∀ key value, get? map key = some value → P key value) {key : K} {value : V}
    (found : get? (entries.foldl (fun map entry => set map entry.1 entry.2) map) key = some value) : P key value := by
  induction entries generalizing map with
  | nil => exact before key value found
  | cons entry rest ih =>
    rw [List.forall_mem_cons] at each
    refine ih each.2 (fun key value here => ?_) found
    rw [get?_set] at here
    split at here
    · next own =>
      cases here
      exact own ▸ each.1
    · exact before key value here

/-- A loop of `set`s sets its keys and loses none. -/
theorem has_foldl_set {entries : List (K × V)} {map : OrderedMap K V} {key : K} :
    has (entries.foldl (fun map entry => set map entry.1 entry.2) map) key = true ↔
      key ∈ entries.map Prod.fst ∨ has map key = true := by
  induction entries generalizing map with
  | nil => simp
  | cons entry rest ih =>
    rw [List.foldl_cons, ih, has_set, List.map_cons, List.mem_cons, Bool.or_eq_true, decide_eq_true_eq, eq_comm]
    tauto

/-- A loop over distinct keys leaves each with its own value, or unset if it has none. -/
theorem get?_foldl_set_filterMap {R : Type*} {rows : List R} {name : R → K} {value : R → Option V}
    (distinct : (rows.map name).Nodup) {row : R} (member : row ∈ rows) :
    get? ((rows.filterMap fun row => (value row).map fun v => (name row, v)).foldl
      (fun map entry => set map entry.1 entry.2) []) (name row) = value row := by
  have own (v : V) (found : get? ((rows.filterMap fun row => (value row).map fun v => (name row, v)).foldl
      (fun map entry => set map entry.1 entry.2) []) (name row) = some v) : value row = some v := by
    refine get?_foldl_set (P := fun key v => key = name row → value row = some v) (fun entry listed same => ?_)
      (fun _ _ unset => ?_) found rfl
    · obtain ⟨other, there, made⟩ := List.mem_filterMap.mp listed
      obtain ⟨v, valued, rfl⟩ := Option.map_eq_some_iff.mp made
      exact List.inj_on_of_nodup_map distinct there member same ▸ valued
    · cases unset
  cases found : get? ((rows.filterMap fun row => (value row).map fun v => (name row, v)).foldl
      (fun map entry => set map entry.1 entry.2) []) (name row) with
  | some v => exact (own v found).symm
  | none =>
    cases valued : value row with
    | none => rfl
    | some v =>
      have listed : name row ∈ (rows.filterMap fun row => (value row).map fun v => (name row, v)).map Prod.fst := by
        refine List.mem_map.mpr ⟨(name row, v), List.mem_filterMap.mpr ⟨row, member, ?_⟩, rfl⟩
        rw [valued, Option.map_some]
      have isSet := (@has_foldl_set K V _ _ [] (name row)).mpr (.inl listed)
      rw [has, found] at isSet
      cases isSet

/-- A loop that numbers its keys leaves each with the number of its last place. -/
theorem le_get?_foldl_zipIdx {keys : List K} {start : ℕ} {map : OrderedMap K ℕ} {key : K} {index : ℕ}
    (found : get? ((keys.zipIdx start).foldl (fun map entry => set map entry.1 entry.2) map) key = some index)
    {place : ℕ} (here : keys[place]? = some key) : start + place ≤ index := by
  induction keys generalizing start map place with
  | nil => cases here
  | cons first rest ih =>
    rw [List.zipIdx_cons, List.foldl_cons] at found
    cases place with
    | zero =>
      rw [List.getElem?_cons_zero, Option.some.injEq] at here
      subst here
      refine get?_foldl_set (P := fun name number => name = first → start ≤ number) (fun entry member _ => ?_)
        (fun name number set own => ?_) found rfl
      · exact Nat.le_of_succ_le (List.le_snd_of_mem_zipIdx member)
      · subst own
        rw [get?_set, if_pos rfl, Option.some.injEq] at set
        exact Nat.le_of_eq set
    | succ place =>
      have later := ih found here
      omega

/-- Setting a key to a value with at least the old one's flag. -/
theorem any_set {flag : V → Bool} {map : OrderedMap K V} {key : K} {value : V}
    (grows : ∀ old, get? map key = some old → flag old = true → flag value = true) (wanted : K) :
    (set map key value).any (fun entry => decide (entry.1 = wanted) && flag entry.2) =
      (map.any (fun entry => decide (entry.1 = wanted) && flag entry.2) || (decide (key = wanted) && flag value)) := by
  induction map with
  | nil => simp [set]
  | cons entry rest ih =>
    obtain ⟨first, old⟩ := entry
    rw [set]
    split
    · next own =>
      subst own
      have kept : (flag old || flag value) = flag value := by
        cases flagged : flag old with
        | true => rw [grows old (by simp [get?]) flagged, Bool.or_self]
        | false => rw [Bool.false_or]
      rw [List.any_cons, List.any_cons, Bool.or_right_comm, ← Bool.and_or_distrib_left, kept]
    · next other =>
      rw [List.any_cons, List.any_cons, ih (fun old found => grows old (by rw [get?, if_neg other, found])),
        Bool.or_assoc]

theorem keys_set (map : OrderedMap K V) (key : K) (value : V) :
    keys (set map key value) = if has map key then keys map else keys map ++ [key] := by
  induction map with
  | nil => rfl
  | cons entry rest ih =>
    obtain ⟨first, old⟩ := entry
    rw [set]
    split
    · next own =>
      have there : has ((first, old) :: rest) key = true := by rw [has, get?, if_pos own]; rfl
      rw [if_pos there]
      rfl
    · next other =>
      have same : has ((first, old) :: rest) key = has rest key := by rw [has, get?, if_neg other, has]
      rw [same, keys, List.map_cons, ← keys, ih]
      split <;> rfl

/-- No key is listed twice. -/
theorem nodup_keys_set {map : OrderedMap K V} (nodup : (keys map).Nodup) (key : K) (value : V) :
    (keys (set map key value)).Nodup := by
  rw [keys_set]
  split
  · exact nodup
  · next absent =>
    rw [← mem_keys_iff] at absent
    refine List.nodup_append.mpr ⟨nodup, List.nodup_cons.mpr ⟨List.not_mem_nil, List.nodup_nil⟩, ?_⟩
    rintro _ member _ own rfl
    exact absent (List.mem_singleton.mp own ▸ member)

end OrderedMap
