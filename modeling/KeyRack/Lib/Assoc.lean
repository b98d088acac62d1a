import Mathlib

/-!
# Finite maps

Finite maps from keys to values of one type, with the operations that change the
values under some of the keys.
-/
namespace Assoc

open AList

abbrev FiniteMap (κ ν : Type) : Type := AList fun _ : κ => ν

variable {κ ν : Type}

namespace FiniteMap

def values (m : FiniteMap κ ν) : List ν := m.entries.map (·.2)

def size (m : FiniteMap κ ν) : Nat := m.entries.length

variable [DecidableEq κ] {m : FiniteMap κ ν} {key other : κ} {v v' old : ν}

theorem mem_values : v ∈ m.values ↔ ∃ key, m.lookup key = some v := by
  simp only [values, List.mem_map]
  constructor
  · rintro ⟨⟨key, v⟩, member, rfl⟩
    exact ⟨key, mem_lookup_iff.mpr member⟩
  · rintro ⟨key, found⟩
    exact ⟨⟨key, v⟩, mem_lookup_iff.mp found, rfl⟩

theorem mem_iff : key ∈ m ↔ ∃ v, m.lookup key = some v := by
  rw [← lookup_isSome, Option.isSome_iff_exists]

theorem lookup_insert_apply (m : FiniteMap κ ν) (key other : κ) (v : ν) :
    (m.insert key v).lookup other = if other = key then some v else m.lookup other := by
  split
  next same => rw [same, lookup_insert]
  next different => exact lookup_insert_ne different

theorem lookup_insert_cases (found : (m.insert key v).lookup other = some v') :
    other = key ∧ v' = v ∨ other ≠ key ∧ m.lookup other = some v' := by
  rw [lookup_insert_apply] at found
  split at found
  next same =>
    cases found
    exact .inl ⟨same, rfl⟩
  next different => exact .inr ⟨different, found⟩

theorem lookup_erase_apply (m : FiniteMap κ ν) (key other : κ) :
    (m.erase key).lookup other = if other = key then none else m.lookup other := by
  split
  next same => rw [same, lookup_erase]
  next different => exact lookup_erase_ne different

theorem size_erase_le (m : FiniteMap κ ν) (key : κ) : size (m.erase key) ≤ size m :=
  (List.kerase_sublist key m.entries).length_le

theorem size_insert_of_absent (absent : m.lookup key = none) (v : ν) :
    size (m.insert key v) = size m + 1 := by
  unfold size
  rw [entries_insert_of_notMem (lookup_eq_none.mp absent), List.length_cons]

theorem size_insert_of_present (present : m.lookup key = some old) (v : ν) :
    size (m.insert key v) = size m := by
  have member : ⟨key, old⟩ ∈ m.entries := mem_lookup_iff.mp present
  have shorter := List.length_eraseP_of_mem (p := fun entry => decide (key = entry.1)) member
    (by simp)
  have positive := List.length_pos_of_mem member
  change (List.eraseP (fun entry => decide (key = entry.1)) m.entries).length + 1 = m.entries.length
  omega

/-- Change the value under a key, if there is one. -/
def adjust (m : FiniteMap κ ν) (key : κ) (f : ν → ν) : FiniteMap κ ν :=
  match m.lookup key with
  | some v => m.insert key (f v)
  | none => m

theorem lookup_adjust (m : FiniteMap κ ν) (key other : κ) (f : ν → ν) :
    (m.adjust key f).lookup other =
      if other = key then (m.lookup key).map f else m.lookup other := by
  unfold adjust
  split
  next found => rw [lookup_insert_apply, found, Option.map_some]
  next absent =>
    split
    next same => rw [same, absent, Option.map_none]
    next => rfl

/-- Change the values under some of the keys. -/
def adjustAll (m : FiniteMap κ ν) (keys : List κ) (f : ν → ν) : FiniteMap κ ν :=
  keys.foldl (fun m key => m.adjust key f) m

theorem lookup_adjustAll (idempotent : ∀ v, f (f v) = f v) (m : FiniteMap κ ν)
    (keys : List κ) (other : κ) : (m.adjustAll keys f).lookup other =
      if other ∈ keys then (m.lookup other).map f else m.lookup other := by
  induction keys generalizing m with
  | nil => simp [adjustAll]
  | cons key keys ih =>
    have unfolded : m.adjustAll (key :: keys) f = (m.adjust key f).adjustAll keys f := rfl
    rw [unfolded, ih, lookup_adjust]
    by_cases same : other = key
    · -- the key may come up again, which changes nothing
      subst same
      simp [Function.comp_def, idempotent]
    · simp [same]

end FiniteMap
end Assoc
