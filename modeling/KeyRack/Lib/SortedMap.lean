import Mathlib

/-!
# Sorted association lists

An ordered map is the list of its entries in strictly increasing key order, so
that equal maps are equal lists. The list operations come first: a recursive
data type nests the raw list, and the bundled `SortedMap` is used elsewhere.
-/
namespace SortedMap

variable {κ ν : Type} [LinearOrder κ]

/-- Keys strictly increase along the list. -/
def Sorted (entries : List (κ × ν)) : Prop := entries.Pairwise fun a b => a.1 < b.1

/-- Add a binding, replacing the value of a key that is already there. -/
def insertEntry (key : κ) (value : ν) : List (κ × ν) → List (κ × ν)
  | [] => [(key, value)]
  | (k, v) :: rest =>
    if key < k then (key, value) :: (k, v) :: rest
    else if key = k then (key, value) :: rest
    else (k, v) :: insertEntry key value rest

def lookup (key : κ) (entries : List (κ × ν)) : Option ν :=
  (entries.find? fun entry => decide (entry.1 = key)).map (·.2)

def hasKey (key : κ) (entries : List (κ × ν)) : Bool :=
  entries.any fun entry => decide (entry.1 = key)

section
variable (key : κ) (value : ν) (entries : List (κ × ν))

theorem hasKey_eq_false_iff : hasKey key entries = false ↔ ∀ entry ∈ entries, entry.1 ≠ key := by
  simp [hasKey]

theorem mem_insertEntry (entry : κ × ν) (member : entry ∈ insertEntry key value entries) :
    entry = (key, value) ∨ entry ∈ entries := by
  induction entries with
  | nil => simpa [insertEntry] using member
  | cons _ _ ih =>
    simp only [insertEntry] at member
    split at member
    · simpa using member
    · split at member
      · rcases List.mem_cons.mp member with same | old
        · exact Or.inl same
        · exact Or.inr (by simp [old])
      · rcases List.mem_cons.mp member with same | old
        · exact Or.inr (by simp [same])
        · rcases ih old with same | old
          · exact Or.inl same
          · exact Or.inr (by simp [old])

theorem insertEntry_sorted (sorted : Sorted entries) : Sorted (insertEntry key value entries) := by
  induction entries with
  | nil => simp [insertEntry, Sorted]
  | cons head rest ih =>
    obtain ⟨below, tail⟩ := List.pairwise_cons.mp sorted
    simp only [insertEntry]
    split
    -- in front of the head, in its place, or somewhere behind it
    next less =>
      refine List.pairwise_cons.mpr ⟨?_, sorted⟩
      intro entry member
      rcases List.mem_cons.mp member with rfl | old
      · exact less
      · exact lt_trans less (below entry old)
    next notLess =>
      split
      next same =>
        subst same
        exact List.pairwise_cons.mpr ⟨below, tail⟩
      next different =>
        refine List.pairwise_cons.mpr ⟨?_, ih tail⟩
        intro entry member
        rcases mem_insertEntry key value rest entry member with rfl | old
        · exact lt_of_le_of_ne (not_lt.mp notLess) (Ne.symm different)
        · exact below entry old

/-- A fresh key adds exactly one entry. -/
theorem insertEntry_perm (fresh : hasKey key entries = false) :
    (insertEntry key value entries).Perm ((key, value) :: entries) := by
  induction entries with
  | nil => exact List.Perm.refl _
  | cons head rest ih =>
    have absent := (hasKey_eq_false_iff key (head :: rest)).mp fresh
    have tail : hasKey key rest = false :=
      (hasKey_eq_false_iff key rest).mpr fun entry member => absent entry (by simp [member])
    simp only [insertEntry]
    split
    · exact List.Perm.refl _
    · rw [if_neg fun same => absent head (by simp) same.symm]
      exact ((ih tail).cons head).trans (List.Perm.swap _ _ _)

/-- A key above all others goes last. -/
theorem insertEntry_last (above : ∀ entry ∈ entries, entry.1 < key) :
    insertEntry key value entries = entries ++ [(key, value)] := by
  induction entries with
  | nil => rfl
  | cons head _ ih =>
    have less := above head (by simp)
    simp only [insertEntry, if_neg (lt_asymm less), if_neg (ne_of_gt less), List.cons_append]
    rw [ih fun entry member => above entry (by simp [member])]

end

theorem hasKey_insertEntry (key name : κ) (value : ν) (entries : List (κ × ν)) :
    hasKey name (insertEntry key value entries) = true ↔
      key = name ∨ hasKey name entries = true := by
  induction entries with
  | nil => simp [insertEntry, hasKey]
  | cons _ _ ih =>
    simp only [hasKey, List.any_cons, Bool.or_eq_true, decide_eq_true_eq] at ih ⊢
    unfold insertEntry
    split_ifs with before same
    · simp
    · simp [← same]
    · simp [ih, or_left_comm]

theorem lookup_append (key : κ) (front back : List (κ × ν)) :
    lookup key (front ++ back) = (lookup key front).or (lookup key back) := by
  simp [lookup, Option.map_or]

theorem lookup_cons (name : κ) (entry : κ × ν) (rest : List (κ × ν)) :
    lookup name (entry :: rest) = if entry.1 = name then some entry.2 else lookup name rest := by
  by_cases same : entry.1 = name <;> simp [lookup, same]

theorem lookup_of_mem {entries : List (κ × ν)} (distinct : entries.Pairwise (·.1 ≠ ·.1))
    (member : (name, value) ∈ entries) : lookup name entries = some value := by
  induction entries with
  | nil => cases member
  | cons head rest ih =>
    obtain ⟨apart, distinct⟩ := List.pairwise_cons.mp distinct
    rw [lookup_cons]
    rcases List.mem_cons.mp member with rfl | later
    · exact if_pos rfl
    · rw [if_neg (apart _ later), ih distinct later]

theorem lookup_insertEntry (key name : κ) (value : ν) (entries : List (κ × ν)) :
    lookup name (insertEntry key value entries) =
      if key = name then some value else lookup name entries := by
  induction entries with
  | nil => rw [insertEntry, lookup_cons]
  | cons head rest ih =>
    rw [insertEntry]
    split
    · rw [lookup_cons]
    · rw [lookup_cons name head]
      split
      · rw [lookup_cons]
        grind
      · rw [lookup_cons, ih]
        grind

/-- Mapping the values commutes with insertion. -/
theorem insertEntry_map {μ : Type} (f : ν → μ) (key : κ) (value : ν) (entries : List (κ × ν)) :
    insertEntry key (f value) (entries.map fun entry => (entry.1, f entry.2)) =
      (insertEntry key value entries).map fun entry => (entry.1, f entry.2) := by
  induction entries with
  | nil => rfl
  | cons _ _ ih =>
    simp only [insertEntry, List.map_cons]
    split
    · rfl
    · split
      · rfl
      · rw [ih, List.map_cons]

theorem hasKey_map {μ : Type} (f : ν → μ) (key : κ) (entries : List (κ × ν)) :
    hasKey key (entries.map fun entry => (entry.1, f entry.2)) = hasKey key entries := by
  simp only [hasKey, List.any_map]
  rfl

end SortedMap

/-- A map with one representation: its entries in increasing key order. -/
structure SortedMap (κ ν : Type) [LinearOrder κ] where
  entries : List (κ × ν)
  sorted : SortedMap.Sorted entries
  deriving DecidableEq

namespace SortedMap

variable {κ ν : Type} [LinearOrder κ]

@[ext] theorem ext {a b : SortedMap κ ν} (same : a.entries = b.entries) : a = b := by
  cases a; cases b; simp_all

def empty : SortedMap κ ν := ⟨[], List.Pairwise.nil⟩

def insert (m : SortedMap κ ν) (key : κ) (value : ν) : SortedMap κ ν :=
  ⟨insertEntry key value m.entries, insertEntry_sorted key value m.entries m.sorted⟩

def get? (m : SortedMap κ ν) (key : κ) : Option ν := lookup key m.entries

def containsKey (m : SortedMap κ ν) (key : κ) : Bool := hasKey key m.entries

/-- Collect bindings in order; a later binding of a key replaces an earlier one. -/
def ofList (bindings : List (κ × ν)) : SortedMap κ ν :=
  bindings.foldl (fun m entry => m.insert entry.1 entry.2) empty

theorem get?_foldl_insert (bindings : List (κ × ν)) (m : SortedMap κ ν) (key : κ) :
    (bindings.foldl (fun m entry => m.insert entry.1 entry.2) m).get? key =
      (lookup key bindings.reverse).or (m.get? key) := by
  induction bindings generalizing m with
  | nil => rfl
  | cons head rest ih =>
    have inserted : (m.insert head.1 head.2).get? key = (lookup key [head]).or (m.get? key) := by
      refine (lookup_insertEntry head.1 key head.2 m.entries).trans ?_
      rw [lookup_cons]
      split_ifs <;> rfl
    rw [List.foldl_cons, ih, inserted, List.reverse_cons, lookup_append, Option.or_assoc]

/-- The last binding of a key is found. -/
theorem get?_ofList (bindings : List (κ × ν)) (key : κ) :
    (ofList bindings).get? key = lookup key bindings.reverse := by
  rw [ofList, get?_foldl_insert]
  exact Option.or_none

/-- Bindings that lie above a map in increasing order are appended to it. -/
theorem foldl_insert_entries (bindings : List (κ × ν)) (m : SortedMap κ ν)
    (sorted : Sorted (m.entries ++ bindings)) :
    (bindings.foldl (fun m entry => m.insert entry.1 entry.2) m).entries =
      m.entries ++ bindings := by
  induction bindings generalizing m with
  | nil => simp
  | cons head rest ih =>
    have above : ∀ entry ∈ m.entries, entry.1 < head.1 := fun entry member =>
      (List.pairwise_append.mp sorted).2.2 entry member head (by simp)
    have last : (m.insert head.1 head.2).entries = m.entries ++ [head] :=
      insertEntry_last head.1 head.2 m.entries above
    have whole : m.entries ++ head :: rest = (m.insert head.1 head.2).entries ++ rest := by
      simp [last]
    rw [whole] at sorted ⊢
    exact ih _ sorted

theorem ofList_entries (m : SortedMap κ ν) : ofList m.entries = m :=
  ext (foldl_insert_entries m.entries empty m.sorted)

end SortedMap
