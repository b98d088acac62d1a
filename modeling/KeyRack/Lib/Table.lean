import Mathlib

/-!
# Relational tables with uniqueness constraints

A row is a pair of its index columns and its payload. `Clash` says which index
columns two rows may not share, so a table satisfies its primary key and unique
constraints by construction. Updates change payloads only; the statements below
speak of membership, which is all that a query can observe up to row order.
-/
structure Table (ι π : Type) (Clash : ι → ι → Prop) where
  rows : List (ι × π)
  distinct : rows.Pairwise fun a b => ¬Clash a.1 b.1

namespace Table

open Function List

variable {ι π : Type} {Clash : ι → ι → Prop}

instance : Membership (ι × π) (Table ι π Clash) := ⟨fun t row => row ∈ t.rows⟩

variable {row : ι × π}

theorem mem_rows {t : Table ι π Clash} : row ∈ t.rows ↔ row ∈ t := Iff.rfl

def empty : Table ι π Clash := ⟨[], List.Pairwise.nil⟩

@[simp] theorem not_mem_empty (row : ι × π) : ¬row ∈ (empty : Table ι π Clash) := by
  simp [← mem_rows, empty]

/-- `SELECT … WHERE` on the index columns, expecting at most one row. -/
def select? (t : Table ι π Clash) (sel : ι → Bool) : Option (ι × π) :=
  t.rows.find? fun row => sel row.1

/-- `SELECT EXISTS(… WHERE …)`. -/
def any (t : Table ι π Clash) (sel : ι → π → Bool) : Bool := t.rows.any fun row => sel row.1 row.2

/-- `SELECT COUNT(*) … WHERE …`, and the number of rows an update touches. -/
def count (t : Table ι π Clash) (sel : ι → π → Bool) : Nat :=
  t.rows.countP fun row => sel row.1 row.2

/-- `INSERT`, refused when a constraint is violated. -/
def insert? [DecidableRel Clash] (t : Table ι π Clash) (index : ι) (payload : π) :
    Option (Table ι π Clash) :=
  if free : ∀ row ∈ t.rows, ¬Clash row.1 index then
    some ⟨t.rows ++ [(index, payload)], pairwise_append.mpr
      ⟨t.distinct, pairwise_singleton _ _, fun row member _ new => by
        rw [mem_singleton.mp new]
        exact free row member⟩⟩
  else none

/-- `INSERT … ON CONFLICT DO NOTHING`. -/
def insertOrIgnore [DecidableRel Clash] (t : Table ι π Clash) (index : ι) (payload : π) :
    Table ι π Clash := (t.insert? index payload).getD t

/-- `INSERT … SELECT`. -/
def insertAll? [DecidableRel Clash] (t : Table ι π Clash) :
    List (ι × π) → Option (Table ι π Clash)
  | [] => some t
  | (index, payload) :: rest => (t.insert? index payload).bind (insertAll? · rest)

/-- `UPDATE … SET … WHERE …`. -/
def modify (t : Table ι π Clash) (sel : ι → π → Bool) (f : π → π) : Table ι π Clash where
  rows := t.rows.map fun row => if sel row.1 row.2 then (row.1, f row.2) else row
  distinct := by
    refine pairwise_map.mpr (t.distinct.imp fun {a b} free => ?_)
    split <;> split <;> exact free

/-- `INSERT … ON CONFLICT DO UPDATE SET …`. -/
def upsert [DecidableEq ι] [DecidableRel Clash] (t : Table ι π Clash) (index : ι) (payload : π) :
    Table ι π Clash :=
  (t.insert? index payload).getD (t.modify (fun i _ => i == index) fun _ => payload)

/-- `DELETE … WHERE …`. -/
def delete (t : Table ι π Clash) (sel : ι → π → Bool) : Table ι π Clash where
  rows := t.rows.filter fun row => !sel row.1 row.2
  distinct := t.distinct.filter _

variable {t u : Table ι π Clash}

/-! ### Queries -/

variable {sel : ι → Bool}

theorem select?_mem (found : t.select? sel = some row) : row ∈ t ∧ sel row.1 = true :=
  ⟨mem_of_find?_eq_some found, find?_some (p := fun row : ι × π => sel row.1) found⟩

theorem select?_eq_none : t.select? sel = none ↔ ∀ row ∈ t, sel row.1 = false := by
  simp [select?, find?_eq_none, mem_rows]

/-- Two rows that clash are the same row. -/
theorem eq_of_clash (memA : a ∈ t) (memB : b ∈ t) (clash : Clash a.1 b.1)
    (flipped : Clash b.1 a.1) : a = b := by
  by_contra different
  -- `Clash` need not be symmetric, its symmetric part is
  have apart : t.rows.Pairwise fun x y => ¬(Clash x.1 y.1 ∧ Clash y.1 x.1) :=
    t.distinct.imp fun free both => free both.1
  have symm : Std.Symm fun x y : ι × π => ¬(Clash x.1 y.1 ∧ Clash y.1 x.1) :=
    ⟨fun _ _ free both => free both.symm⟩
  exact apart.forall memA memB different ⟨clash, flipped⟩

/-- A selection within one clash class finds any row that satisfies it. -/
theorem select?_eq_some (one : ∀ i j, sel i → sel j → Clash i j) :
    t.select? sel = some row ↔ row ∈ t ∧ sel row.1 = true := by
  refine ⟨select?_mem, fun ⟨member, selected⟩ => ?_⟩
  cases found : t.select? sel with
  | none =>
    have unselected := select?_eq_none.mp found row member
    simp [selected] at unselected
  | some =>
    obtain ⟨otherMember, otherSelected⟩ := select?_mem found
    rw [eq_of_clash otherMember member (one _ _ otherSelected selected)
      (one _ _ selected otherSelected)]

variable {sel : ι → π → Bool}

theorem any_eq_true : t.any sel = true ↔ ∃ row ∈ t, sel row.1 row.2 = true := by
  simp [any, ← mem_rows]

theorem any_eq_false : t.any sel = false ↔ ∀ row ∈ t, sel row.1 row.2 = false := by
  simp [any, ← mem_rows]

theorem count_eq_zero : t.count sel = 0 ↔ ∀ row ∈ t, sel row.1 row.2 = false := by
  simp [count, countP_eq_zero, ← mem_rows]

theorem exists_of_count (positive : t.count sel ≠ 0) : ∃ row ∈ t, sel row.1 row.2 = true := by
  have present := mt count_eq_zero.mpr positive
  push Not at present
  simpa using present

/-! ### Updates -/

variable {index : ι} {payload : π}

theorem insert?_eq_some [DecidableRel Clash] (inserted : t.insert? index payload = some u) :
    (∀ row ∈ t, ¬Clash row.1 index) ∧ ∀ row, row ∈ u ↔ row ∈ t ∨ row = (index, payload) := by
  unfold insert? at inserted
  split at inserted
  next free =>
    cases inserted
    refine ⟨free, fun _ => ?_⟩
    simp [← mem_rows]
  next => cases inserted

theorem insertAll?_eq_some [DecidableRel Clash]
    (inserted : t.insertAll? new = some u) (row : ι × π) : row ∈ u ↔ row ∈ t ∨ row ∈ new := by
  induction new generalizing t with
  | nil =>
    cases inserted
    simp
  | cons _ _ ih =>
    simp only [insertAll?, Option.bind_eq_some_iff] at inserted
    obtain ⟨_, first, tail⟩ := inserted
    rw [ih tail, (insert?_eq_some first).2, mem_cons, or_assoc]

variable {f : π → π}

theorem mem_modify :
    row ∈ t.modify sel f ↔
      ∃ old ∈ t, row = if sel old.1 old.2 then (old.1, f old.2) else old := by
  simp only [← mem_rows, modify, mem_map, eq_comm]

/-- An update that writes what is there leaves the table as it is. -/
theorem modify_eq_self
    (keeps : ∀ row ∈ t, sel row.1 row.2 = true → f row.2 = row.2) : t.modify sel f = t := by
  have rows : (t.modify sel f).rows = t.rows := by
    conv_rhs => rw [← map_id t.rows]
    refine map_congr_left fun row member => ?_
    split
    next selected => rw [keeps row member selected, id]
    next => rfl
  simp only [modify] at rows ⊢
  congr

theorem mem_delete : row ∈ t.delete sel ↔ row ∈ t ∧ sel row.1 row.2 = false := by
  simp [← mem_rows, delete]

/-! ### Lookups by a key of the index

Rows that agree on the key clash, so the table is a partial function of the key
and every statement acts on it as on a function. -/

section Lookup

variable {κ : Type} [DecidableEq κ] {k : ι → κ}

/-- The row with the given key. -/
def find (t : Table ι π Clash) (k : ι → κ) (x : κ) : Option (ι × π) := t.select? fun i => k i == x

variable {x : κ}

theorem find_eq_none : t.find k x = none ↔ ∀ row ∈ t, k row.1 ≠ x := by
  simp [find, select?_eq_none]

variable (one : ∀ i j, k i = k j → Clash i j)

include one

theorem find_eq_some : t.find k x = some row ↔ row ∈ t ∧ k row.1 = x := by
  have within : ∀ i j, (k i == x) = true → (k j == x) = true → Clash i j := by
    intro i j first second
    exact one i j ((eq_of_beq first).trans (eq_of_beq second).symm)
  rw [find, select?_eq_some within, beq_iff_eq]

theorem find_insert? [DecidableRel Clash] (inserted : t.insert? index payload = some u) :
    t.find k (k index) = none ∧
      u.find k = update (t.find k) (k index) (some (index, payload)) := by
  obtain ⟨free, members⟩ := insert?_eq_some inserted
  refine ⟨find_eq_none.mpr fun row member same => free row member (one _ _ same), ?_⟩
  -- at the new key nothing else can be found, at the others the new row is not
  funext x
  ext row
  rw [update_apply]
  by_cases same : x = k index
  · subst same
    rw [if_pos rfl, find_eq_some one, members, Option.some.injEq]
    constructor
    · rintro ⟨member | rfl, agrees⟩
      · exact absurd (one _ _ agrees) (free row member)
      · rfl
    · rintro rfl
      exact ⟨Or.inr rfl, rfl⟩
  · rw [if_neg same, find_eq_some one, find_eq_some one, members]
    constructor
    · rintro ⟨member | rfl, agrees⟩
      · exact ⟨member, agrees⟩
      · exact absurd agrees.symm same
    · exact fun ⟨member, agrees⟩ => ⟨Or.inl member, agrees⟩

/-- An update of the rows with one key, under a further condition. -/
theorem find_modify {c : π → Bool} :
    (t.modify (fun i p => k i == x && c p) f).find k =
      update (t.find k) x
        ((t.find k x).map fun row => if c row.2 then (row.1, f row.2) else row) := by
  -- updates leave the index alone
  have kept (old : ι × π) (b : Bool) : k (if b then (old.1, f old.2) else old).1 = k old.1 := by
    cases b <;> rfl
  funext y
  ext row
  rw [update_apply, find_eq_some one, mem_modify]
  by_cases same : y = x
  · subst same
    rw [if_pos rfl, Option.map_eq_some_iff]
    constructor
    · rintro ⟨⟨old, member, rfl⟩, agrees⟩
      rw [kept] at agrees
      refine ⟨old, (find_eq_some one).mpr ⟨member, agrees⟩, ?_⟩
      simp [agrees]
    · rintro ⟨old, found, rfl⟩
      obtain ⟨member, agrees⟩ := (find_eq_some one).mp found
      exact ⟨⟨old, member, by simp [agrees]⟩, (kept old _).trans agrees⟩
  · rw [if_neg same, find_eq_some one]
    constructor
    · rintro ⟨⟨old, member, rfl⟩, agrees⟩
      rw [kept] at agrees
      have untouched : (k old.1 == x) = false := by simp [agrees, same]
      rw [untouched, Bool.false_and, if_neg Bool.false_ne_true]
      exact ⟨member, agrees⟩
    · rintro ⟨member, agrees⟩
      refine ⟨⟨row, member, ?_⟩, agrees⟩
      have untouched : (k row.1 == x) = false := by simp [agrees, same]
      rw [untouched, Bool.false_and, if_neg Bool.false_ne_true]

/-- An update of the row with one key. -/
theorem find_modify_key (stored : t.find k x = some row) :
    (t.modify (fun i _ => k i == x) f).find k =
      update (t.find k) x (some (row.1, f row.2)) := by
  have written := find_modify (t := t) one (x := x) (c := fun _ => true) (f := f)
  simp only [Bool.and_true, stored, Option.map_some, if_true] at written
  exact written

/-- A table that differs from another in the row of one key. -/
theorem mem_of_find_update (rows : u.find k = update (t.find k) x new) (member : row ∈ u) :
    row ∈ t ∨ k row.1 = x ∧ new = some row := by
  have found : u.find k (k row.1) = some row := (find_eq_some one).mpr ⟨member, rfl⟩
  rw [rows, update_apply] at found
  split at found
  next same => exact Or.inr ⟨same, found⟩
  next => exact Or.inl ((find_eq_some one).mp found).1

theorem find_delete :
    (t.delete sel).find k x = (t.find k x).filter fun row => !sel row.1 row.2 := by
  ext row
  rw [find_eq_some one, mem_delete, Option.filter_eq_some_iff, find_eq_some one]
  simp only [Bool.not_eq_true']
  tauto

/-- A deletion of the row with one key. -/
theorem find_delete_key : (t.delete fun i _ => k i == x).find k = update (t.find k) x none := by
  funext y
  rw [find_delete one, update_apply]
  cases found : t.find k y with
  | none => simp
  | some =>
    have key := ((find_eq_some one).mp found).2
    by_cases same : y = x
    · simp [key, same]
    · simp [key, same]

end Lookup

/-! ### Tables whose index is the primary key -/

section PrimaryKey

variable {κ : Type} [DecidableEq κ] {t u : Table κ π Eq} {x : κ}

/-- The columns beside the primary key. -/
def get? (t : Table κ π Eq) (x : κ) : Option π := (t.find id x).map (·.2)

variable {p : π}

theorem get?_eq_some : t.get? x = some p ↔ (x, p) ∈ t := by
  simp only [get?, Option.map_eq_some_iff, find_eq_some (k := id) fun _ _ same => same]
  constructor
  · rintro ⟨⟨y, q⟩, ⟨member, rfl⟩, rfl⟩
    exact member
  · intro member
    exact ⟨(x, p), ⟨member, rfl⟩, rfl⟩

theorem get?_eq_none : t.get? x = none ↔ ∀ row ∈ t, row.1 ≠ x := by
  simp [get?, find_eq_none]

theorem select?_primary (t : Table κ π Eq) (x : κ) :
    t.select? (· == x) = (t.get? x).map fun p => (x, p) := by
  have within : ∀ i j, (i == x) = true → (j == x) = true → i = j := by
    intro i j first second
    exact (eq_of_beq first).trans (eq_of_beq second).symm
  ext row
  rw [select?_eq_some within, Option.map_eq_some_iff, beq_iff_eq]
  constructor
  · rintro ⟨member, rfl⟩
    exact ⟨row.2, get?_eq_some.mpr member, rfl⟩
  · rintro ⟨p, found, rfl⟩
    exact ⟨get?_eq_some.mp found, rfl⟩

theorem get?_of_find (rows : u.find id = update (t.find id) x new) :
    u.get? = update t.get? x (new.map (·.2)) := by
  funext y
  rw [get?, rows, update_apply, update_apply]
  split <;> rfl

theorem get?_insert? (inserted : t.insert? x p = some u) :
    t.get? x = none ∧ u.get? = update t.get? x (some p) := by
  obtain ⟨absent, rows⟩ := find_insert? (k := id) (fun _ _ same => same) inserted
  have absent : t.find id x = none := absent
  exact ⟨by rw [get?, absent, Option.map_none], get?_of_find rows⟩

theorem get?_modify {c : π → Bool} :
    (t.modify (fun i p => i == x && c p) f).get? =
      update t.get? x ((t.get? x).map fun p => if c p then f p else p) := by
  have rows := find_modify (t := t) (k := id) (fun _ _ same => same) (x := x) (c := c) (f := f)
  refine (get?_of_find rows).trans ?_
  rw [get?, Option.map_map, Option.map_map]
  congr 2
  funext row
  dsimp only [comp]
  split <;> rfl

theorem get?_modify_key (stored : t.get? x = some p) :
    (t.modify (fun i _ => i == x) f).get? = update t.get? x (some (f p)) := by
  have written := get?_modify (t := t) (x := x) (c := fun _ => true) (f := f)
  simp only [Bool.and_true, stored, Option.map_some, if_true] at written
  exact written

theorem get?_delete_key : (t.delete fun i _ => i == x).get? = update t.get? x none :=
  get?_of_find (find_delete_key fun _ _ same => same)

/-- An insertion is refused only where the key is there. -/
theorem get?_of_refused (refused : t.insert? x p = none) : t.get? x ≠ none := by
  intro absent
  have free : ∀ row ∈ t.rows, ¬row.1 = x := get?_eq_none.mp absent
  rw [insert?, dif_pos free] at refused
  cases refused

theorem get?_upsert : (t.upsert x p).get? = update t.get? x (some p) := by
  unfold upsert
  cases inserted : t.insert? x p with
  | some =>
    exact (get?_insert? inserted).2
  | none =>
    cases stored : t.get? x with
    | some =>
      rw [Option.getD_none]
      exact get?_modify_key stored
    | none => exact absurd stored (get?_of_refused inserted)

/-! The keys of a table after insertions. -/

theorem get?_insertOrIgnore_ne_none :
    (t.insertOrIgnore x p).get? y ≠ none ↔ t.get? y ≠ none ∨ y = x := by
  unfold insertOrIgnore
  cases inserted : t.insert? x p with
  | some =>
    rw [Option.getD_some, (get?_insert? inserted).2, update_apply]
    split
    next same => simp [same]
    next different => simp [different]
  | none =>
    constructor
    · exact Or.inl
    · rintro (there | rfl)
      · exact there
      · exact get?_of_refused inserted

theorem get?_foldl_insertOrIgnore_ne_none {new : List (κ × π)} :
    (new.foldl (fun t row => t.insertOrIgnore row.1 row.2) t).get? y ≠ none ↔
      t.get? y ≠ none ∨ ∃ row ∈ new, row.1 = y := by
  induction new generalizing t with
  | nil => simp
  | cons _ _ ih =>
    rw [foldl_cons, ih, get?_insertOrIgnore_ne_none, or_assoc]
    simp only [exists_mem_cons_iff, eq_comm]

theorem get?_insertAll?_ne_none (inserted : t.insertAll? new = some u) :
    u.get? y ≠ none ↔ t.get? y ≠ none ∨ ∃ row ∈ new, row.1 = y := by
  simp only [ne_eq, get?_eq_none, insertAll?_eq_some inserted, not_forall, not_not, exists_prop,
    or_and_right, exists_or]

end PrimaryKey
end Table
