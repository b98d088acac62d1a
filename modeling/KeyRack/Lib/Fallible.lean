import Mathlib

/-!
# Fallible computations

Guards and their inversion. A successful run of a sequence of guards is the
conjunction of what each guard admits, so callers peel a computation apart with
these rules and never unfold it.
-/
namespace Fallible

variable {ε α β : Type}

/-- Stop with `e` when the condition holds. -/
def refuseIf (c : Prop) [Decidable c] (e : ε) : Except ε Unit :=
  if c then .error e else .ok ()

/-- The value of an option, or the given error. -/
def okOr (o : Option α) (e : ε) : Except ε α :=
  match o with
  | some a => .ok a
  | none => .error e

/-- Replace the error of a failed computation. -/
def mapErr {δ : Type} (x : Except δ α) (f : δ → ε) : Except ε α :=
  match x with
  | .ok a => .ok a
  | .error d => .error (f d)

variable {e : ε}

@[simp] theorem refuseIf_eq_ok {c : Prop} [Decidable c] : refuseIf c e = .ok u ↔ ¬c := by
  unfold refuseIf
  split <;> simp_all

variable {a : α}

@[simp] theorem okOr_eq_ok : okOr o e = .ok a ↔ o = some a := by
  cases o <;> simp [okOr]

@[simp] theorem mapErr_eq_ok : mapErr x f = .ok a ↔ x = .ok a := by
  cases x <;> simp [mapErr]

theorem ok_of_toOption {x : Except ε α} (found : x.toOption = some a) : x = .ok a := by
  cases x with
  | error => cases found
  | ok =>
    cases found
    rfl

variable {f : α → Except ε β}

theorem bind_eq_ok : (x >>= f) = .ok b ↔ ∃ a, x = .ok a ∧ f a = .ok b := by
  cases x <;> simp [bind, Except.bind]

/-! A failed sequence failed at one of its guards. -/

theorem bind_eq_error : (x >>= f) = .error e ↔ x = .error e ∨ ∃ a, x = .ok a ∧ f a = .error e := by
  cases x <;> simp [bind, Except.bind]

variable {e' : ε}

theorem refuseIf_eq_error {c : Prop} [Decidable c] : refuseIf c e = .error e' ↔ c ∧ e = e' := by
  unfold refuseIf
  split <;> simp_all

theorem okOr_eq_error : okOr o e = .error e' ↔ o = none ∧ e = e' := by
  cases o <;> simp [okOr]

theorem pure_eq_error : (pure a : Except ε α) = .error e ↔ False := by
  simp [pure, Except.pure]

theorem pure_eq_ok : (pure a : Except ε α) = .ok b ↔ a = b := by
  simp [pure, Except.pure]

/-- The rules above as one rewrite set: what a successful run says of its guards. -/
theorem eq_ok :
    (∀ {ε α β : Type} {f : α → Except ε β} {x : Except ε α} {b : β},
      (x >>= f) = .ok b ↔ ∃ a, x = .ok a ∧ f a = .ok b) ∧
    (∀ {ε α : Type} {a b : α}, (pure a : Except ε α) = .ok b ↔ a = b) ∧
    (∀ {ε : Type} {e : ε} {c : Prop} [Decidable c] {u : Unit}, refuseIf c e = .ok u ↔ ¬c) ∧
    (∀ {ε α : Type} {e : ε} {a : α} {o : Option α}, okOr o e = .ok a ↔ o = some a) ∧
    ∀ {ε δ α : Type} {a : α} {x : Except δ α} {f : δ → ε}, mapErr x f = .ok a ↔ x = .ok a :=
  ⟨bind_eq_ok, pure_eq_ok, refuseIf_eq_ok, okOr_eq_ok, mapErr_eq_ok⟩

/-- Run a check on every element, stopping at the first failure. -/
def checkAll (xs : List α) (f : α → Except ε Unit) : Except ε Unit :=
  match xs with
  | [] => .ok ()
  | x :: xs => do
    f x
    checkAll xs f

variable {xs : List α}

@[simp] theorem checkAll_eq_ok {f : α → Except ε Unit} :
    checkAll xs f = .ok u ↔ ∀ x ∈ xs, f x = .ok () := by
  induction xs with
  | nil => simp [checkAll]
  | cons x _ ih =>
    rw [checkAll, bind_eq_ok]
    constructor
    · rintro ⟨a, head, tail⟩ y member
      rcases List.mem_cons.mp member with rfl | member
      · exact head
      · exact ih.mp tail y member
    · intro all
      exact ⟨(), all x (by simp), ih.mpr fun y member => all y (by simp [member])⟩

/-- What every successful step of a fold keeps holds of its result. -/
theorem foldlM_invariant {f : β → α → Except ε β} {P : β → Prop}
    (keeps : ∀ b a b', f b a = .ok b' → P b → P b') (folded : xs.foldlM f b = .ok b')
    (start : P b) : P b' := by
  induction xs generalizing b with
  | nil =>
    cases pure_eq_ok.mp folded
    exact start
  | cons x _ ih =>
    rw [List.foldlM_cons, bind_eq_ok] at folded
    obtain ⟨middle, first, rest⟩ := folded
    exact ih rest (keeps b x middle first start)

/-- A `mapM` succeeds if all its elements do, with their results. -/
theorem mapM_eq_ok : xs.mapM f = .ok ys ↔ xs.map f = ys.map .ok := by
  induction xs generalizing ys with
  | nil => cases ys <;> simp [pure_eq_ok]
  | cons x _ ih =>
    simp only [List.mapM_cons, bind_eq_ok, pure_eq_ok, ih]
    cases ys with
    | nil => simp
    | cons => simp [eq_comm]

theorem mem_mapM (mapped : xs.mapM f = .ok ys) :
    (∀ x ∈ xs, ∃ y ∈ ys, f x = .ok y) ∧ ∀ y ∈ ys, ∃ x ∈ xs, f x = .ok y := by
  have same := mapM_eq_ok.mp mapped
  constructor
  · intro x member
    have image : f x ∈ xs.map f := List.mem_map_of_mem member
    rw [same] at image
    obtain ⟨y, member, ran⟩ := List.mem_map.mp image
    exact ⟨y, member, ran.symm⟩
  · intro y member
    have image : .ok y ∈ ys.map (@Except.ok ε β) := List.mem_map_of_mem member
    rw [← same] at image
    exact List.mem_map.mp image

end Fallible
