import Mathlib

/-!
# Computations on a mutable state

A method that takes its receiver by mutable reference and may fail is an
`EStateM`: a failure keeps whatever was written before it. The rules invert a
sequence of reads, checks and writes, for both ways it can end.
-/
namespace Stateful

variable {ε σ α β : Type}

/-- Run a check that does not touch the state. -/
def check (x : Except ε α) : EStateM ε σ α := fun s =>
  match x with
  | .ok a => .ok a s
  | .error e => .error e s

/-- The outcome of a run whose state is discarded on failure. -/
def toExcept : EStateM.Result ε σ α → Except ε (α × σ)
  | .ok a s => .ok (a, s)
  | .error e _ => .error e

/-- The outcome of a run together with the state it leaves. -/
def run (x : EStateM ε σ α) (s : σ) : Except ε α × σ :=
  match x s with
  | .ok a t => (.ok a, t)
  | .error e t => (.error e, t)

variable {s : σ}

@[simp] theorem toExcept_eq_ok : toExcept r = .ok (a, s) ↔ r = .ok a s := by
  cases r <;> simp [toExcept]

variable {x : EStateM ε σ α} {f : α → EStateM ε σ β} {t : σ}

theorem bind_ok : (x >>= f) s = .ok b t ↔ ∃ a u, x s = .ok a u ∧ f a u = .ok b t := by
  simp only [bind, EStateM.bind]
  cases x s <;> simp

theorem bind_error :
    (x >>= f) s = .error e t ↔ x s = .error e t ∨ ∃ a u, x s = .ok a u ∧ f a u = .error e t := by
  simp only [bind, EStateM.bind]
  cases x s <;> simp

@[simp] theorem check_ok {x : Except ε α} : check x s = .ok a t ↔ x = .ok a ∧ t = s := by
  cases x <;> simp [check, eq_comm]

@[simp] theorem get_ok : (get : EStateM ε σ σ) s = .ok a t ↔ a = s ∧ t = s := by
  simp [get, getThe, MonadStateOf.get, EStateM.get, eq_comm]

@[simp] theorem set_ok : (set new : EStateM ε σ PUnit) s = .ok u t ↔ t = new := by
  simp [set, EStateM.set, eq_comm]

@[simp] theorem set_error {new : σ} : (set new : EStateM ε σ PUnit) s = .error e t ↔ False := by
  simp [set, EStateM.set]

@[simp] theorem pure_ok : (pure a : EStateM ε σ α) s = .ok b t ↔ b = a ∧ t = s := by
  simp [pure, EStateM.pure, eq_comm]

@[simp] theorem pure_error : (pure a : EStateM ε σ α) s = .error e t ↔ False := by
  simp [pure, EStateM.pure]

/-! ### Running a sequence -/

theorem check_bind (x : Except ε α) (f : α → EStateM ε σ β) (s : σ) :
    (check x >>= f) s = match x with
      | .ok a => f a s
      | .error e => .error e s := by
  cases x <;> rfl

theorem get_bind (f : σ → EStateM ε σ β) (s : σ) : (get >>= f) s = f s s := rfl

theorem set_bind (new : σ) (f : PUnit → EStateM ε σ β) (s : σ) : (set new >>= f) s = f ⟨⟩ new := rfl

/-! ### Computations that write last -/

/-- The state after a run, however it ended. -/
def after : EStateM.Result ε σ α → σ
  | .ok _ s => s
  | .error _ s => s

theorem after_of_run (ran : run x s = (r, t)) : after (x s) = t := by
  unfold run at ran
  cases outcome : x s with
  | ok | error =>
    rw [outcome] at ran
    exact (Prod.mk.inj ran).2

/-- A failure leaves the state as it was. -/
def FailsClean (x : EStateM ε σ α) : Prop := ∀ s e t, x s = .error e t → t = s

/-- A computation that fails clean and does not return leaves the state alone. -/
theorem FailsClean.refused (clean : FailsClean x) (never : ∀ a t, x s ≠ .ok a t) :
    ∃ e, x s = .error e s := by
  cases ran : x s with
  | ok a t => exact absurd ran (never a t)
  | error e t => exact ⟨e, by rw [clean s e t ran]⟩

theorem failsClean_pure (a : α) : FailsClean (pure a : EStateM ε σ α) := by
  intro s e t failed
  simp at failed

theorem failsClean_set (new : σ) : FailsClean (set new : EStateM ε σ PUnit) := by
  intro s e t failed
  simp at failed

/-- A write that only a plain return follows. -/
theorem failsClean_set_pure (new : σ) (a : α) :
    FailsClean (set new >>= fun _ => pure a : EStateM ε σ α) := by
  intro s e t failed
  rcases bind_error.mp failed with stopped | ⟨_, _, _, rest⟩
  · simp at stopped
  · simp at rest

/-! Reads and checks may precede any computation that fails clean. -/

theorem FailsClean.afterGet {f : σ → EStateM ε σ β} (clean : ∀ a, FailsClean (f a)) :
    FailsClean (get >>= f) := fun s => clean s s

theorem FailsClean.afterCheck {x : Except ε α} (clean : ∀ a, FailsClean (f a)) :
    FailsClean (check x >>= f) := by
  intro s e t failed
  cases x with
  | ok a => exact clean a s e t failed
  | error =>
    cases failed
    rfl

end Stateful
