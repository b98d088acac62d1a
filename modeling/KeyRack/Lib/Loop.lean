import Mathlib

/-!
# Loops

An unbounded `loop` whose body fails, leaves the loop or goes round again. A run
is cut after a number of iterations, so that termination is a statement: from
some number of iterations on, the run has returned.
-/
namespace Loop

variable {ε ρ σ : Type}

/-- How an iteration of the body ends. -/
inductive Control (ρ σ : Type) where
  | done (result : ρ)
  | next (state : σ)

/-- At most the given number of iterations; `none` while still running. -/
def run (body : σ → Except ε (Control ρ σ)) : Nat → σ → Option (Except ε ρ)
  | 0, _ => none
  | fuel + 1, s =>
    match body s with
    | .error e => some (.error e)
    | .ok (.done result) => some (.ok result)
    | .ok (.next s) => run body fuel s

variable {body : σ → Except ε (Control ρ σ)} {fuel : Nat}

/-- A run that has returned returns the same with more iterations allowed. -/
theorem run_mono (le : fuel ≤ more)
    (returned : run body fuel s = some result) : run body more s = some result := by
  induction fuel generalizing more s with
  | zero => simp [run] at returned
  | succ _ ih =>
    obtain ⟨more, rfl⟩ : ∃ m, more = m + 1 := ⟨more - 1, by omega⟩
    simp only [run] at returned ⊢
    split at returned
    next => exact returned
    next => exact returned
    -- only another round uses the allowance
    next => exact ih (by omega) returned

/-- A run that has returned did so in a state that the invariant holds in. -/
theorem run_last {inv : σ → Prop} (kept : ∀ s s', inv s → body s = .ok (.next s') → inv s')
    (holds : inv s) (returned : run body fuel s = some result) :
    ∃ s', inv s' ∧ body s' = result.map .done := by
  induction fuel generalizing s with
  | zero => simp [run] at returned
  | succ _ ih =>
    rw [run] at returned
    split at returned
    next failed =>
      cases returned
      exact ⟨s, holds, failed⟩
    next last =>
      cases returned
      exact ⟨s, holds, last⟩
    next s' round => exact ih (kept s s' holds round) returned

/-- A measure that every further iteration lowers, from the states of an invariant,
    bounds the iterations. -/
theorem run_returns {inv : σ → Prop} (kept : ∀ s s', inv s → body s = .ok (.next s') → inv s')
    (measure : σ → Nat)
    (lowers : ∀ s s', inv s → body s = .ok (.next s') → measure s' < measure s)
    (holds : inv s) (enough : measure s < fuel) : ∃ result, run body fuel s = some result := by
  induction fuel generalizing s with
  | zero => omega
  | succ _ ih =>
    simp only [run]
    split
    next => exact ⟨_, rfl⟩
    next => exact ⟨_, rfl⟩
    next s' round =>
      have lower := lowers s s' holds round
      exact ih (kept s s' holds round) (by omega)

end Loop
