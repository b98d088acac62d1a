import Mathlib

/-!
# Traces of a labelled step relation

A trace is a finite sequence of steps with their labels. Safety results have one
of two shapes: a predicate that every step keeps, or a reflexive and transitive
relation between the states at the two ends.
-/
namespace Trace

variable {σ α : Type}

inductive Steps (Step : σ → α → σ → Prop) : σ → List α → σ → Prop where
  | nil (s : σ) : Steps Step s [] s
  | cons {s t u : σ} {a : α} {labels : List α} (first : Step s a t)
      (rest : Steps Step t labels u) : Steps Step s (a :: labels) u

variable {past : List α}

/-- An event of a history that got one more is an old one or the new one. -/
theorem mem_concat : a ∈ past ++ [b] ↔ a ∈ past ∨ a = b := by
  simp

variable {Step : σ → α → σ → Prop}

namespace Steps

variable {labels : List α} {s t : σ}

/-- A predicate that every step keeps holds at the end if it holds at the start. -/
theorem invariant {P : σ → Prop} (keeps : ∀ s a t, Step s a t → P s → P t)
    (steps : Steps Step s labels t) (start : P s) : P t := by
  induction steps with
  | nil => exact start
  | cons first _ ih => exact ih (keeps _ _ _ first start)

/-- A reflexive and transitive relation that contains every step from a state
    satisfying an invariant relates the two ends. -/
theorem relates {P : σ → Prop} {R : σ → σ → Prop} (keeps : ∀ s a t, Step s a t → P s → P t)
    (refl : ∀ s, R s s) (trans : ∀ s t u, R s t → R t u → R s u)
    (one : ∀ s a t, Step s a t → P s → R s t) (steps : Steps Step s labels t) (start : P s) :
    R s t := by
  induction steps with
  | nil => exact refl _
  | cons first _ ih => exact trans _ _ _ (one _ _ _ first start) (ih (keeps _ _ _ first start))

/-- A reflexive and transitive relation that contains every step. -/
theorem relates_of_step {R : σ → σ → Prop} (refl : ∀ s, R s s)
    (trans : ∀ s t u, R s t → R t u → R s u) (one : ∀ s a t, Step s a t → R s t)
    (steps : Steps Step s labels t) : R s t :=
  steps.relates (P := fun _ => True) (fun _ _ _ _ _ => trivial) refl trans
    (fun _ _ _ first _ => one _ _ _ first) trivial

/-- A predicate on the labels so far and the state, kept by every step. -/
theorem history {P : List α → σ → Prop}
    (keeps : ∀ past s a t, Step s a t → P past s → P (past ++ [a]) t)
    (steps : Steps Step s labels t) (start : P past s) : P (past ++ labels) t := by
  -- the past grows along the trace, so it is generalized
  induction steps generalizing past with
  | nil =>
    rw [List.append_nil]
    exact start
  | cons first _ ih =>
    have later := ih (keeps past _ _ _ first start)
    rwa [List.append_assoc] at later

theorem imp (weaker : ∀ s a t, Step s a t → Step' s a t)
    (steps : Steps Step s labels t) : Steps Step' s labels t := by
  induction steps with
  | nil => exact .nil _
  | cons first _ ih => exact .cons (weaker _ _ _ first) ih

/-- What holds of all labels may be assumed of every step. -/
theorem restrict {Q : α → Prop} (steps : Steps Step s labels t) (all : ∀ a ∈ labels, Q a) :
    Steps (fun s a t => Step s a t ∧ Q a) s labels t := by
  induction steps with
  | nil => exact .nil _
  | cons first _ ih =>
    obtain ⟨head, tail⟩ := List.forall_mem_cons.mp all
    exact .cons ⟨first, head⟩ (ih tail)

theorem append (first : Steps Step s before t)
    (second : Steps Step t after u) : Steps Step s (before ++ after) u := by
  induction first with
  | nil => exact second
  | cons head _ ih => exact .cons head (ih second)

theorem split (steps : Steps Step s (before ++ after) u) :
    ∃ t, Steps Step s before t ∧ Steps Step t after u := by
  induction before generalizing s with
  | nil => exact ⟨s, .nil s, steps⟩
  | cons _ _ ih =>
    obtain - | ⟨first, rest⟩ := steps
    obtain ⟨t, earlier, later⟩ := ih rest
    exact ⟨t, .cons first earlier, later⟩

/-- The step at a position, and the parts of the trace around it. -/
theorem at_position (steps : Steps Step s labels u)
    (found : labels[n]? = some a) : ∃ t t', Steps Step s (labels.take n) t ∧ Step t a t' ∧
      Steps Step t' (labels.drop (n + 1)) u := by
  induction steps generalizing n with
  | nil => simp at found
  | cons first rest ih =>
    cases n with
    | zero =>
      cases found
      exact ⟨_, _, .nil _, first, rest⟩
    | succ =>
      obtain ⟨t, t', before, step, later⟩ := ih found
      exact ⟨t, t', .cons first before, step, later⟩

end Steps

/-! ### Playing a list of calls -/

variable {β : Type}

/-- Make the calls in order and pair each with its reply. -/
def play (next : σ → α → β × σ) : σ → List α → List (α × β) × σ
  | s, [] => ([], s)
  | s, a :: calls =>
    let later := play next (next s a).2 calls
    ((a, (next s a).1) :: later.1, later.2)

theorem map_fst_play (next : σ → α → β × σ) (s : σ) (calls : List α) :
    (play next s calls).1.map Prod.fst = calls := by
  induction calls generalizing s with
  | nil => rfl
  | cons a _ ih => exact congrArg (a :: ·) (ih (next s a).2)

/-- Played calls make a trace; what is allowed of each call in any state holds of
    its step. -/
theorem steps_play (next : σ → α → β × σ) (allowed : σ → α → Prop) (s : σ) (calls : List α)
    (all : ∀ a ∈ calls, ∀ s, allowed s a) :
    Steps (fun s label t => next s label.1 = (label.2, t) ∧ allowed s label.1) s
      (play next s calls).1 (play next s calls).2 := by
  induction calls generalizing s with
  | nil => exact .nil s
  | cons a _ ih =>
    obtain ⟨first, rest⟩ := List.forall_mem_cons.mp all
    exact .cons ⟨rfl, first s⟩ (ih (next s a).2 rest)

end Trace
