import KeyRack.Lib.Trace

/-!
# How a store evolves

A store is a partial function. It evolves along a relation `R` when every value
that is there stays or is replaced by one that `R` allows; nothing is removed.
Monotone counters, latches and "once present, always present" are all of this
shape, and they compose along a run when `R` is reflexive and transitive.
-/
namespace Store

variable {κ α : Type} {R : α → α → Prop} {s t u : κ → Option α}

def Evolves (R : α → α → Prop) (s t : κ → Option α) : Prop :=
  ∀ x a, s x = some a → ∃ b, t x = some b ∧ R a b

theorem Evolves.refl (refl : ∀ a, R a a) (s : κ → Option α) : Evolves R s s :=
  fun _ a present => ⟨a, present, refl a⟩

theorem Evolves.trans (trans : ∀ a b c, R a b → R b c → R a c) (first : Evolves R s t)
    (second : Evolves R t u) : Evolves R s u := by
  intro x a present
  obtain ⟨b, middle, ab⟩ := first x a present
  obtain ⟨c, final, bc⟩ := second x b middle
  exact ⟨c, final, trans a b c ab bc⟩

/-- A store that evolves in every step evolves along a trace. -/
theorem Evolves.of_steps {σ β : Type} {Step : σ → β → σ → Prop} {view : σ → κ → Option α}
    (refl : ∀ a, R a a) (trans : ∀ a b c, R a b → R b c → R a c)
    (one : ∀ s a t, Step s a t → Evolves R (view s) (view t)) {s t : σ} {labels : List β}
    (steps : Trace.Steps Step s labels t) : Evolves R (view s) (view t) :=
  steps.relates_of_step (R := fun s t => Evolves R (view s) (view t))
    (fun s => .refl refl (view s)) (fun _ _ _ => .trans trans) one

variable [DecidableEq κ]

/-- One write: the old value, if any, is related to the new one. -/
theorem Evolves.update (refl : ∀ a, R a a) (allowed : ∀ old, s x = some old → R old new) :
    Evolves R s (Function.update s x (some new)) := by
  intro y a present
  by_cases same : y = x
  · subst same
    exact ⟨new, by rw [Function.update_self], allowed a present⟩
  · exact ⟨a, by rw [Function.update_of_ne same, present], refl a⟩

/-! ### Version counters -/

/-- The counter only grows, and equal counters mean the same value. -/
def NewerOrSame (version : α → Nat) (a b : α) : Prop :=
  version a ≤ version b ∧ (version b = version a → b = a)

theorem NewerOrSame.refl (version : α → Nat) (a : α) : NewerOrSame version a a :=
  ⟨Nat.le_refl _, fun _ => rfl⟩

theorem NewerOrSame.trans (version : α → Nat) (a b c : α) (ab : NewerOrSame version a b)
    (bc : NewerOrSame version b c) : NewerOrSame version a c := by
  refine ⟨Nat.le_trans ab.1 bc.1, fun same => ?_⟩
  -- a counter that came back to where it was never left
  have middle : version b = version a := Nat.le_antisymm (same ▸ bc.1) ab.1
  rw [bc.2 (same.trans middle.symm), ab.2 middle]

theorem NewerOrSame.of_succ (next : version b = version a + 1) : NewerOrSame version a b :=
  ⟨next ▸ Nat.le_succ _, fun same => absurd (next.symm.trans same) (Nat.succ_ne_self _)⟩

end Store
