import Mathlib

/-!
# Things with one owner

Each of a number of things has at most one owner. A step moves some of them to one
place; what it moves has left the owner before.
-/
namespace Ownership

variable {Owner Thing : Type}

/-- No thing has two owners. -/
def Sole (holds : Owner → Thing → Prop) : Prop :=
  ∀ o o' n, holds o n → holds o' n → o = o'

/-- What has moved is with its new owner only; nothing else changed hands. -/
theorem Sole.move (sole : Sole holds) (new : Owner → Thing → Prop) (single : Sole new)
    (left : ∀ o n, new o n → (∀ o, ¬holds o n) ∨ ∃ o, holds o n ∧ ¬holds' o n)
    (kept : ∀ o n, holds' o n → holds o n ∨ new o n) : Sole holds' := by
  -- a thing that moved is nowhere but with its new owner
  have there (o o' : Owner) (n : Thing) (moved : new o n) (holder : holds' o' n) : new o' n := by
    rcases kept o' n holder with before | same
    · rcases left o n moved with nobody | ⟨source, gave, gone⟩
      · exact absurd before (nobody o')
      · rw [sole o' source n before gave] at holder
        exact absurd holder gone
    · exact same
  intro o o' n first second
  rcases kept o n first with before | moved
  · rcases kept o' n second with before' | moved
    · exact sole o o' n before before'
    · exact single o o' n (there o' o n moved first) moved
  · exact single o o' n moved (there o o' n moved second)

end Ownership
