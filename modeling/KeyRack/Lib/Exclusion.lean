import Mathlib

/-!
# Exclusion between holders

A system has holders, and each holder names some resources. Conflicting holders
must not be active on a common resource. The rule below is the one that admission
checks rely on: holders may always leave, and those that enter together conflict
neither with each other nor with what is active on their resources.
-/
namespace Exclusion

variable {η ρ : Type} {names : η → ρ → Prop} {Conflict : η → η → Prop} {active later : η → Prop}

/-- Active holders that conflict share no resource. -/
def Exclusive (names : η → ρ → Prop) (Conflict : η → η → Prop) (active : η → Prop) : Prop :=
  ∀ a b, active a → active b → Conflict a b → ∀ r, names a r → ¬names b r

/-- Nothing active that conflicts with `new` shares a resource with it. -/
def Admissible (names : η → ρ → Prop) (Conflict : η → η → Prop) (active : η → Prop) (new : η) :
    Prop := ∀ a, active a → Conflict a new → ∀ r, names a r → ¬names new r

theorem Exclusive.of_inactive (none : ∀ a, ¬active a) : Exclusive names Conflict active :=
  fun a _ first => absurd first (none a)

theorem Exclusive.step {entered : η → Prop} (exclusive : Exclusive names Conflict active)
    (symm : ∀ a b, Conflict a b → Conflict b a)
    (apart : ∀ a b, entered a → entered b → ¬Conflict a b)
    (gained : ∀ a, later a → active a ∨ entered a ∧ Admissible names Conflict active a) :
    Exclusive names Conflict later := by
  intro a b first second conflict r namesA namesB
  -- one of two conflicting holders was there first, and the other was checked against it
  rcases gained a first with first | ⟨enteredA, admissibleA⟩
  · rcases gained b second with second | ⟨_, admissibleB⟩
    · exact exclusive a b first second conflict r namesA namesB
    · exact admissibleB a first conflict r namesA namesB
  · rcases gained b second with second | ⟨enteredB, _⟩
    · exact admissibleA b second (symm a b conflict) r namesB namesA
    · exact apart a b enteredA enteredB conflict

end Exclusion
