import Mathlib

/-!
# The release policy

The transition kernel of the worker's transport: whether an authority's window
admits a release, and what a release does to the phase of its delivery. The caller
holds the lock of the transport around every operation, so that nothing happens
between the admission and the write.
-/
namespace KeyRack.Worker

structure Policy where
  generation : Option Nat := none
  fenced : Bool := false
  stopped : Bool := false
  deriving DecidableEq, Repr

structure Window where
  -- the authority names exactly this incarnation
  incarnationMatches : Bool
  generation : Nat
  notBefore : Nat
  expires : Nat
  deriving DecidableEq, Repr

inductive Phase where
  | pending
  | committed
  | suppressed
  -- a failed write may have exposed bytes of the capsule
  | indeterminate
  deriving DecidableEq, Repr

namespace Policy

def allows (policy : Policy) (w : Window) (now : Nat) : Bool :=
  !policy.stopped && !policy.fenced && w.incarnationMatches && w.generation != 0 &&
    (match policy.generation with
      | none => true
      | some g => g == w.generation) &&
    decide (w.notBefore ≤ now) && decide (now < w.expires)

/-- The first admitted window fixes the generation. -/
def admits (policy : Policy) (w : Window) (now : Nat) : Bool × Policy :=
  if policy.allows w now then (true, { policy with generation := some w.generation })
  else (false, policy)

def fence (policy : Policy) (validated : Bool) : Bool × Policy :=
  if validated then (true, { policy with fenced := true }) else (false, policy)

def stop (policy : Policy) : Policy := { policy with stopped := true }

/-- The new phase and the result of a release. The write is made only for a pending
    delivery whose window is open; it reports whether the record went out. -/
def release {m : Type → Type} [Monad m] {ε : Type} (policy : Policy) (phase : Phase) (w : Window)
    (now : Nat) (write : m (Except ε Bool)) : m (Phase × Except ε Phase) :=
  if phase = .pending then
    if policy.allows w now then do
      match ← write with
      | .ok true => return (.committed, .ok .committed)
      -- a retry has to be admitted again
      | .ok false => return (.pending, .ok .pending)
      | .error e => return (.indeterminate, .error e)
    else return (.suppressed, .ok .suppressed)
  else return (phase, .ok phase)

/-- Nothing is admitted any more. -/
def closed (policy : Policy) : Bool := policy.stopped || policy.fenced

theorem not_closed_of_allows {policy : Policy} {w : Window} {now : Nat}
    (allowed : policy.allows w now = true) : policy.closed = false := by
  simp only [allows, Bool.and_eq_true, Bool.not_eq_true'] at allowed
  simp [closed, allowed]

end Policy
end KeyRack.Worker
