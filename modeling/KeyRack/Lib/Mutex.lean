import Mathlib

/-!
# A lock with a queue

A mutual-exclusion lock that is handed over in the order of the requests: a
release gives the lock to the first in the queue at once, before that one runs
again. It can also be tried without waiting, which succeeds only while nobody has
it. Who stops waiting leaves the queue, and passes the lock on if it had been
handed over already.
-/
structure Mutex (ι : Type) where
  holder : Option ι
  waiting : List ι

namespace Mutex

variable {ι : Type} [DecidableEq ι]

def unlocked : Mutex ι := ⟨none, []⟩

/-- Take the lock if nobody has it, queue otherwise. -/
def request (m : Mutex ι) (i : ι) : Mutex ι :=
  match m.holder with
  | none => { m with holder := some i }
  | some _ => { m with waiting := m.waiting ++ [i] }

def release (m : Mutex ι) : Mutex ι :=
  match m.waiting with
  | [] => { m with holder := none }
  | next :: rest => ⟨some next, rest⟩

/-- Give up a request, granted or not. -/
def abandon (m : Mutex ι) (i : ι) : Mutex ι :=
  if m.holder = some i then m.release else { m with waiting := m.waiting.erase i }

/-- Whether `try_lock` succeeds. -/
def isFree (m : Mutex ι) : Bool := m.holder.isNone

theorem isFree_abandon {m : Mutex ι} :
    (m.abandon i).isFree = true ↔ m.isFree = true ∨ m.holder = some i ∧ m.waiting = [] := by
  unfold abandon isFree release
  by_cases held : m.holder = some i
  · cases queue : m.waiting with
    | nil => simp [held]
    | cons => simp [held]
  · simp [held]

end Mutex
