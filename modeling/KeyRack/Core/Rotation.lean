import KeyRack.Core.Lid

/-!
# Rotation jobs

A cooperative rotation job and the mutators of its state. A mutator has the job by
reference, so the job that it leaves stands beside its result, also if it refuses. The
clock is an argument.
-/
namespace KeyRack

inductive RotationJobState where
  | pending
  | acknowledged
  | completed
  | failed
  | expired
  deriving DecidableEq

namespace RotationJobState

def validTransitions : RotationJobState → List RotationJobState
  | .pending => [.acknowledged, .expired]
  | .acknowledged => [.completed, .failed, .expired]
  | .completed | .failed | .expired => []

def canTransitionTo (state target : RotationJobState) : Bool :=
  state.validTransitions.contains target

def isTerminal : RotationJobState → Bool
  | .completed | .failed | .expired => true
  | _ => false

end RotationJobState

structure RotationJob where
  jobId : String
  parentLid : Lid
  dependentLid : Lid
  newVersion : Nat
  state : RotationJobState
  createdAt : DateTime
  expiresAt : DateTime
  acknowledgedAt : Option DateTime
  completedAt : Option DateTime
  failureReason : Option String

def defaultExpirySecs : Int := 24 * 60 * 60

abbrev Transition : Type := Except (RotationJobState × RotationJobState) Unit

namespace RotationJob

def new (jobId : String) (parentLid dependentLid : Lid) (newVersion : Nat) (now : DateTime) :
    RotationJob where
  jobId
  parentLid
  dependentLid
  newVersion
  state := .pending
  createdAt := now
  expiresAt := now + defaultExpirySecs * 10 ^ 9
  acknowledgedAt := none
  completedAt := none
  failureReason := none

def transitionTo (job : RotationJob) (target : RotationJobState) (now : DateTime) :
    Transition × RotationJob :=
  if !job.state.canTransitionTo target then (.error (job.state, target), job)
  else
    let stamped := match target with
      | .acknowledged => { job with acknowledgedAt := some now }
      | .completed => { job with completedAt := some now }
      | _ => job
    (.ok (), { stamped with state := target })

def fail (job : RotationJob) (reason : String) (now : DateTime) : Transition × RotationJob :=
  -- the reason is stored before the transition is checked
  { job with failureReason := some reason }.transitionTo .failed now

end RotationJob

/-- A call of a mutator, with the time that it reads. -/
inductive JobCall where
  | transitionTo (target : RotationJobState) (now : DateTime)
  | fail (reason : String) (now : DateTime)

def JobCall.run (job : RotationJob) : JobCall → Transition × RotationJob
  | .transitionTo target now => job.transitionTo target now
  | .fail reason now => job.fail reason now

end KeyRack
