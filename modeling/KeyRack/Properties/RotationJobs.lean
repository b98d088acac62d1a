import KeyRack.Core.Rotation

/-!
# Calls on a rotation job

`fail` stores its reason before it knows whether the job may fail. A call sequence keeps
the fields of the job consistent exactly if no `fail` finds a job that is not
acknowledged, unless it repeats the reason that the job has.
-/
namespace KeyRack

namespace RotationJob

/-- The calls of a sequence, each with the job that it finds. -/
def visits (job : RotationJob) : List JobCall → List (RotationJob × JobCall)
  | [] => []
  | call :: calls => (job, call) :: visits (call.run job).2 calls

/-- The job after a sequence of calls. -/
def after (job : RotationJob) : List JobCall → RotationJob
  | [] => job
  | call :: calls => after (call.run job).2 calls

/-- The job has failed through `fail`. -/
def FailedBy (job : RotationJob) (calls : List JobCall) : Prop :=
  ∃ visit ∈ job.visits calls, ∃ reason now, visit.2 = .fail reason now ∧
    (visit.2.run visit.1).1 = .ok ()

def EverAcknowledged (job : RotationJob) (calls : List JobCall) : Prop :=
  (∃ visit ∈ job.visits calls, visit.1.state = .acknowledged) ∨
    (job.after calls).state = .acknowledged

/-- A refused call and a call on a terminal job change nothing, and each field is set
    exactly if the job has been where it is set. -/
structure Consistent (job : RotationJob) (calls : List JobCall) : Prop where
  refused : ∀ visit ∈ job.visits calls, ∀ e, (visit.2.run visit.1).1 = .error e →
    (visit.2.run visit.1).2 = visit.1
  final : ∀ visit ∈ job.visits calls, visit.1.state.isTerminal = true →
    (visit.2.run visit.1).2 = visit.1
  reason : (job.after calls).failureReason.isSome = true ↔ job.FailedBy calls
  acknowledged : (job.after calls).acknowledgedAt.isSome = true ↔ job.EverAcknowledged calls
  completed : (job.after calls).completedAt.isSome = true ↔ (job.after calls).state = .completed

/-- The call is not a `fail`, or the job may fail, or has failed for this reason. -/
def Admits (job : RotationJob) (call : JobCall) : Prop :=
  ∀ reason now, call = .fail reason now →
    job.state = .acknowledged ∨ job.failureReason = some reason

variable {job next : RotationJob} {call : JobCall}

/-- What an accepted call does to the job. -/
structure Accepts (job : RotationJob) (call : JobCall) (next : RotationJob) : Prop where
  open' : job.state.isTerminal = false
  reason : next.failureReason.isSome = true ↔
    job.failureReason.isSome = true ∨ ∃ reason now, call = .fail reason now
  acknowledged : next.acknowledgedAt.isSome = true ↔
    job.acknowledgedAt.isSome = true ∨ next.state = .acknowledged
  completed : next.completedAt.isSome = true ↔
    job.completedAt.isSome = true ∨ next.state = .completed

theorem not_terminal_of_canTransitionTo {state target : RotationJobState}
    (allowed : state.canTransitionTo target = true) : state.isTerminal = false := by
  cases state with
  | pending | acknowledged => rfl
  | completed | failed | expired => simp [RotationJobState.canTransitionTo,
      RotationJobState.validTransitions] at allowed

theorem transitionTo_cases (job : RotationJob) (target : RotationJobState) (now : DateTime) :
    job.transitionTo target now = (.error (job.state, target), job) ∨
      ∃ next, job.transitionTo target now = (.ok (), next) ∧
        Accepts job (.transitionTo target now) next := by
  unfold transitionTo
  split
  next => exact .inl rfl
  next allowed =>
    have live := not_terminal_of_canTransitionTo (by simpa using allowed)
    refine .inr ⟨_, rfl, live, ?_, ?_, ?_⟩ <;> cases target <;> simp

/-- A call that is admitted is refused without a trace, or accepted. -/
theorem Admits.cases (admits : job.Admits call) :
    (∃ e, call.run job = (.error e, job)) ∨
      ∃ next, call.run job = (.ok (), next) ∧ Accepts job call next := by
  cases call with
  | transitionTo target now =>
    rcases job.transitionTo_cases target now with refused | accepted
    · exact .inl ⟨_, refused⟩
    · exact .inr accepted
  | fail reason now =>
    rcases { job with failureReason := some reason }.transitionTo_cases .failed now with
      refused | ⟨next, accepted, accepts⟩
    · refine .inl ⟨(job.state, .failed), refused.trans ?_⟩
      -- an acknowledged job fails, so this one has the reason already
      rcases admits reason now rfl with acknowledged | same
      · simp [transitionTo, acknowledged, RotationJobState.canTransitionTo,
          RotationJobState.validTransitions] at refused
      · rw [← same]
    · refine .inr ⟨next, accepted, accepts.open', ?_, accepts.acknowledged, accepts.completed⟩
      simp [accepts.reason]

/-! ### Whole sequences -/

theorem visits_concat (calls : List JobCall) :
    job.visits (calls ++ [call]) = job.visits calls ++ [(job.after calls, call)] := by
  induction calls generalizing job with
  | nil => rfl
  | cons _ _ ih => simp [visits, after, ih]

theorem after_concat (calls : List JobCall) :
    job.after (calls ++ [call]) = (call.run (job.after calls)).2 := by
  induction calls generalizing job with
  | nil => rfl
  | cons _ _ ih => simp [after, ih]

theorem failedBy_concat : job.FailedBy (calls ++ [call]) ↔
    job.FailedBy calls ∨ ∃ reason now, call = .fail reason now ∧
      (call.run (job.after calls)).1 = .ok () := by
  simp [FailedBy, visits_concat, or_and_right, exists_or]

theorem everAcknowledged_concat : job.EverAcknowledged (calls ++ [call]) ↔
    job.EverAcknowledged calls ∨ (call.run (job.after calls)).2.state = .acknowledged := by
  simp [EverAcknowledged, visits_concat, after_concat, or_and_right, exists_or]

theorem Consistent.concat (consistent : job.Consistent calls)
    (admits : (job.after calls).Admits call) : job.Consistent (calls ++ [call]) := by
  obtain ⟨refused, final, reason, acknowledged, completed⟩ := consistent
  rcases admits.cases with ⟨e, ran⟩ | ⟨next, ran, accepts⟩
  · constructor
    · simpa [visits_concat, or_imp, forall_and, ran] using refused
    · simpa [visits_concat, or_imp, forall_and, ran] using final
    · simpa [after_concat, failedBy_concat, ran] using reason
    · rw [after_concat, everAcknowledged_concat, ran, acknowledged]
      exact (or_iff_left_of_imp .inr).symm
    · rwa [after_concat, ran]
  · have uncompleted : (job.after calls).state ≠ .completed := by
      intro ended
      have live := accepts.open'
      rw [ended] at live
      cases live
    constructor
    · simpa [visits_concat, or_imp, forall_and, ran] using refused
    · simpa [visits_concat, or_imp, forall_and, accepts.open'] using final
    · simp [after_concat, failedBy_concat, ran, accepts.reason, reason]
    · rw [after_concat, everAcknowledged_concat, ran, accepts.acknowledged, acknowledged]
    · simp [after_concat, ran, accepts.completed, completed, uncompleted]

end RotationJob

open RotationJob

/-- **Rotation jobs**: along a sequence of calls on a new job, refused calls and calls on
    a terminal job change nothing and every field says where the job has been, exactly if
    each `fail` finds the job acknowledged or with the same reason. -/
theorem rotation_job_consistent_iff (jobId : String) (parentLid dependentLid : Lid)
    (newVersion : Nat) (created : DateTime) (calls : List JobCall) :
    (RotationJob.new jobId parentLid dependentLid newVersion created).Consistent calls ↔
      ∀ visit ∈ (RotationJob.new jobId parentLid dependentLid newVersion created).visits calls,
        visit.1.Admits visit.2 := by
  constructor
  · rintro consistent ⟨found, _⟩ member reason now rfl
    by_cases acknowledged : found.state = .acknowledged
    · exact .inl acknowledged
    · -- the call was refused, and the reason is there all the same
      have refused : found.fail reason now =
          (.error (found.state, .failed), { found with failureReason := some reason }) := by
        cases state : found.state with
        | acknowledged => exact absurd state acknowledged
        | _ => simp [fail, transitionTo, state, RotationJobState.canTransitionTo,
            RotationJobState.validTransitions]
      have same := consistent.refused _ member _ (congrArg Prod.fst refused)
      rw [JobCall.run, refused] at same
      exact .inr (congrArg failureReason same).symm
  · intro admits
    induction calls using List.reverseRecOn with
    | nil => constructor <;> simp [visits, after, FailedBy, EverAcknowledged, RotationJob.new]
    | append_singleton _ _ ih =>
      rw [visits_concat, List.forall_mem_append] at admits
      exact (ih admits.1).concat (admits.2 _ (List.mem_singleton_self _))

/-- A pending job that refuses to fail keeps the reason. -/
theorem refused_fail_keeps_reason :
    ¬∀ (jobId : String) (parentLid dependentLid : Lid) (newVersion : Nat) (created : DateTime)
      (calls : List JobCall),
      (RotationJob.new jobId parentLid dependentLid newVersion created).Consistent calls := by
  intro always
  have consistent := always "job" ⟨Vector.replicate 32 1⟩ ⟨Vector.replicate 32 2⟩ 2 0
    [.fail "unreachable" 1]
  have same := consistent.refused _ List.mem_cons_self _ rfl
  cases congrArg RotationJob.failureReason same

end KeyRack
