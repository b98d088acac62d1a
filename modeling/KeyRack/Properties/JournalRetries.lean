import KeyRack.Properties.CreationJournal

/-!
# Retries, conflicts and withdrawal of a creation

Staging and resolution answer a retry that names the revision they started from
in every later phase, and one that names the revision they reached only while
the journal is still there. What was recorded first stays: other bytes, another
closure and other owners are refused. Which calls have been answered decides
whether the entry may be withdrawn.
-/
namespace KeyRack

open Fallible Stateful Trace CreationJournal

section
variable [UuidText] [Blake3] [IntentEncoding]

/-! ### Which calls return -/

/-- A staging that repeats the recorded one. -/
def CreationJournal.RestagesAt (journal : CreationJournal) (owner : CreationOwner)
    (revision : Nat) (envelope : Bytes) : Prop :=
  journal.request.owner = owner ∧ journal.envelopeDigest = some (Blake3.hash envelope) ∧
    (revision = 1 ∨ revision = journal.revision)

/-- A resolution that repeats the recorded one. -/
def CreationJournal.ResolvesAgainAt (journal : CreationJournal) (owner : CreationOwner)
    (revision : Nat) (closure : VerifiedA2Closure) : Prop :=
  journal.request.owner = owner ∧ journal.closure = some closure.claim ∧
    (revision = 2 ∨ revision = journal.revision)

/-- The owner a call is made for. -/
def JournalCall.owner : JournalCall → CreationOwner
  | .claimDispatch owner => owner
  | .stage owner _ _ => owner
  | .resolve owner _ _ => owner
  | .publication owner _ _ _ => owner

variable {owner : CreationOwner} {revision : Nat} {envelope : Bytes} {journal : CreationJournal}

/-- A retry passes the same checks as the first call and writes nothing. -/
theorem stage_again (valid : journal.Valid)
    (claimed : journal.dispatchStarted = true) (nonempty : envelope ≠ [])
    (short : envelope.length ≤ maxCreationEnvelopeBytes)
    (again : journal.RestagesAt owner revision envelope) :
    stage owner revision envelope journal = .ok () journal := by
  have validated := validate_eq_ok.mpr valid
  have bounded : ¬(envelope = [] ∨ envelope.length > maxCreationEnvelopeBytes) := by
    simp only [nonempty, false_or]
    omega
  simp only [stage, bind_ok, get_ok, check_ok, refuseIf_eq_ok]
  refine ⟨journal, _, ⟨rfl, rfl⟩, (), _, ⟨validated, rfl⟩, (), _, ⟨by simp [claimed], rfl⟩, (), _,
    ⟨bounded, rfl⟩, ?_⟩
  unfold RestagesAt at again
  rw [if_pos again]
  rfl

variable {next : CreationJournal}

/-- Once an envelope is recorded, only a repetition of its staging returns. -/
theorem stage_repeats (returned : stage owner revision envelope journal = .ok () next)
    (staged : journal.phase ≠ .reserved) : journal.RestagesAt owner revision envelope := by
  simp only [stage, bind_ok, get_ok, check_ok] at returned
  obtain ⟨_, _, ⟨rfl, rfl⟩, _, _, ⟨_, rfl⟩, _, _, ⟨_, rfl⟩, _, _, ⟨_, rfl⟩, rest⟩ := returned
  split at rest
  next again => exact again
  next =>
    simp only [bind_ok, check_ok, refuseIf_eq_ok, not_not] at rest
    obtain ⟨_, _, ⟨_, rfl⟩, _, _, ⟨reserved, _⟩, _⟩ := rest
    exact absurd reserved staged

variable {closure : VerifiedA2Closure}

theorem resolve_again (valid : journal.Valid)
    (taken : journal.request.fingerprint = .ok closure.claim.intentFingerprint)
    (binds : some closure.claim.envelopeDigest = journal.envelopeDigest)
    (again : journal.ResolvesAgainAt owner revision closure) :
    resolve owner revision closure journal = .ok () journal := by
  have validated := validate_eq_ok.mpr valid
  simp only [resolve, bind_ok, get_ok, check_ok, refuseIf_eq_ok]
  refine ⟨journal, _, ⟨rfl, rfl⟩, (), _, ⟨validated, rfl⟩, _, _, ⟨taken, rfl⟩, (), _,
    ⟨by simp [binds], rfl⟩, ?_⟩
  unfold ResolvesAgainAt at again
  rw [if_pos again]
  rfl

/-- Once a closure is recorded, only a repetition of its resolution returns. -/
theorem resolve_repeats (returned : resolve owner revision closure journal = .ok () next)
    (closed : journal.phase ≠ .staged) : journal.ResolvesAgainAt owner revision closure := by
  simp only [resolve, bind_ok, get_ok, check_ok] at returned
  obtain ⟨_, _, ⟨rfl, rfl⟩, _, _, ⟨_, rfl⟩, _, _, ⟨_, rfl⟩, _, _, ⟨_, rfl⟩, rest⟩ := returned
  split at rest
  next again => exact again
  next =>
    simp only [bind_ok, check_ok, refuseIf_eq_ok, not_not] at rest
    obtain ⟨_, _, ⟨_, rfl⟩, _, _, ⟨staged, _⟩, _⟩ := rest
    exact absurd staged closed

theorem withdrawable_eq_ok :
    journal.withdrawable = .ok () ↔
      journal.Valid ∧ (journal.phase = .reserved ∧ journal.dispatchStarted = false ∨
        journal.phase = .resolved) := by
  rw [← validate_eq_ok]
  simp only [withdrawable, bind_eq_ok, Unique.exists_iff]
  cases phase : journal.phase <;> simp

theorem committedRetry_eq_ok :
    journal.committedRetry owner revision = .ok answer ↔
      journal.Valid ∧ journal.request.owner = owner ∧
        (journal.phase = .committed ∧ (revision = 3 ∨ revision = 4) ∧
            journal.committedRecord = answer ∨
          journal.phase ≠ .committed ∧ answer = none) := by
  rw [← validate_eq_ok]
  simp only [committedRetry, eq_ok, not_not]
  by_cases committed : journal.phase = .committed
  · simp only [committed, if_true, eq_ok]
    constructor
    · rintro ⟨_, valid, _, same, _, _, rfl⟩
      exact ⟨valid, same, Or.inl ⟨trivial, by omega, rfl⟩⟩
    · rintro ⟨valid, same, ⟨_, _, rfl⟩ | ⟨other, _⟩⟩
      · exact ⟨(), valid, (), same, (), by omega, rfl⟩
      · exact absurd rfl other
  · rw [if_neg committed, pure_eq_ok]
    constructor
    · rintro ⟨_, valid, _, same, rfl⟩
      exact ⟨valid, same, Or.inr ⟨committed, rfl⟩⟩
    · rintro ⟨valid, same, ⟨reached, _⟩ | ⟨_, rfl⟩⟩
      · exact absurd reached committed
      · exact ⟨(), valid, (), same, rfl⟩

/-! ### What the history of calls says about the journal -/

/-- An answered claim that started the dispatch. -/
def startedDispatch (label : JournalCall × JournalReply) : Bool := label.2 == .dispatch true

/-- An answered resolution. -/
def recordedClosure : JournalCall × JournalReply → Bool
  | (.resolve _ _ _, .done) => true
  | _ => false

/-- An answered publication. -/
def publishedRecord : JournalCall × JournalReply → Bool
  | (.publication _ _ _ _, .done) => true
  | _ => false

/-- Each field of the journal was written by an answered call, and each answered
    call has written its field. -/
structure Recorded (labels : List (JournalCall × JournalReply)) (journal : CreationJournal) :
    Prop where
  dispatched : journal.dispatchStarted = labels.any startedDispatch
  closed : journal.closure.isSome = labels.any recordedClosure
  published : journal.committedRecord.isSome = labels.any publishedRecord

attribute [local simp] startedDispatch recordedClosure publishedRecord

theorem JournalStep.records (step : JournalStep journal label next) :
    next.dispatchStarted = (journal.dispatchStarted || startedDispatch label) ∧
      next.closure.isSome = (journal.closure.isSome || recordedClosure label) ∧
      next.committedRecord.isSome = (journal.committedRecord.isSome || publishedRecord label) := by
  obtain ⟨call, reply⟩ := label
  by_cases failed : reply = .failed
  · subst failed
    cases JournalCall.apply_failed step
    cases call <;> simp
  · cases call with
    | claimDispatch =>
      obtain ⟨_, ran, rfl⟩ := replyOf_answered step failed
      obtain ⟨_, _, ⟨rfl, _, rfl⟩ | ⟨rfl, _, _, rfl⟩⟩ := claimDispatch_ok ran
      · simp
      · simp
    | stage =>
      obtain ⟨_, ran, rfl⟩ := replyOf_answered step failed
      obtain ⟨_, _, _, _, _, ⟨_, rfl⟩ | ⟨_, rfl⟩⟩ := stage_ok ran
      · simp
      · simp
    | resolve =>
      obtain ⟨_, ran, rfl⟩ := replyOf_answered step failed
      obtain ⟨_, _, _, _, ⟨closed, rfl⟩ | ⟨_, rfl⟩⟩ := resolve_ok ran
      · simp [closed]
      · simp
    | publication =>
      obtain ⟨_, ran, rfl⟩ := replyOf_answered step failed
      obtain ⟨_, _, _, _, _, rfl⟩ := publication_ok ran
      simp

theorem journalSteps_recorded {request : CreationRequest}
    (reserved : CreationJournal.reserved request = .ok start)
    (steps : Steps JournalStep start labels journal) : journal.Valid ∧ Recorded labels journal := by
  have initial : start.Valid ∧ Recorded [] start := by
    refine ⟨reserved_valid reserved, ?_⟩
    obtain ⟨_, rfl⟩ := reserved_eq_ok.mp reserved
    exact ⟨rfl, rfl, rfl⟩
  refine steps.history (P := fun past s => s.Valid ∧ Recorded past s) ?_ initial
  rintro _ s _ t step ⟨valid, recorded⟩
  obtain ⟨dispatched, closed, published⟩ := step.records
  refine ⟨step.valid valid, ?_, ?_, ?_⟩
  · rw [dispatched, recorded.dispatched]
    simp
  · rw [closed, recorded.closed]
    simp
  · rw [published, recorded.published]
    simp

/-! ### The amended contract -/

theorem JournalCall.apply_foreign {call : JournalCall}
    (foreign : call.owner ≠ journal.request.owner) : call.apply journal = (.failed, journal) := by
  cases applied : call.apply journal with
  | mk reply =>
    by_cases failed : reply = .failed
    · subst failed
      rw [JournalCall.apply_failed applied]
    · -- every call that returns has compared the owners
      cases call with
      | claimDispatch =>
        obtain ⟨_, ran, _⟩ := replyOf_answered applied failed
        exact absurd (claimDispatch_ok ran).2.1 foreign
      | stage =>
        obtain ⟨_, ran, _⟩ := replyOf_answered applied failed
        exact absurd (stage_ok ran).2.2.1 foreign
      | resolve =>
        obtain ⟨_, ran, _⟩ := replyOf_answered applied failed
        exact absurd (resolve_ok ran).2.1 foreign
      | publication =>
        obtain ⟨_, ran, _⟩ := replyOf_answered applied failed
        exact absurd (publication_ok ran).2.1 foreign

variable {later : CreationJournal}

/-- A staging that returned fixes the bytes, and is repeated at revision 1 or at
    the current one. -/
theorem stage_later (returned : stage owner revision envelope journal = .ok () next)
    (valid : later.Valid) (grows : next.GrowsTo later) :
    (stage owner revision envelope later = .ok () later ↔
      revision = 1 ∨ revision = later.revision) ∧
    ∀ other otherRevision bytes, Blake3.hash bytes ≠ Blake3.hash envelope →
      ∃ e, stage other otherRevision bytes later = .error e later := by
  obtain ⟨_, claimed, same, nonempty, short, outcome⟩ := stage_ok returned
  have written : next.envelopeDigest = some (Blake3.hash envelope) ∧
      next.request = journal.request ∧ next.dispatchStarted = true := by
    rcases outcome with ⟨set, rfl⟩ | ⟨_, rfl⟩
    · exact ⟨set, rfl, claimed⟩
    · exact ⟨rfl, rfl, claimed⟩
  have digest := grows.digest _ written.1
  have ownerSame : later.request.owner = owner := by rw [grows.request, written.2.1, same]
  have dispatched := grows.dispatch written.2.2
  have staged : later.phase ≠ .reserved := valid.present.2.2.1.mp (by rw [digest]; rfl)
  refine ⟨⟨fun again => (stage_repeats again staged).2.2, fun allowed => ?_⟩, ?_⟩
  · exact stage_again valid dispatched nonempty short ⟨ownerSame, digest, allowed⟩
  · intro other otherRevision bytes different
    refine (stage_failsClean other otherRevision bytes).refused fun a _ ran => ?_
    have repeated := (stage_repeats ran staged).2.1
    rw [digest] at repeated
    exact different (Option.some.inj repeated).symm

/-- A resolution that returned fixes the closure, and is repeated at revision 2 or
    at the current one. -/
theorem resolve_later (returned : resolve owner revision closure journal = .ok () next)
    (valid : later.Valid) (grows : next.GrowsTo later) :
    (resolve owner revision closure later = .ok () later ↔
      revision = 2 ∨ revision = later.revision) ∧
    ∀ other otherRevision (different : VerifiedA2Closure), different.claim ≠ closure.claim →
      ∃ e, resolve other otherRevision different later = .error e later := by
  obtain ⟨_, same, taken, _, outcome⟩ := resolve_ok returned
  have written : next.closure = some closure.claim ∧ next.request = journal.request := by
    rcases outcome with ⟨set, rfl⟩ | ⟨_, rfl⟩
    · exact ⟨set, rfl⟩
    · exact ⟨rfl, rfl⟩
  have closed := grows.closure _ written.1
  have requestSame : later.request = journal.request := by rw [grows.request, written.2]
  have digest : some closure.claim.envelopeDigest = later.envelopeDigest :=
    (valid.closure _ closed).2
  have unstaged : later.phase ≠ .staged := by
    intro staged
    have phases := valid.present.2.2.2.1.mp (by rw [closed]; rfl)
    rcases phases with phase | phase
    · rw [staged] at phase
      cases phase
    · rw [staged] at phase
      cases phase
  refine ⟨⟨fun again => (resolve_repeats again unstaged).2.2, fun allowed => ?_⟩, ?_⟩
  · rw [← requestSame] at taken same
    exact resolve_again valid taken digest ⟨same.symm, closed, allowed⟩
  · intro other otherRevision different differs
    refine (resolve_failsClean other otherRevision different).refused fun a _ ran => ?_
    have repeated := (resolve_repeats ran unstaged).2.1
    rw [closed] at repeated
    exact differs (Option.some.inj repeated).symm

/-- A publication that returned is answered again with the record it returned. -/
theorem publication_later
    (returned : publication owner revision current parent journal = .ok record next)
    (valid : later.Valid) (grows : next.GrowsTo later) :
    ∀ again, again = 3 ∨ again = 4 → later.committedRetry owner again = .ok (some record) := by
  intro _ allowed
  obtain ⟨_, same, _, _, rfl, rfl⟩ := publication_ok returned
  have committed : later.phase = .committed := by
    have reached : CreationPhase.committed.revision ≤ later.phase.revision := grows.phase
    cases phase : later.phase <;> simp [phase, CreationPhase.revision] at reached ⊢
  obtain ⟨record, published⟩ := Option.isSome_iff_exists.mp
    (valid.present.2.2.2.2.mpr committed)
  have original : record = journal.request.record := by
    rw [valid.committed record published, grows.request]
  refine committedRetry_eq_ok.mpr ⟨valid, ?_, Or.inl ⟨committed, allowed, ?_⟩⟩
  · rw [grows.request, same]
  · rw [published, original]

/-- After a call that was answered and any calls after it. -/
theorem JournalStep.followed (step : JournalStep journal label next)
    (valid : journal.Valid) (steps : Steps JournalStep next more later) :
    later.Valid ∧ next.GrowsTo later :=
  ⟨steps.invariant (fun _ _ _ step => step.valid) (step.valid valid), journalSteps_growsTo steps⟩

/-- **Retries of a creation**: in every journal reached from a reservation, a
    staging or resolution that returned earlier returns again exactly at the
    revision it starts from and at the current one, and changes nothing; other
    bytes, another closure and other owners are refused; a published record is
    answered again; and the entry may be withdrawn exactly while no dispatch was
    started, or from a recorded closure until publication. -/
theorem journalSteps_retries (request : CreationRequest) (start journal : CreationJournal)
    (labels : List (JournalCall × JournalReply))
    (reserved : CreationJournal.reserved request = .ok start)
    (steps : Steps JournalStep start labels journal) :
    (∀ owner revision envelope next more later,
      stage owner revision envelope journal = .ok () next →
      Steps JournalStep next more later →
        (stage owner revision envelope later = .ok () later ↔
          revision = 1 ∨ revision = later.revision) ∧
        ∀ other otherRevision bytes, Blake3.hash bytes ≠ Blake3.hash envelope →
          ∃ e, stage other otherRevision bytes later = .error e later) ∧
    (∀ owner revision closure next more later,
      resolve owner revision closure journal = .ok () next →
      Steps JournalStep next more later →
        (resolve owner revision closure later = .ok () later ↔
          revision = 2 ∨ revision = later.revision) ∧
        ∀ other otherRevision (different : VerifiedA2Closure), different.claim ≠ closure.claim →
          ∃ e, resolve other otherRevision different later = .error e later) ∧
    (∀ call : JournalCall, call.owner ≠ request.owner → call.apply journal = (.failed, journal)) ∧
    (∀ owner revision, owner ≠ request.owner →
      ∃ e, journal.committedRetry owner revision = .error e) ∧
    (∀ owner revision current parent record next more later,
      publication owner revision current parent journal = .ok record next →
      Steps JournalStep next more later →
      ∀ again, again = 3 ∨ again = 4 → later.committedRetry owner again = .ok (some record)) ∧
    (journal.withdrawable = .ok () ↔
      labels.any startedDispatch = false ∨
        labels.any recordedClosure = true ∧ labels.any publishedRecord = false) := by
  obtain ⟨valid, recorded⟩ := journalSteps_recorded reserved steps
  have intent : journal.request = request := by
    obtain ⟨_, rfl⟩ := reserved_eq_ok.mp reserved
    exact (journalSteps_growsTo steps).request
  refine ⟨?_, ?_, ?_, ?_, ?_, ?_⟩
  · intro owner revision envelope next more later returned steps'
    have step : JournalStep journal (.stage owner revision envelope, .done) next := by
      simp [JournalStep, JournalCall.apply, returned, replyOf]
    obtain ⟨laterValid, grows⟩ := step.followed valid steps'
    exact stage_later returned laterValid grows
  · intro owner revision closure next more later returned steps'
    have step : JournalStep journal (.resolve owner revision closure, .done) next := by
      simp [JournalStep, JournalCall.apply, returned, replyOf]
    obtain ⟨laterValid, grows⟩ := step.followed valid steps'
    exact resolve_later returned laterValid grows
  · intro _ foreign
    exact JournalCall.apply_foreign (by rw [intent]; exact foreign)
  · intro owner revision foreign
    cases ran : journal.committedRetry owner revision with
    | error e => exact ⟨e, rfl⟩
    | ok =>
      have same := (committedRetry_eq_ok.mp ran).2.1
      rw [intent] at same
      exact absurd same.symm foreign
  · intro owner revision current parent _ next _ _ returned steps'
    have step : JournalStep journal (.publication owner revision current parent, .done) next := by
      simp [JournalStep, JournalCall.apply, returned, replyOf]
    obtain ⟨laterValid, grows⟩ := step.followed valid steps'
    exact publication_later returned laterValid grows
  · obtain ⟨_, dispatch, _, closure, committed⟩ := valid.present
    rw [withdrawable_eq_ok, ← recorded.dispatched, ← recorded.closed, ← recorded.published]
    rw [← Bool.not_eq_true (journal.committedRecord.isSome), closure, committed]
    cases phase : journal.phase with
    | reserved | resolved => simp [valid]
    | staged | committed => simp [dispatch (by simp [phase])]

end

/-! ### A resolved creation -/

open Sample

/-- The closure of a resolved sample creation makes it withdrawable. -/
theorem journalSteps_retries_resolved : resolvedJournal.withdrawable = .ok () :=
  have steps := stagedJournal_steps.append (.cons resolvedJournal_step (.nil _))
  (journalSteps_retries creationRequest reservedJournal _ _ (by decide +kernel)
    steps).2.2.2.2.2.mpr (Or.inr ⟨rfl, rfl⟩)

/-- A staging repeated at the revision it reached is answered while the journal is
    staged and refused once it is resolved. -/
theorem staging_at_reached_revision_refused :
    ¬∀ (request : CreationRequest) (start journal next later : CreationJournal)
      (labels more : List (JournalCall × JournalReply)) (owner : CreationOwner) (revision : Nat)
      (envelope : Bytes),
      CreationJournal.reserved request = .ok start → Steps JournalStep start labels journal →
      JournalStep journal (.stage owner revision envelope, .done) next →
      Steps JournalStep next more later →
      JournalStep later (.stage owner revision envelope, .done) later := by
  intro always
  have again : JournalStep stagedJournal (.stage sampleOwner 2 [1, 2], .done) stagedJournal := by
    unfold JournalStep
    decide +kernel
  have repeated := always creationRequest reservedJournal stagedJournal stagedJournal
    resolvedJournal _ _ sampleOwner 2 [1, 2] (by decide +kernel) stagedJournal_steps again
    (.cons resolvedJournal_step (.nil _))
  revert repeated
  unfold JournalStep
  decide +kernel

end KeyRack
