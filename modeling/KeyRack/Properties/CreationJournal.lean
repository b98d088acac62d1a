import KeyRack.Core.Creation
import KeyRack.Properties.KeyLifecycle

/-!
# The creation journal as a state machine

Every call either fails or answers a retry, leaving the journal alone, or makes
one of four changes. Each change keeps the journal consistent, so from a
reservation on every state of a run validates and the phases are passed in
order.
-/
namespace KeyRack

open Fallible Stateful Trace CreationRequest List

/-! ### What validation says -/

theorem checkHistory_ok (checked : checkHistory current versions seen = .ok ()) :
    (∀ version ∈ versions, version.versionNumber ≠ 0 ∧
      version.isPrimary = (version.versionNumber == current)) ∧
    seen.Disjoint (versions.map (·.versionNumber)) ∧ (versions.map (·.versionNumber)).Nodup := by
  induction versions generalizing seen with
  | nil => simp
  | cons version rest ih =>
    simp only [checkHistory, eq_ok, not_or, not_not] at checked
    obtain ⟨_, ⟨nonzero, fresh, primary⟩, later⟩ := checked
    -- later versions are checked against a list that holds this number
    obtain ⟨numbered, apart, nodup⟩ := ih later
    rw [disjoint_cons_left] at apart
    rw [forall_mem_cons, map_cons, disjoint_cons_right, nodup_cons]
    exact ⟨⟨⟨nonzero, primary⟩, numbered⟩, ⟨fresh, apart.2⟩, apart.1, nodup⟩

variable {request : CreationRequest} {material : ParentWrappedMaterial}

theorem CreationRequest.material_ok (given : request.material = .ok material) :
    ∃ version, request.record.primaryVersion = some version ∧
      version.material = .parentWrapped material := by
  simp only [CreationRequest.material, eq_ok] at given
  obtain ⟨version, found, rest⟩ := given
  refine ⟨version, found, ?_⟩
  split at rest <;> simp_all

/-- What a validated request guarantees about its proposed record. -/
structure CreationRequest.Valid (request : CreationRequest) (material : ParentWrappedMaterial) :
    Prop where
  given : request.material = .ok material
  enabled : request.record.state = .enabled
  clean : request.record.hasCompromiseHistory = false
  unscheduled : request.record.scheduledDeletionAt = none
  notOwnParent : request.record.lid ≠ material.parent.lid
  parentLid : request.record.parentLid = some material.parent.lid
  occNonzero : request.record.occVersion ≠ 0
  occBound : request.record.occVersion ≤ i64Max
  parentOccBound : request.expectedParentOcc ≤ i64Max
  keyOccBound : ∀ occ, request.expectedKeyOcc = some occ → occ < i64Max
  numbered : ∀ version ∈ request.record.keyVersions, version.versionNumber ≠ 0
  distinct : (request.record.keyVersions.map (·.versionNumber)).Nodup

theorem CreationRequest.validate_valid [UuidText] (valid : request.validate = .ok ()) :
    ∃ material, request.Valid material := by
  simp only [validate, eq_ok, Bool.not_eq_true] at valid
  obtain ⟨_, _, _, _, _, _, material, given, _, supported, _, history, _⟩ := valid
  simp only [unsupported, Bool.or_eq_false_iff, bne_eq_false_iff_eq,
    beq_eq_false_iff_ne, decide_eq_false_iff_not, Option.isSome_eq_false_iff,
    Option.isNone_iff_eq_none, ne_eq, not_lt] at supported
  obtain ⟨⟨⟨⟨⟨⟨⟨⟨⟨⟨⟨⟨enabled, clean⟩, _⟩, _⟩, unscheduled⟩, _⟩, _⟩, notOwn⟩, parentLid⟩, occ⟩,
    occBound⟩, parentOcc⟩, keyOcc⟩ := supported
  obtain ⟨numbered, _, distinct⟩ := checkHistory_ok history
  refine ⟨material, given, enabled, clean, unscheduled, notOwn, parentLid, occ, occBound, parentOcc,
    ?_, fun version member => (numbered version member).1, distinct⟩
  intro _ same
  simpa [same] using keyOcc

/-- A validated record has no wrapped version numbered zero. -/
theorem CreationRequest.Valid.serializable (valid : request.Valid material) :
    serializable request.record = true := by
  simp only [JsonDocument.serializable, all_eq_true, Bool.or_eq_true, bne_iff_ne]
  exact fun version member => .inr (valid.numbered version member)

/-- What a caller learns: a failure, the dispatch decision, or plain success. -/
inductive JournalReply where
  | failed
  | dispatch (started : Bool)
  | done
  deriving DecidableEq

/-- The reply to a run and the journal it leaves behind, on failure too. -/
def replyOf {α : Type} (reply : α → JournalReply) :
    EStateM.Result KeyRackError CreationJournal α → JournalReply × CreationJournal
  | .ok a journal => (reply a, journal)
  | .error _ journal => (.failed, journal)

variable {journal next : CreationJournal} {reply : JournalReply}

theorem replyOf_failed {α : Type} {reply : α → JournalReply}
    {x : EStateM KeyRackError CreationJournal α} (clean : FailsClean x)
    (answers : ∀ a, reply a ≠ .failed) (failed : replyOf reply (x journal) = (.failed, next)) :
    next = journal := by
  cases ran : x journal with
  | ok a =>
    rw [ran] at failed
    exact absurd (congrArg Prod.fst failed) (answers a)
  | error e j =>
    rw [ran] at failed
    have kept : j = next := congrArg Prod.snd failed
    exact kept ▸ clean journal e j ran

/-- A reply other than failure comes from a run that returned. -/
theorem replyOf_answered
    (same : replyOf answer result = (reply, next)) (answered : reply ≠ .failed) :
    ∃ a, result = .ok a next ∧ reply = answer a := by
  cases result with
  | ok a =>
    obtain ⟨rfl, rfl⟩ := Prod.mk.inj same
    exact ⟨a, rfl, rfl⟩
  | error => exact absurd (congrArg Prod.fst same).symm answered

/-- What one state of a journal fixes for all later ones. -/
structure CreationJournal.GrowsTo (journal later : CreationJournal) : Prop where
  request : later.request = journal.request
  phase : journal.phase.revision ≤ later.phase.revision
  dispatch : journal.dispatchStarted = true → later.dispatchStarted = true
  digest : ∀ digest, journal.envelopeDigest = some digest → later.envelopeDigest = some digest
  closure : ∀ claim, journal.closure = some claim → later.closure = some claim

theorem CreationJournal.GrowsTo.refl (journal : CreationJournal) : journal.GrowsTo journal :=
  ⟨rfl, le_refl _, id, fun _ => id, fun _ => id⟩

theorem CreationJournal.GrowsTo.trans {a b c : CreationJournal} (ab : a.GrowsTo b)
    (bc : b.GrowsTo c) : a.GrowsTo c where
  request := bc.request.trans ab.request
  phase := le_trans ab.phase bc.phase
  dispatch was := bc.dispatch (ab.dispatch was)
  digest d was := bc.digest d (ab.digest d was)
  closure claim was := bc.closure claim (ab.closure claim was)

section
variable [UuidText] [Blake3] [IntentEncoding]

theorem A2ClosureClaim.validateFor_eq_ok {claim : A2ClosureClaim} :
    claim.validateFor request = .ok () ↔
      request.fingerprint = .ok claim.intentFingerprint ∧
        ∃ id, WrappingIdentifier.new (match claim.fact with
          | .sessionClosed session => session
          | .temporaryObjectDestroyed object => object) = .ok id := by
  simp only [A2ClosureClaim.validateFor, eq_ok, not_not]
  constructor
  · rintro ⟨_, taken, _, rfl, id, target, _⟩
    exact ⟨taken, id, target⟩
  · rintro ⟨taken, id, target⟩
    exact ⟨_, taken, (), rfl, id, target, trivial⟩

/-- A verified closure fits every request whose fingerprint it carries: its
    target was checked when it was verified. -/
theorem VerifiedA2Closure.validateFor (closure : VerifiedA2Closure)
    (taken : request.fingerprint = .ok closure.claim.intentFingerprint) :
    closure.claim.validateFor request = .ok () := by
  obtain ⟨_, _, _, verified⟩ := closure.verified
  simp only [A2ClosureClaim.verify, bind_eq_ok] at verified
  obtain ⟨_, fits, _⟩ := verified
  exact A2ClosureClaim.validateFor_eq_ok.mpr ⟨taken, (A2ClosureClaim.validateFor_eq_ok.mp fits).2⟩

open CreationJournal

/-- A journal whose fields agree with its phase. -/
structure CreationJournal.Valid (journal : CreationJournal) : Prop where
  request : journal.request.validate = .ok ()
  consistent : journal.inconsistent = false
  closure : ∀ claim, journal.closure = some claim →
    claim.validateFor journal.request = .ok () ∧ some claim.envelopeDigest = journal.envelopeDigest
  committed : ∀ record, journal.committedRecord = some record → record = journal.request.record

theorem CreationJournal.validate_eq_ok : journal.validate = .ok () ↔ journal.Valid := by
  simp only [CreationJournal.validate, eq_ok, Bool.not_eq_true]
  constructor
  · rintro ⟨_, request, _, consistent, _, closure, committed⟩
    refine ⟨request, consistent, ?_, ?_⟩
    · intro claim given
      simp only [validateClosure, given, eq_ok, not_not] at closure
      obtain ⟨_, fits, binds⟩ := closure
      exact ⟨fits, binds⟩
    · intro record given
      simp only [validateCommitted, given, eq_ok, sameJson_eq_ok,
        Bool.not_eq_false] at committed
      obtain ⟨_, ⟨_, _, rfl⟩, equal⟩ := committed
      exact beq_iff_eq.mp equal
  · rintro ⟨request, consistent, closure, committed⟩
    refine ⟨(), request, (), consistent, (), ?_, ?_⟩
    · unfold validateClosure
      split
      next claim given =>
        obtain ⟨fits, binds⟩ := closure claim given
        simp only [eq_ok, not_not]
        exact ⟨(), fits, binds⟩
      next => rfl
    · unfold validateCommitted
      split
      next record given =>
        obtain ⟨_, valid⟩ := validate_valid request
        have serializable := valid.serializable
        rw [committed record given]
        simp only [eq_ok, sameJson_eq_ok, Bool.not_eq_false]
        exact ⟨_, ⟨serializable, serializable, rfl⟩, by simp⟩
      next => rfl

/-- The phase determines which fields are present. -/
theorem CreationJournal.Valid.present (valid : journal.Valid) :
    journal.revision = journal.phase.revision ∧
      (journal.phase ≠ .reserved → journal.dispatchStarted = true) ∧
      (journal.envelopeDigest.isSome = true ↔ journal.phase ≠ .reserved) ∧
      (journal.closure.isSome = true ↔ journal.phase = .resolved ∨ journal.phase = .committed) ∧
      (journal.committedRecord.isSome = true ↔ journal.phase = .committed) := by
  have consistent := valid.consistent
  simp only [inconsistent, Bool.or_eq_false_iff, bne_eq_false_iff_eq,
    Bool.and_eq_false_iff, Bool.not_eq_false'] at consistent
  obtain ⟨⟨⟨⟨revision, dispatch⟩, digest⟩, closure⟩, committed⟩ := consistent
  refine ⟨revision, ?_, ?_, ?_, ?_⟩
  · intro notReserved
    rcases dispatch with reserved | started
    · exact absurd reserved notReserved
    · exact started
  · rw [digest, bne_iff_ne]
  · rw [closure, Bool.or_eq_true, beq_iff_eq, beq_iff_eq]
  · rw [committed, beq_iff_eq]

/-! ### The four changes -/

/-- A real change of the journal, with what was checked before it. -/
inductive JournalChange (journal : CreationJournal) : CreationJournal → Prop where
  | dispatched (unclaimed : journal.dispatchStarted = false) (phase : journal.phase = .reserved) :
      JournalChange journal { journal with dispatchStarted := true }
  | staged (digest : Digest) (claimed : journal.dispatchStarted = true)
      (phase : journal.phase = .reserved) :
      JournalChange journal
        { journal with envelopeDigest := some digest, phase := .staged, revision := 2 }
  | resolved (closure : VerifiedA2Closure) (phase : journal.phase = .staged)
      (taken : journal.request.fingerprint = .ok closure.claim.intentFingerprint)
      (binds : some closure.claim.envelopeDigest = journal.envelopeDigest) :
      JournalChange journal
        { journal with closure := some closure.claim, phase := .resolved, revision := 3 }
  | committed (phase : journal.phase = .resolved) :
      JournalChange journal
        { journal with
          committedRecord := some journal.request.record, phase := .committed, revision := 4 }

variable {owner : CreationOwner}

theorem claimDispatch_ok (returned : claimDispatch owner journal = .ok started next) :
    journal.Valid ∧ owner = journal.request.owner ∧
      (started = false ∧ journal.dispatchStarted = true ∧ next = journal ∨
        started = true ∧ journal.dispatchStarted = false ∧ journal.phase = .reserved ∧
          next = { journal with dispatchStarted := true }) := by
  simp only [claimDispatch, bind_ok, get_ok, check_ok, refuseIf_eq_ok, not_not] at returned
  obtain ⟨j, _, ⟨rfl, rfl⟩, _, _, ⟨valid, rfl⟩, _, _, ⟨same, rfl⟩, rest⟩ := returned
  refine ⟨validate_eq_ok.mp valid, same, ?_⟩
  split at rest
  next claimed =>
    simp only [pure_ok] at rest
    exact .inl ⟨rest.1, claimed, rest.2⟩
  next unclaimed =>
    simp only [bind_ok, check_ok, refuseIf_eq_ok, not_not, set_ok, pure_ok] at rest
    obtain ⟨_, _, ⟨phase, rfl⟩, _, _, rfl, rfl, rfl⟩ := rest
    exact .inr ⟨rfl, by simpa using unclaimed, phase, rfl⟩

variable {revision : Nat}

theorem stage_ok (returned : stage owner revision envelope journal = .ok () next) :
    journal.Valid ∧ journal.dispatchStarted = true ∧ owner = journal.request.owner ∧
      envelope ≠ [] ∧ envelope.length ≤ maxCreationEnvelopeBytes ∧
      (journal.envelopeDigest = some (Blake3.hash envelope) ∧ next = journal ∨
        journal.phase = .reserved ∧
          next = { journal with
            envelopeDigest := some (Blake3.hash envelope), phase := .staged, revision := 2 }) := by
  simp only [stage, bind_ok, get_ok, check_ok, refuseIf_eq_ok, not_or, Bool.not_eq_false]
    at returned
  obtain ⟨_, _, ⟨rfl, rfl⟩, _, _, ⟨valid, rfl⟩, _, _, ⟨claimed, rfl⟩, _, _,
    ⟨⟨nonempty, _⟩, rfl⟩, rest⟩ := returned
  split at rest
  next retry =>
    simp only [pure_ok] at rest
    exact ⟨validate_eq_ok.mp valid, claimed, retry.1.symm, nonempty, by omega,
      .inl ⟨retry.2.1, rest.2⟩⟩
  next =>
    -- the fence compares the owner once more
    simp only [bind_ok, check_ok, fence, eq_ok, not_or, not_not, set_ok]
      at rest
    obtain ⟨_, _, ⟨⟨_, _, same, _⟩, rfl⟩, _, _, ⟨phase, rfl⟩, rfl⟩ := rest
    exact ⟨validate_eq_ok.mp valid, claimed, same.symm, nonempty, by omega, .inr ⟨phase, rfl⟩⟩

theorem resolve_ok {closure : VerifiedA2Closure}
    (returned : resolve owner revision closure journal = .ok () next) :
    journal.Valid ∧ owner = journal.request.owner ∧
      journal.request.fingerprint = .ok closure.claim.intentFingerprint ∧
      some closure.claim.envelopeDigest = journal.envelopeDigest ∧
      (journal.closure = some closure.claim ∧ next = journal ∨
        journal.phase = .staged ∧
          next = { journal with
            closure := some closure.claim, phase := .resolved, revision := 3 }) := by
  simp only [resolve, bind_ok, get_ok, check_ok, refuseIf_eq_ok, not_or, not_not] at returned
  obtain ⟨j, _, ⟨rfl, rfl⟩, _, _, ⟨valid, rfl⟩, _, _, ⟨taken, rfl⟩, _, _, ⟨⟨rfl, binds⟩, rfl⟩,
    rest⟩ := returned
  split at rest
  next retry =>
    simp only [pure_ok] at rest
    exact ⟨validate_eq_ok.mp valid, retry.1.symm, taken, binds, .inl ⟨retry.2.1, rest.2⟩⟩
  next =>
    simp only [bind_ok, check_ok, fence, eq_ok, not_or, not_not, set_ok]
      at rest
    obtain ⟨_, _, ⟨⟨_, _, same, _⟩, rfl⟩, _, _, ⟨phase, rfl⟩, rfl⟩ := rest
    exact ⟨validate_eq_ok.mp valid, same.symm, taken, binds, .inr ⟨phase, rfl⟩⟩

theorem publication_ok {record : KeyRecord}
    (returned : publication owner revision current parent journal = .ok record next) :
    journal.Valid ∧ owner = journal.request.owner ∧ journal.phase = .resolved ∧
      journal.request.validateRecords current parent = .ok () ∧ record = journal.request.record ∧
      next =
        { journal with committedRecord := some record, phase := .committed, revision := 4 } := by
  simp only [publication, bind_ok, get_ok, check_ok, fence, eq_ok, not_or, not_not, set_ok,
    pure_ok] at returned
  obtain ⟨j, _, ⟨rfl, rfl⟩, _, _, ⟨⟨_, valid, same, _⟩, rfl⟩, _, _, ⟨phase, rfl⟩, _, _,
    ⟨fits, rfl⟩, _, _, rfl, rfl, rfl⟩ := returned
  exact ⟨validate_eq_ok.mp valid, same.symm, phase, fits, rfl, rfl⟩

/-! ### Calls and runs -/

inductive JournalCall where
  | claimDispatch (owner : CreationOwner)
  | stage (owner : CreationOwner) (expectedRevision : Nat) (envelope : Bytes)
  | resolve (owner : CreationOwner) (expectedRevision : Nat) (closure : VerifiedA2Closure)
  | publication (owner : CreationOwner) (expectedRevision : Nat) (current : Option KeyRecord)
      (parent : KeyRecord)

def JournalCall.apply (call : JournalCall) (journal : CreationJournal) :
    JournalReply × CreationJournal :=
  match call with
  | .claimDispatch owner => replyOf .dispatch (CreationJournal.claimDispatch owner journal)
  | .stage owner revision envelope =>
    replyOf (fun _ => .done) (CreationJournal.stage owner revision envelope journal)
  | .resolve owner revision proof =>
    replyOf (fun _ => .done) (CreationJournal.resolve owner revision proof journal)
  | .publication owner revision current parent =>
    replyOf (fun _ => .done) (CreationJournal.publication owner revision current parent journal)

/-- A call, labelled with its reply. -/
def JournalStep (journal : CreationJournal) (label : JournalCall × JournalReply)
    (next : CreationJournal) : Prop := label.1.apply journal = (label.2, next)

theorem claimDispatch_failsClean (owner : CreationOwner) : FailsClean (claimDispatch owner) := by
  refine .afterGet fun _ => .afterCheck fun _ => .afterCheck fun _ => ?_
  split
  · exact failsClean_pure false
  · exact .afterCheck fun _ => failsClean_set_pure _ true

theorem stage_failsClean (owner : CreationOwner) (revision : Nat) (envelope : Bytes) :
    FailsClean (stage owner revision envelope) := by
  refine .afterGet fun _ => .afterCheck fun _ => .afterCheck fun _ => .afterCheck fun _ => ?_
  dsimp only
  split
  · exact failsClean_pure ()
  · exact .afterCheck fun _ => .afterCheck fun _ => failsClean_set _

theorem resolve_failsClean (owner : CreationOwner) (revision : Nat)
    (closure : VerifiedA2Closure) : FailsClean (resolve owner revision closure) := by
  refine .afterGet fun _ => .afterCheck fun _ => .afterCheck fun _ => .afterCheck fun _ => ?_
  split
  · exact failsClean_pure ()
  · exact .afterCheck fun _ => .afterCheck fun _ => failsClean_set _

theorem publication_failsClean (owner : CreationOwner) (revision : Nat)
    (current : Option KeyRecord) (parent : KeyRecord) :
    FailsClean (publication owner revision current parent) :=
  .afterGet fun _ => .afterCheck fun _ => .afterCheck fun _ => .afterCheck fun _ =>
    failsClean_set_pure _ _

/-- A failing call has written nothing: every check precedes the only write. -/
theorem JournalCall.apply_failed {call : JournalCall}
    (failed : call.apply journal = (.failed, next)) : next = journal := by
  cases call with
  | claimDispatch owner => exact replyOf_failed (claimDispatch_failsClean owner) (by simp) failed
  | stage owner revision envelope =>
    exact replyOf_failed (stage_failsClean owner revision envelope) (by simp) failed
  | resolve owner revision closure =>
    exact replyOf_failed (resolve_failsClean owner revision closure) (by simp) failed
  | publication owner revision current parent =>
    exact replyOf_failed (publication_failsClean owner revision current parent) (by simp) failed

/-- A call leaves the journal alone or makes one change, and answers that the
    dispatch starts exactly when it is the change that claims it. -/
theorem journalStep_cases (step : JournalStep journal (call, reply) next) :
    next = journal ∧ reply ≠ .dispatch true ∨
      journal.Valid ∧ JournalChange journal next ∧ reply ≠ .failed ∧
        (reply = .dispatch true ↔ journal.dispatchStarted = false) := by
  by_cases failed : reply = .failed
  · subst failed
    exact .inl ⟨JournalCall.apply_failed step, by simp⟩
  · cases call with
    | claimDispatch =>
      obtain ⟨_, ran, rfl⟩ := replyOf_answered step failed
      obtain ⟨valid, _, ⟨rfl, _, same⟩ | ⟨rfl, unclaimed, phase, rfl⟩⟩ := claimDispatch_ok ran
      · exact .inl ⟨same, by simp⟩
      · exact .inr ⟨valid, .dispatched unclaimed phase, failed, by simp [unclaimed]⟩
    | stage =>
      obtain ⟨_, ran, rfl⟩ := replyOf_answered step failed
      obtain ⟨valid, claimed, _, _, _, ⟨_, same⟩ | ⟨phase, rfl⟩⟩ := stage_ok ran
      · exact .inl ⟨same, by simp⟩
      · exact .inr ⟨valid, .staged _ claimed phase, failed, by simp [claimed]⟩
    | resolve _ _ closure =>
      obtain ⟨_, ran, rfl⟩ := replyOf_answered step failed
      obtain ⟨valid, _, taken, binds, ⟨_, same⟩ | ⟨phase, rfl⟩⟩ := resolve_ok ran
      · exact .inl ⟨same, by simp⟩
      · have claimed := valid.present.2.1 (by simp [phase])
        exact .inr ⟨valid, .resolved closure phase taken binds, failed, by simp [claimed]⟩
    | publication =>
      obtain ⟨_, ran, rfl⟩ := replyOf_answered step failed
      obtain ⟨valid, _, phase, _, rfl, rfl⟩ := publication_ok ran
      have claimed := valid.present.2.1 (by simp [phase])
      exact .inr ⟨valid, .committed phase, failed, by simp [claimed]⟩

attribute [local simp] inconsistent CreationPhase.revision

/-- Every change keeps the fields in agreement with the phase. -/
theorem JournalChange.valid (change : JournalChange journal next) (valid : journal.Valid) :
    next.Valid := by
  -- the fields a change does not write are known from the phase it starts in
  obtain ⟨_, dispatch, digest, closed, committed⟩ := valid.present
  cases change with
  | dispatched _ phase =>
    refine ⟨valid.request, ?_, valid.closure, valid.committed⟩
    simpa [phase] using valid.consistent
  | staged _ claimed phase =>
    have unclosed : journal.closure = none := by simpa [phase] using closed
    have unpublished : journal.committedRecord = none := by simpa [phase] using committed
    refine ⟨valid.request, ?_, by simp [unclosed], by simp [unpublished]⟩
    simp [claimed, unclosed, unpublished]
  | resolved closure phase taken binds =>
    have claimed := dispatch (by simp [phase])
    have staged : journal.envelopeDigest.isSome = true := digest.mpr (by simp [phase])
    have unpublished : journal.committedRecord = none := by simpa [phase] using committed
    refine ⟨valid.request, ?_, ?_, by simp [unpublished]⟩
    · simp [claimed, staged, unpublished]
    · rintro _ same
      cases same
      exact ⟨closure.validateFor taken, binds⟩
  | committed phase =>
    have claimed := dispatch (by simp [phase])
    have staged : journal.envelopeDigest.isSome = true := digest.mpr (by simp [phase])
    have resolved : journal.closure.isSome = true := closed.mpr (by simp [phase])
    refine ⟨valid.request, ?_, valid.closure, ?_⟩
    · simp [claimed, staged, resolved]
    · rintro _ same
      cases same
      rfl

/-- No change happens before, or without, the dispatch decision. -/
theorem JournalChange.claimed (change : JournalChange journal next) (valid : journal.Valid) :
    next.dispatchStarted = true := by
  cases change with
  | dispatched => rfl
  | staged _ claimed => exact claimed
  | resolved _ phase | committed phase => exact valid.present.2.1 (by simp [phase])

theorem JournalChange.growsTo (change : JournalChange journal next) (valid : journal.Valid) :
    journal.GrowsTo next := by
  obtain ⟨_, _, digest, closed, _⟩ := valid.present
  cases change with
  | dispatched => exact ⟨rfl, le_refl _, fun _ => rfl, fun _ => id, fun _ => id⟩
  | staged _ _ phase =>
    -- a reserved journal has no digest yet
    have unset : journal.envelopeDigest = none := by simpa [phase] using digest
    exact ⟨rfl, by simp [phase], id, by simp [unset], fun _ => id⟩
  | resolved _ phase =>
    have unset : journal.closure = none := by simpa [phase] using closed
    exact ⟨rfl, by simp [phase], id, fun _ => id, by simp [unset]⟩
  | committed phase =>
    exact ⟨rfl, by simp [phase], id, fun _ => id, fun _ => id⟩

variable {label : JournalCall × JournalReply}

theorem JournalStep.valid (step : JournalStep journal label next) (valid : journal.Valid) :
    next.Valid := by
  rcases journalStep_cases step with ⟨rfl, _⟩ | ⟨_, change, _⟩
  · exact valid
  · exact change.valid valid

theorem JournalStep.growsTo (step : JournalStep journal label next) : journal.GrowsTo next := by
  rcases journalStep_cases step with ⟨rfl, _⟩ | ⟨valid, change, _⟩
  · exact .refl _
  · exact change.growsTo valid

variable {later : CreationJournal}

theorem journalSteps_growsTo (steps : Steps JournalStep journal labels later) :
    journal.GrowsTo later :=
  steps.relates_of_step GrowsTo.refl (fun _ _ _ => GrowsTo.trans)
    fun _ _ _ step => step.growsTo

/-- A run starts the dispatch at most once, and not at all once it is claimed. -/
theorem journalSteps_started (steps : Steps JournalStep journal labels later) :
    labels.countP (fun label => label.2 = .dispatch true) ≤
      if journal.dispatchStarted then 0 else 1 := by
  induction steps with
  | nil => simp
  | @cons s t u label labels first rest ih =>
    have grows := JournalStep.growsTo first
    by_cases started : label.2 = .dispatch true
    · -- this step claims the dispatch, so the rest of the run starts none
      rcases journalStep_cases first with ⟨_, other⟩ | ⟨valid, change, _, iff⟩
      · exact absurd started other
      · have unclaimed := iff.mp started
        rw [change.claimed valid] at ih
        simp only [countP_cons, started, decide_true, unclaimed]
        simpa using ih
    · simp only [countP_cons, started, decide_false]
      refine le_trans (by simpa using ih) ?_
      by_cases claimed : s.dispatchStarted = true
      · simp [claimed, grows.dispatch claimed]
      · split <;> simp

omit [Blake3] [IntentEncoding] in
theorem reserved_eq_ok :
    CreationJournal.reserved request = .ok journal ↔
      request.validate = .ok () ∧ journal = ⟨request, false, 1, .reserved, none, none, none⟩ := by
  simp only [CreationJournal.reserved, eq_ok]
  constructor
  · rintro ⟨_, valid, rfl⟩
    exact ⟨valid, rfl⟩
  · rintro ⟨valid, rfl⟩
    exact ⟨(), valid, rfl⟩

theorem reserved_valid (reserved : CreationJournal.reserved request = .ok journal) :
    journal.Valid := by
  obtain ⟨valid, rfl⟩ := reserved_eq_ok.mp reserved
  exact ⟨valid, by simp, by simp, by simp⟩

/-- **Creation journal**: in every run from a reservation the journal validates,
    the dispatch starts at most once, a failing call changes nothing, the phase
    stays or moves to the next one, publication happens only from a resolved
    journal whose closure carries the staged digest, and a digest or closure once
    set stays. -/
theorem journalSteps_reserved (request : CreationRequest) (start journal : CreationJournal)
    (labels : List (JournalCall × JournalReply))
    (reserved : CreationJournal.reserved request = .ok start)
    (steps : Steps JournalStep start labels journal) :
    journal.validate = .ok () ∧
    labels.countP (fun label => label.2 = .dispatch true) ≤ 1 ∧
    (∀ call reply next, JournalStep journal (call, reply) next →
      (reply = .failed → next = journal) ∧
      (next.phase = journal.phase ∨ next.phase.revision = journal.phase.revision + 1) ∧
      (next.phase = .committed → journal.phase ≠ .committed →
        journal.phase = .resolved ∧ next.committedRecord = some request.record ∧
          ∃ claim, journal.closure = some claim ∧ next.closure = some claim ∧
            journal.envelopeDigest = some claim.envelopeDigest)) ∧
    ∀ later labels', Steps JournalStep journal labels' later →
      journal.phase.revision ≤ later.phase.revision ∧
      (∀ digest, journal.envelopeDigest = some digest → later.envelopeDigest = some digest) ∧
      ∀ claim, journal.closure = some claim → later.closure = some claim := by
  have valid : journal.Valid :=
    steps.invariant (fun _ _ _ step => step.valid) (reserved_valid reserved)
  have intent : journal.request = request := by
    obtain ⟨_, rfl⟩ := reserved_eq_ok.mp reserved
    exact (journalSteps_growsTo steps).request
  refine ⟨validate_eq_ok.mpr valid, ?_, fun _ _ _ step => ?_, fun _ _ more => ?_⟩
  · refine le_trans (journalSteps_started steps) ?_
    split <;> simp
  · rcases journalStep_cases step with ⟨rfl, _⟩ | ⟨_, change, replied, _⟩
    · exact ⟨fun _ => rfl, .inl rfl, fun reached before => absurd reached before⟩
    · refine ⟨fun failed => absurd failed replied, ?_, ?_⟩
      · cases change with
        | dispatched => exact .inl rfl
        | staged _ _ phase | resolved _ phase | committed phase =>
          exact .inr (by simp [phase])
      · intro reached before
        cases change with
        | dispatched => exact absurd reached before
        | staged | resolved => simp at reached
        | committed phase =>
          -- a resolved journal carries a closure, and validation binds it to the digest
          obtain ⟨claim, closed⟩ := Option.isSome_iff_exists.mp
            (valid.present.2.2.2.1.mpr (.inl phase))
          have binds := (valid.closure claim closed).2
          exact ⟨phase, by rw [intent], claim, closed, closed, binds.symm⟩
  · have grows := journalSteps_growsTo more
    exact ⟨grows.phase, grows.digest, grows.closure⟩

end

/-! ### A creation that can be evaluated -/

/-- A stand-in for the request's JSON document. -/
abbrev correlationEncoding : IntentEncoding := ⟨fun request => utf8 request.correlation⟩

namespace Sample

attribute [scoped instance] hyphenatedText truncatingHash correlationEncoding

end Sample

open Sample

def sampleLid (byte : UInt8) : Lid := ⟨Vector.replicate 32 byte⟩

/-- An enabled root key with one resident version. -/
def residentRecord (lid : Lid) : KeyRecord :=
  { legacyRecord with
    lid
    occVersion := 1
    state := .enabled
    providerRef := some ⟨"hsm"⟩
    exportability := .nonExportable
    firstExportedAt := none
    keyVersions := [⟨1, .providerResident ⟨"object", .aes256⟩ (some ⟨"hsm"⟩), 0, true⟩] }

def sampleDomain : WrappingIdentifier := ⟨"domain", by decide⟩

def sampleMechanism : WrappingIdentifier := ⟨"mechanism", by decide⟩

def plainReference : WrappingIdentifier := ⟨"reference", by decide⟩

/-- Material wrapped under version 1 of a parent, stored under `reference`. -/
def sampleMaterial (parent : Lid) (reference : WrappingIdentifier) : ParentWrappedMaterial where
  providerRef := ⟨"hsm"⟩
  securityDomain := sampleDomain
  parent := ⟨parent, 1, Nat.one_ne_zero⟩
  wrappingContextVersion := .v1
  keyFormat := .rawSecret
  mechanism := sampleMechanism
  wrappedMaterialRef := reference
  providerValid := by decide

/-- A new key whose only version is wrapped under `parent`. -/
def wrappedRecord (lid parent : Lid) (reference : WrappingIdentifier) : KeyRecord :=
  { residentRecord lid with
    parentLid := some parent
    keyVersions := [⟨1, .parentWrapped (sampleMaterial parent reference), 0, true⟩] }

/-- The request for such a key, with the context bytes its material requires. -/
def sampleRequest (operation : Uuid) (record : KeyRecord) : CreationRequest :=
  let request : CreationRequest :=
    { operation
      attempt := ⟨2⟩
      owner := ⟨⟨3⟩, 1⟩
      correlation := creationCorrelation operation ⟨2⟩
      record
      expectedKeyOcc := none
      expectedParentOcc := 1
      parentSpec := .aes256
      contextBytes := [] }
  match request.context >>= fun context =>
    mapErr context.canonicalBytes fun _ => invalid "invalid context" with
  | .ok bytes => { request with contextBytes := bytes }
  | .error _ => request

/-- `creation:` and the text of operation 1, as the service names its envelopes. -/
def sampleReference : WrappingIdentifier :=
  ⟨"creation:00000000-0000-0000-0000-000000000001", by decide⟩

def creationRequest : CreationRequest :=
  sampleRequest ⟨1⟩ (wrappedRecord (sampleLid 2) (sampleLid 1) sampleReference)

def sampleOwner : CreationOwner := ⟨⟨3⟩, 1⟩

/-- A closure of this creation over two staged bytes. -/
def sampleClosure : VerifiedA2Closure where
  claim :=
    { intentFingerprint := Blake3.hash (utf8 creationRequest.correlation)
      envelopeDigest := Blake3.hash [1, 2]
      fact := .sessionClosed "session" }
  verified := ⟨creationRequest, [1, 2], fun _ _ => .ok (), by decide +kernel⟩

def reservedJournal : CreationJournal := ⟨creationRequest, false, 1, .reserved, none, none, none⟩

/-- The staged journal of the sample creation. -/
def stagedJournal : CreationJournal :=
  { reservedJournal with
    dispatchStarted := true
    envelopeDigest := some (Blake3.hash [1, 2])
    phase := .staged
    revision := 2 }

def resolvedJournal : CreationJournal :=
  { stagedJournal with closure := some sampleClosure.claim, phase := .resolved, revision := 3 }

theorem stagedJournal_steps :
    Steps JournalStep reservedJournal
      [(.claimDispatch sampleOwner, .dispatch true), (.stage sampleOwner 1 [1, 2], .done)]
      stagedJournal :=
  .cons (t := { reservedJournal with dispatchStarted := true })
    (by unfold JournalStep; decide +kernel)
    (.cons (by unfold JournalStep; decide +kernel) (.nil _))

theorem resolvedJournal_step :
    JournalStep stagedJournal (.resolve sampleOwner 2 sampleClosure, .done) resolvedJournal := by
  unfold JournalStep
  decide +kernel

theorem journalSteps_reserved_resolved : resolvedJournal.validate = .ok () :=
  have steps := stagedJournal_steps.append (.cons resolvedJournal_step (.nil _))
  (journalSteps_reserved creationRequest reservedJournal _ _ (by decide +kernel) steps).1

end KeyRack
