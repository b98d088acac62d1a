import KeyRack.Properties.DestructionFence

/-!
# Approval of a deletion

A deletion that loses data is approved when it is scheduled, for the dependents
seen then. The approval lives in a table of its own and goes away with the
schedule it was given for. A claim compares it with the dependents of the moment,
so it covers no dependent that was added later.
-/
namespace KeyRack.Sqlite

open Fallible Trace Function List Destruction

/-! ### Dependents -/

/-- What is lost with a key: stored versions wrapped under it, and envelopes that
    committed creations and migrations still keep. -/
inductive Db.Edge (db : Db) (lid : Lid) : DestructionDependent → Prop where
  | record (edge : DestructionDependent) (row : Lid × KeyRow) (stored : row ∈ db.keys)
      (wraps : RecordEdge lid row.2.record edge) : db.Edge lid edge
  | creation (row : CreationIndex × CreationRow) (stored : row ∈ db.creationJournal)
      (under : row.1.parentLid = lid) (other : row.1.childLid ≠ lid)
      (committed : row.2.phase = .committed) (staged : row.2.envelope.isSome = true) :
      db.Edge lid ⟨row.1.childLid, row.1.childVersion, row.1.parentVersion, row.1.envelopeRef⟩
  | migration (row : MigrationIndex × MigrationRow) (number : Nat) (bytes : Bytes)
      (version : KeyVersionRecord) (material : ParentWrappedMaterial)
      (stored : row ∈ db.migrationJournal) (under : row.1.newParentLid = lid)
      (other : row.1.childLid ≠ lid) (committed : row.2.committed = true)
      (staged : ((row.1.operationId, number), bytes) ∈ db.migrationEnvelopes)
      (proposed : row.2.journal.request.proposed.getVersion number = some version)
      (wrapped : version.material = .parentWrapped material) :
      db.Edge lid ⟨row.2.journal.request.child.lid, number, material.parent.version,
        material.wrappedMaterialRef.asStr⟩

variable {edge : DestructionDependent} {lid : Lid}
  {record : KeyRecord} {counts : DestructionDependencies}

namespace Destruction

variable {db : Db}

theorem creationEdge_ok (made : creationEdge row = .ok edge) :
    edge = ⟨row.1.childLid, row.1.childVersion, row.1.parentVersion, row.1.envelopeRef⟩ := by
  simp only [creationEdge, parseVersion, eq_ok] at made
  obtain ⟨_, ⟨_, _, rfl⟩, _, ⟨_, _, rfl⟩, rfl⟩ := made
  rfl

theorem edge_of_creationEdges (listed : creationEdges db lid = .ok edges) (member : edge ∈ edges) :
    db.Edge lid edge := by
  obtain ⟨row, selected, made⟩ := (mem_mapM listed).2 edge member
  simp only [mem_filter, Bool.and_eq_true, beq_iff_eq, bne_iff_ne] at selected
  obtain ⟨stored, ⟨⟨under, other⟩, committed⟩, staged⟩ := selected
  cases creationEdge_ok made
  exact .creation row stored under other committed staged

section
variable [UuidText]

theorem migrationEdge_ok (made : migrationEdge lid index journal number = .ok edge) :
    ∃ version material, journal.request.proposed.getVersion number = some version ∧
      version.material = .parentWrapped material ∧
      edge = ⟨journal.request.child.lid, number, material.parent.version,
        material.wrappedMaterialRef.asStr⟩ := by
  simp only [migrationEdge, parseVersion, eq_ok, wrapped?_eq_some] at made
  obtain ⟨_, _, _, ⟨_, _, rfl⟩, version, proposed, material, wrapped, _, _, rfl⟩ := made
  exact ⟨version, material, proposed, wrapped, rfl⟩

theorem edge_of_migrationEdges (listed : migrationEdges db lid = .ok edges)
    (member : edge ∈ edges) : db.Edge lid edge := by
  obtain ⟨_, selected, made⟩ := (mem_mapM listed).2 edge member
  simp only [mem_flatMap, mem_map, mem_filter, Bool.and_eq_true, beq_iff_eq, bne_iff_ne] at selected
  obtain ⟨row, ⟨stored, ⟨under, other⟩, committed⟩, ⟨⟨_, number⟩, bytes⟩, ⟨staged, own⟩, rfl⟩ :=
    selected
  obtain ⟨version, material, proposed, wrapped, rfl⟩ := migrationEdge_ok made
  cases own
  exact .migration row number bytes version material stored under other committed staged proposed
    wrapped

/-- The dependents that are observed are exactly the edges in the tables. -/
theorem dependencies_ok (observed : dependencies db lid = .ok counts)
    (edge : DestructionDependent) : edge ∈ counts.dependents ↔ db.Edge lid edge := by
  simp only [dependencies, eq_ok] at observed
  obtain ⟨_, _, _, folded, _, listed, _, joined, rfl⟩ := observed
  rw [mem_sortDependents, mem_append, mem_append,
    (foldlM_includeRecord_ok .nil (foldlM_includeRow_ok folded)).2.2.2, or_assoc]
  constructor
  · rintro ((impossible | ⟨_, member, wraps⟩) | created | migrated)
    · cases impossible
    · obtain ⟨row, stored, rfl⟩ := mem_map.mp member
      exact .record edge row stored wraps
    · exact edge_of_creationEdges listed created
    · exact edge_of_migrationEdges joined migrated
  · intro depends
    cases depends with
    | record _ _ stored wraps => exact .inl (.inr ⟨_, mem_map_of_mem stored, wraps⟩)
    | creation row stored under other committed staged =>
      obtain ⟨_, member, made⟩ := (mem_mapM listed).1 row (by
        simp only [mem_filter, Bool.and_eq_true, beq_iff_eq, bne_iff_ne]
        exact ⟨stored, ⟨⟨under, other⟩, committed⟩, staged⟩)
      exact .inr (.inl (creationEdge_ok made ▸ member))
    | migration row number bytes _ _ stored under other committed staged proposed wrapped =>
      obtain ⟨_, member, made⟩ := (mem_mapM joined).1 (row, number) (by
        simp only [mem_flatMap, mem_map, mem_filter, Bool.and_eq_true, beq_iff_eq, bne_iff_ne]
        exact ⟨row, ⟨stored, ⟨under, other⟩, committed⟩, ((row.1.operationId, number), bytes),
          ⟨staged, rfl⟩, rfl⟩)
      obtain ⟨_, _, found, inner, same⟩ := migrationEdge_ok made
      cases proposed.symm.trans found
      cases wrapped.symm.trans inner
      exact .inr (.inr (same ▸ member))

end

end Destruction

/-! ### Schedules -/

/-- The stored schedule of a key. -/
def Db.scheduleRow (db : Db) (lid : Lid) : Option DeletionSchedule := db.deletionSchedules.get? lid

/-- The stored key is pending deletion at the given time. -/
def Db.PendingAt (db : Db) (lid : Lid) (scheduledAt : DateTime) : Prop :=
  ∃ row, db.keyRow lid = some row ∧ row.record.state = .pendingDeletion ∧
    row.record.scheduledDeletionAt = some scheduledAt

theorem Db.scheduleRow_eq (db : Db) : db.scheduleRow = db.deletionSchedules.get? := rfl

theorem Db.scheduleRow_delete (db : Db) (lid : Lid) :
    (db.deletionSchedules.delete fun l _ => l == lid).get? = update db.scheduleRow lid none :=
  Table.get?_delete_key

section
variable [UuidText] [Blake3] [IntentEncoding]

/-- The operations that write the schedule table. -/
def Op.reschedules : Op → Bool
  | .updateKey _ | .scheduleDestruction _ _ _ _ _ | .cancelDestruction _ _ _
  | .completeDestruction _ _ => true
  | _ => false

/-- The schedules after a step. -/
inductive ScheduleWrite (db : Db) :
    Op → Except KeyRackError Reply → (Lid → Option DeletionSchedule) → Prop where
  | failed : ScheduleWrite db op (.error e) db.scheduleRow
  | other (idle : Op.reschedules op = false) : ScheduleWrite db op result db.scheduleRow
  | keep {record : KeyRecord} (stored : key db record.lid = .ok (some previous))
      (state : previous.state = record.state)
      (schedule : previous.scheduledDeletionAt = record.scheduledDeletionAt) :
      ScheduleWrite db (.updateKey record) (.ok .done) db.scheduleRow
  | withdraw {record : KeyRecord} :
      ScheduleWrite db (.updateKey record) (.ok .done) (update db.scheduleRow record.lid none)
  | schedule {lid : Lid} {record : KeyRecord} {counts : DestructionDependencies}
      {reply : ScheduledDeletion} (stored : key db lid = .ok (some record))
      (idle : record.state ≠ .pendingDeletion) (observed : dependencies db lid = .ok counts)
      (approved : counts.approval allow = .ok intent)
      (recorded : reply.approvedDependents = intent.approvedDependents) :
      ScheduleWrite db (.scheduleDestruction lid expected scheduledAt allow now)
        (.ok (.scheduled reply)) (update db.scheduleRow lid (some ⟨scheduledAt, intent⟩))
  | cancel {lid : Lid} : ScheduleWrite db (.cancelDestruction lid expected now) (.ok reply)
      (update db.scheduleRow lid none)
  | complete {claim : DestructionClaim} :
      ScheduleWrite db (.completeDestruction claim now) (.ok reply)
        (update db.scheduleRow claim.record.lid none)
  | completed {claim : DestructionClaim} (stored : storedClaim db claim.record.lid = some row)
      (done : row.2.completed = true) :
      ScheduleWrite db (.completeDestruction claim now) (.ok reply) db.scheduleRow

variable {db db' : Db} {result : Except KeyRackError Reply}

theorem Effect.scheduleRow (effect : Effect db op result db')
    (idle : op.reschedules = false) : db'.scheduleRow = db.scheduleRow := by
  cases effect with
  | update | schedule | cancel | complete => cases idle
  | _ => rfl

theorem updateKey_scheduleRow (ran : updateKey record db = .ok (u, db')) :
    ScheduleWrite db (.updateKey record) (.ok .done) db'.scheduleRow := by
  obtain ⟨_, middle, _, passed, _, _, _, rfl⟩ := updateKey_ok ran
  simp only [guardUpdate, bind_eq_ok, requiredKey_eq_ok] at passed
  obtain ⟨_, _, _, _, previous, stored, rest⟩ := passed
  split at rest
  next =>
    cases pure_eq_ok.mp rest
    rw [Db.scheduleRow_eq, Db.scheduleRow_delete]
    exact .withdraw
  next same =>
    cases pure_eq_ok.mp rest
    rw [not_or, not_not, not_not] at same
    exact .keep stored same.1 same.2

variable {expected : Nat} {scheduledAt now : DateTime}

theorem destructionSchedule_scheduleRow
    (ran : destructionSchedule lid expected scheduledAt allow now db = .ok (reply, db')) :
    ScheduleWrite db (.scheduleDestruction lid expected scheduledAt allow now)
      (.ok (.scheduled reply)) db'.scheduleRow := by
  simp only [destructionSchedule, eq_ok, Prod.mk.injEq] at ran
  obtain ⟨_, _, record, checked, counts, observed, intent, approved, _, _, _, _, _, moved,
    middle, saved, rfl, rfl⟩ := ran
  obtain ⟨stored, rfl, _⟩ := checkedRecord_ok checked
  have allowed := (transition_ok moved).1
  have schedules : middle.deletionSchedules = db.deletionSchedules := by
    rw [(saveKey_ok saved).1]
  rw [Db.scheduleRow_eq, schedules, Table.get?_upsert]
  refine .schedule stored ?_ observed approved rfl
  -- a key that is pending already cannot be scheduled
  intro pending
  simp [KeyRecord.transitionAllowed, pending, KeyState.canTransitionTo,
    KeyState.validTransitions] at allowed

theorem destructionCancel_scheduleRow
    (ran : destructionCancel lid expected now db = .ok (record, db')) :
    ScheduleWrite db (.cancelDestruction lid expected now) (.ok (.record record))
      db'.scheduleRow := by
  simp only [destructionCancel, eq_ok, Prod.mk.injEq] at ran
  obtain ⟨_, _, _, _, _, _, _, _, _, _, middle, saved, rfl, rfl⟩ := ran
  have schedules : middle.deletionSchedules = db.deletionSchedules := by
    rw [(saveKey_ok saved).1]
  rw [Db.scheduleRow_eq, schedules, Db.scheduleRow_delete]
  exact .cancel

theorem destructionComplete_scheduleRow
    (ran : destructionComplete claim now db = .ok (record, db')) :
    ScheduleWrite db (.completeDestruction claim now) (.ok (.record record)) db'.scheduleRow := by
  simp only [destructionComplete, eq_ok, Prod.exists] at ran
  obtain ⟨index, row, found, _, _, _, _, _, _, _, _, rest⟩ := ran
  split at rest
  next done =>
    simp only [eq_ok, Prod.mk.injEq] at rest
    obtain ⟨_, _, rfl, rfl⟩ := rest
    exact .completed found done
  next =>
    simp only [completeClaim, eq_ok, Prod.mk.injEq] at rest
    obtain ⟨_, _, after, saved, rfl, rfl⟩ := rest
    have schedules : after.deletionSchedules = db.deletionSchedules := by
      rw [(saveKey_ok saved).1]
      rfl
    rw [Db.scheduleRow_eq, schedules, Db.scheduleRow_delete]
    exact .complete

theorem StorageStep.scheduleRow (step : StorageStep db (op, result) db') :
    ScheduleWrite db op result db'.scheduleRow := by
  have idle (other : op.reschedules = false) : ScheduleWrite db op result db'.scheduleRow := by
    rw [step.effect.scheduleRow other]
    exact .other other
  cases op with
  | updateKey =>
    rcases transact_cases step with ⟨_, rfl, rfl⟩ | ⟨_, ran, rfl⟩
    · exact .failed
    · exact updateKey_scheduleRow ran
  | scheduleDestruction =>
    rcases transact_cases step with ⟨_, rfl, rfl⟩ | ⟨_, ran, rfl⟩
    · exact .failed
    · exact destructionSchedule_scheduleRow ran
  | cancelDestruction =>
    rcases transact_cases step with ⟨_, rfl, rfl⟩ | ⟨_, ran, rfl⟩
    · exact .failed
    · exact destructionCancel_scheduleRow ran
  | completeDestruction =>
    rcases transact_cases step with ⟨_, rfl, rfl⟩ | ⟨_, ran, rfl⟩
    · exact .failed
    · exact destructionComplete_scheduleRow ran
  | _ => exact idle rfl

namespace ScheduleWrite

variable {db : Db} {result : Except KeyRackError Reply} {reply : Reply}

/-- A schedule that is stored after a step was stored before it, or was just made. -/
theorem stored (write : ScheduleWrite db op result rows) {schedule : DeletionSchedule}
    (found : rows lid = some schedule) :
    db.scheduleRow lid = some schedule ∨
      ∃ expected allow now record counts reply,
        op = .scheduleDestruction lid expected schedule.scheduledAt allow now ∧
        result = .ok (.scheduled reply) ∧ key db lid = .ok (some record) ∧
        record.state ≠ .pendingDeletion ∧ dependencies db lid = .ok counts ∧
        counts.approval allow = .ok schedule.intent ∧
        reply.approvedDependents = schedule.intent.approvedDependents := by
  have removed (other : Lid)
      (updated : update db.scheduleRow other none lid = some schedule) :
      db.scheduleRow lid = some schedule := by
    rw [update_apply] at updated
    split at updated
    · cases updated
    · exact updated
  cases write with
  | withdraw | cancel | complete => exact .inl (removed _ found)
  | schedule read idle observed approved recorded =>
    rw [update_apply] at found
    split at found
    · next same =>
      subst same
      cases found
      exact .inr ⟨_, _, _, _, _, _, rfl, rfl, read, idle, observed, approved, recorded⟩
    · exact .inl found
  | _ => exact .inl found

/-- An update that changes the state or the schedule withdraws the approval. -/
theorem update_cases (write : ScheduleWrite db (.updateKey record) (.ok reply) rows)
    (read : key db record.lid = .ok (some previous)) :
    (previous.state = record.state ∧
        previous.scheduledDeletionAt = record.scheduledDeletionAt) ∨ rows record.lid = none := by
  cases write with
  | other idle => cases idle
  | keep read' state schedule =>
    cases read.symm.trans read'
    exact .inl ⟨state, schedule⟩
  | withdraw => exact .inr (update_self ..)

theorem cancel_none
    (write : ScheduleWrite db (.cancelDestruction lid expected now) (.ok reply) rows) :
    rows lid = none := by
  cases write with
  | other idle => cases idle
  | cancel => exact update_self ..

theorem complete_none (write : ScheduleWrite db (.completeDestruction claim now) (.ok reply) rows)
    (stored : storedClaim db claim.record.lid = some row)
    (unfinished : row.2.completed = false) : rows claim.record.lid = none := by
  cases write with
  | other idle => cases idle
  | complete => exact update_self ..
  | completed stored' done =>
    cases stored.symm.trans stored'
    rw [unfinished] at done
    cases done

end ScheduleWrite

variable {event : Event}

/-- While a key is pending, nothing moves it or its schedule without the approval going
    away. -/
theorem StorageStep.pendingAt (step : StorageStep db event db')
    (pending : db.PendingAt lid scheduledAt) :
    db'.PendingAt lid scheduledAt ∨ db'.scheduleRow lid = none := by
  obtain ⟨_, _⟩ := event
  obtain ⟨row, found, state, schedule⟩ := pending
  have write := step.scheduleRow
  rcases step.effect.keyRow with same | ⟨old, new, keyWrite, ⟨_, rfl⟩, read, rows⟩
  · exact .inl ⟨row, same ▸ found, state, schedule⟩
  by_cases own : lid = new.lid
  · subst own
    have written : db'.keyRow new.lid = some (.of new) := by rw [rows, update_self]
    cases old with
    | none =>
      rw [key_eq_none.mp read] at found
      cases found
    | some old =>
      rw [(key_eq_some.mp read).1] at found
      cases found
      change old.state = _ at state
      cases keyWrite with
      | update =>
        rcases write.update_cases read with ⟨sameState, sameSchedule⟩ | withdrawn
        · exact .inl ⟨_, written, sameState.symm.trans state, sameSchedule.symm.trans schedule⟩
        · exact .inr withdrawn
      | publish _ _ _ accepted =>
        cases accepted with
        | next _ enabled =>
          rw [state] at enabled
          cases enabled
      | migrate _ _ _ valid =>
        have enabled := valid.enabled
        rw [state] at enabled
        cases enabled
      | schedule _ allowed =>
        simp [KeyRecord.transitionAllowed, state, KeyState.canTransitionTo,
          KeyState.validTransitions] at allowed
      | cancel => exact .inr write.cancel_none
      | claim => exact .inl ⟨_, written, state, schedule⟩
      | complete stored _ unfinished =>
        exact .inr (write.complete_none stored unfinished)
  · refine .inl ⟨row, ?_, state, schedule⟩
    rw [rows, update_of_ne own, found]

theorem Effect.pendingAt
    (effect : Effect db (.scheduleDestruction lid expected scheduledAt allow now) (.ok reply) db') :
    db'.PendingAt lid scheduledAt := by
  cases effect with
  | repeated repeats => exact repeats.elim
  | advance _ _ _ step =>
    cases step
  | ownMigration owns => cases owns
  | schedule _ _ _ rows =>
    exact ⟨_, (congrFun rows lid).trans (update_self ..), rfl, rfl⟩

/-- Every stored schedule is that of a key which is pending deletion at its time. -/
def Db.SchedulesPending (db : Db) : Prop :=
  ∀ lid schedule, db.scheduleRow lid = some schedule → db.PendingAt lid schedule.scheduledAt

theorem StorageStep.schedulesPending (step : StorageStep db event db')
    (pending : db.SchedulesPending) : db'.SchedulesPending := by
  intro lid schedule found
  obtain ⟨_, _⟩ := event
  rcases step.scheduleRow.stored found with before | ⟨_, _, _, _, _, _, rfl, rfl, _⟩
  · rcases step.pendingAt (pending lid schedule before) with kept | withdrawn
    · exact kept
    · rw [withdrawn] at found
      cases found
  · exact step.effect.pendingAt

/-! ### Runs -/

/-- A step after which the key is pending at this time. -/
def PendingStep (lid : Lid) (scheduledAt : DateTime) (db : Db) (event : Event) (db' : Db) : Prop :=
  StorageStep db event db' ∧ db'.PendingAt lid scheduledAt

/-- The stored approval was given by the scheduling that last made the key pending, for
    the dependents of that moment. -/
inductive ApprovedBy (events : List Event) (db : Db) (lid : Lid) (schedule : DeletionSchedule) :
    Prop where
  | intro (early late : List Event) (before after : Db) (expected : Nat) (now : DateTime)
      (record : KeyRecord) (reply : ScheduledDeletion)
      (split : events = early ++ (.scheduleDestruction lid expected schedule.scheduledAt
        schedule.intent.allowDependentDataLoss now, .ok (.scheduled reply)) :: late)
      (earlier : Run Db.empty early before) (stored : key before lid = .ok (some record))
      (idle : record.state ≠ .pendingDeletion)
      (scheduled : StorageStep before (.scheduleDestruction lid expected schedule.scheduledAt
        schedule.intent.allowDependentDataLoss now, .ok (.scheduled reply)) after)
      (pending : Steps (PendingStep lid schedule.scheduledAt) after late db)
      (recorded : reply.approvedDependents = schedule.intent.approvedDependents)
      (listed : ∀ edge ∈ reply.approvedDependents, before.Edge lid edge)

theorem ApprovedBy.step
    (approved : ApprovedBy events db lid schedule) (step : StorageStep db event db')
    (pending : db'.PendingAt lid schedule.scheduledAt) :
    ApprovedBy (events ++ [event]) db' lid schedule := by
  obtain ⟨early, late, before, after, expected, now, record, reply, rfl, earlier, stored, idle,
    scheduled, steps, recorded, listed⟩ := approved
  refine .intro early (late ++ [event]) before after expected now record reply (by simp) earlier
    stored idle scheduled ?_ recorded listed
  exact steps.append (.cons ⟨step, pending⟩ (.nil _))

/-- What a run from the empty tables establishes about the stored schedules. -/
structure Approvals (events : List Event) (db : Db) : Prop where
  run : Run Db.empty events db
  pending : db.SchedulesPending
  approved : ∀ lid schedule, db.scheduleRow lid = some schedule → ApprovedBy events db lid schedule

theorem Approvals.empty : Approvals [] Db.empty where
  run := .nil _
  pending _ _ found := by cases found
  approved _ _ found := by cases found

theorem Approvals.step {before after : Db} (approvals : Approvals past before)
    (step : StorageStep before event after) : Approvals (past ++ [event]) after := by
  obtain ⟨_, _⟩ := event
  have later := step.schedulesPending approvals.pending
  refine ⟨approvals.run.append (.cons step (.nil _)), later, fun lid schedule found => ?_⟩
  rcases step.scheduleRow.stored found with old | ⟨expected, allow, now, record, _, reply,
    rfl, rfl, stored, idle, observed, granted, recorded⟩
  · exact (approvals.approved lid schedule old).step step (later lid schedule found)
  · have intent := approval_ok granted
    have same : schedule.intent.allowDependentDataLoss = allow := by rw [intent]
    subst same
    refine .intro past [] before after expected now record reply rfl approvals.run stored idle
      step (.nil _) recorded fun edge member => ?_
    -- without the permission nothing is listed
    rw [recorded, intent] at member
    cases permitted : schedule.intent.allowDependentDataLoss with
    | false => simp [permitted] at member
    | true =>
      simp only [permitted, if_true] at member
      exact (dependencies_ok observed edge).mp member

theorem run_approvals (run : Run Db.empty events db) : Approvals events db :=
  run.history (fun _ _ _ _ step approvals => approvals.step step) Approvals.empty

/-- A claim that is admitted over dependents has found an approval of all of them. -/
theorem StorageStep.admitted {fresh : {operation : Uuid // operation.isNil = false}}
    (step : StorageStep db (.claimDestruction lid expected now fresh, result) db')
    (unclaimed : ¬db.Fenced lid) (fenced : db'.Fenced lid) (depends : db.Edge lid edge) :
    ∃ schedule, db.scheduleRow lid = some schedule ∧
      schedule.intent.allowDependentDataLoss = true ∧
      ∀ edge, db.Edge lid edge → edge ∈ schedule.intent.approvedDependents := by
  rcases transact_cases step with ⟨e, rfl, rfl⟩ | ⟨_, ran, rfl⟩
  · exact absurd fenced unclaimed
  · have absent : db.destructionJournal.select? (fun index => index.lid == lid) = none :=
      storedClaim_eq_none.mpr unclaimed
    rw [destructionClaim, absent] at ran
    simp only [admitClaim, bind_eq_ok, requiredKey_eq_ok] at ran
    obtain ⟨_, stored, _, observed, _, found, _, accepted, _⟩ := ran
    obtain ⟨_, allowed, listed⟩ := validateIntent_eq_ok.mp accepted
    have observes := dependencies_ok observed
    have permitted := allowed (ne_nil_of_mem ((observes edge).mpr depends))
    rw [storedIntent, (key_eq_some.mp stored).2, Table.select?_primary] at found
    rw [← Db.scheduleRow] at found
    cases kept : db.scheduleRow lid with
    | none =>
      -- without a schedule the default approves nothing
      rw [kept] at found
      cases found
      cases permitted
    | some schedule =>
      simp only [kept, Option.map_some, eq_ok] at found
      obtain ⟨_, _, rfl⟩ := found
      refine ⟨schedule, rfl, permitted, fun other edge => ?_⟩
      exact listed other ((observes other).mpr edge)

/-- **Deletion approval**: in every run a stored schedule is that of a key pending
    deletion at its time. A claim on a key with dependents commits only if the key was
    last made pending by a scheduling that allowed the loss, and every dependent is
    one that this scheduling has recorded. -/
theorem run_deletion_approval (db : Db) (events : List Event) (run : Run Db.empty events db) :
    db.SchedulesPending ∧
    ∀ lid expected now fresh result db',
      StorageStep db (.claimDestruction lid expected now fresh, result) db' →
      ¬db.Fenced lid → db'.Fenced lid → (∃ edge, db.Edge lid edge) →
      ∃ schedule, ApprovedBy events db lid schedule ∧
        schedule.intent.allowDependentDataLoss = true ∧
        ∀ edge, db.Edge lid edge → edge ∈ schedule.intent.approvedDependents := by
  have approvals := run_approvals run
  refine ⟨approvals.pending, ?_⟩
  rintro lid _ _ _ _ _ step unclaimed fenced ⟨_, depends⟩
  obtain ⟨schedule, found, allowed, listed⟩ := step.admitted unclaimed fenced depends
  exact ⟨schedule, approvals.approved lid schedule found, allowed, listed⟩

end

open Sample

/-- Key 2 is wrapped under key 1, whose deletion is then scheduled with the loss
    allowed. -/
def approvingOps : List Op :=
  [.createKey (residentRecord (sampleLid 1)),
    .createKey (wrappedRecord (sampleLid 2) (sampleLid 1) sampleReference),
    .scheduleDestruction (sampleLid 1) 1 10 true 5]

abbrev approvedRun : List Event × Db := replay Db.empty approvingOps

theorem run_deletion_approval_claimed :
    ∃ schedule, ApprovedBy approvedRun.1 approvedRun.2 (sampleLid 1) schedule ∧
      schedule.intent.allowDependentDataLoss = true ∧
      ∀ edge, approvedRun.2.Edge (sampleLid 1) edge →
        edge ∈ schedule.intent.approvedDependents := by
  refine (run_deletion_approval _ _ (run_replay _ approvingOps)).2 (sampleLid 1) 2 20
    ⟨⟨7⟩, by decide⟩ _ _ rfl ?_ ?_ ?_
  · rintro ⟨_, member, _⟩
    cases member
  · have claimed : (Op.run (.claimDestruction (sampleLid 1) 2 20 ⟨⟨7⟩, by decide⟩)
        approvedRun.2).2.destructionJournal.any (fun index _ => index.lid == sampleLid 1) =
        true := by decide +kernel
    obtain ⟨row, member, own⟩ := Table.any_eq_true.mp claimed
    exact ⟨row, member, eq_of_beq own⟩
  · have stored : approvedRun.2.keyRow (sampleLid 2) =
        some (.of (wrappedRecord (sampleLid 2) (sampleLid 1) sampleReference)) := by
      decide +kernel
    refine ⟨_, .record _ (sampleLid 2, _) (Table.get?_eq_some.mp stored) ⟨?_, ?_, _,
      mem_cons_self, _, rfl, rfl, rfl⟩⟩
    · decide
    · decide

end KeyRack.Sqlite
