import KeyRack.Properties.StorageReads

/-!
# What a storage operation can do

`Effect` says once, for every operation, which tables a committed transaction
changes and what its checks have established. Every invariant of the backend is
a case analysis of `Effect`; nothing below unfolds an operation again.
-/
namespace KeyRack.Sqlite

open Fallible Function Destruction

/-! ### Facts that the guards leave behind -/

/-- Neither the key nor a parent it is wrapped under is fenced. -/
def Db.Unfenced (db : Db) (record : KeyRecord) : Prop :=
  ¬db.Fenced record.lid ∧ ∀ parent, WrapsUnder record parent → ¬db.Fenced parent

/-- What `updateKey` requires of the stored and the new record. -/
structure Updates (db : Db) (previous record : KeyRecord) : Prop where
  occVersion : record.occVersion = previous.occVersion + 1
  history : previous.hasCompromiseHistory = true → record.hasCompromiseHistory = true
  versions : Migration.hasWrapped previous = true → record.keyVersions = previous.keyVersions
  unfenced : db.Unfenced record
  live : record.state ≠ .destroyed

def claimedRecord (record : KeyRecord) (now : DateTime) : KeyRecord :=
  { record with occVersion := record.occVersion + 1, updatedAt := now }

def destroyedRecord (record : KeyRecord) (now : DateTime) : KeyRecord :=
  { record with occVersion := record.occVersion + 1, state := .destroyed, updatedAt := now }

/-- A deletion was scheduled or cancelled: the state moved and the schedule changed. -/
def movedRecord (record : KeyRecord) (target : KeyState) (scheduledDeletionAt : Option DateTime)
    (now : DateTime) : KeyRecord :=
  { record with
    wasCompromised := record.hasCompromiseHistory || target == .compromised
    state := target
    occVersion := record.occVersion + 1
    updatedAt := now
    scheduledDeletionAt }

def reservedJournalOf (request : CreationRequest) : CreationJournal :=
  ⟨request, false, 1, .reserved, none, none, none⟩

variable {db : Db} {record : KeyRecord}

theorem Destruction.guardUpdate_ok (passed : guardUpdate db record = .ok db') :
    db.Unfenced record ∧ record.state ≠ .destroyed ∧
      db' = { db with deletionSchedules := db'.deletionSchedules } := by
  simp only [guardUpdate, eq_ok] at passed
  obtain ⟨_, unfenced, _, live, _, _, rest⟩ := passed
  refine ⟨guardWrite_ok unfenced, live, ?_⟩
  split at rest
  · cases pure_eq_ok.mp rest
    rfl
  · cases pure_eq_ok.mp rest
    rfl

theorem Migration.guardUpdate_versions (passed : Migration.guardUpdate db previous next = .ok u)
    (wrapped : Migration.hasWrapped previous = true) : next.keyVersions = previous.keyVersions := by
  simp only [Migration.guardUpdate, Migration.guardWrappedHistory, wrapped, if_true,
    eq_ok] at passed
  obtain ⟨_, _, _, _, _, _, _, ⟨_, _, _, compared, accepted⟩, _⟩ := passed
  exact (eq_of_sameJson compared accepted).symm

/-- A creation journal and its row after publication. -/
def publishedJournal (journal : CreationJournal) : CreationJournal :=
  { journal with
    committedRecord := some journal.request.record, phase := .committed, revision := 4 }

def publishedRow (row : CreationRow) : CreationRow :=
  { row with phase := .committed, journal := publishedJournal row.journal }

/-- A successful update: the row is replaced, and the schedule is what the guard before
    the write has left. -/
theorem updateKey_ok (ran : updateKey record db = .ok (u, db')) :
    ∃ previous middle keys, guardUpdate db record = .ok middle ∧
      key db record.lid = .ok (some previous) ∧ Updates db previous record ∧
      keys.get? = update db.keyRow record.lid (some (.of (latched record))) ∧
      db' = { db with keys, deletionSchedules := middle.deletionSchedules } := by
  simp only [updateKey, eq_ok, toI64_eq_ok, requiredKey_eq_ok, Prod.mk.injEq, not_not,
    not_and] at ran
  obtain ⟨_, _, _, _, _, ⟨_, rfl⟩, previous, stored, _, _, _, history, _, migration, _, _,
    middle, fences, _, matched, _, rfl⟩ := ran
  obtain ⟨unfenced, live, frame⟩ := guardUpdate_ok fences
  obtain ⟨old, row, column⟩ := matchingRows_ne_zero matched
  have change : Updates db previous record :=
    ⟨by omega, history, Migration.guardUpdate_versions migration, unfenced, live⟩
  have written : (updateKeyRow middle (latched record) record.occVersion old.occVersion).keyRow =
      update middle.keyRow record.lid (some (.of (latched record))) :=
    keyRow_updateKeyRow (latched record) record.occVersion row
  -- the guard may have dropped the schedule; the key table is untouched
  have unchanged : middle.keyRow = db.keyRow := by rw [frame]; rfl
  rw [unchanged, column] at written
  refine ⟨previous, middle, _, fences, stored, change, written, ?_⟩
  rw [frame]
  rfl

theorem transact_cases (ran : transact body reply db = (result, db')) :
    (∃ e, result = .error e ∧ db' = db) ∨
      ∃ value, body db = .ok (value, db') ∧ result = reply value := by
  unfold transact at ran
  split at ran
  next value _ returned =>
    cases ran
    exact Or.inr ⟨value, returned, rfl⟩
  next e _ =>
    cases ran
    exact Or.inl ⟨e, rfl, rfl⟩

theorem claim_ok {journal next : MigrationJournal}
    (claimed : journal.claim owner expectedEpoch = .ok next) : journal.phase ≠ .committed ∧
      next = { journal with epoch := journal.epoch + 1, owner := some owner } := by
  simp only [MigrationJournal.claim, eq_ok, checkedSucc_eq_some] at claimed
  obtain ⟨_, _, _, uncommitted, _, ⟨_, rfl⟩, rfl⟩ := claimed
  exact ⟨uncommitted, rfl⟩

theorem beginDispatch_ok {journal next : MigrationJournal}
    (began : journal.beginDispatch ownership retrySafe = .ok next) :
    journal.phase = .reserved ∧
      (∀ dispatch, journal.dispatch = some dispatch → dispatch.retrySafe = true) ∧
      next = { journal with dispatch := some ⟨ownership.epoch, retrySafe⟩ } := by
  simp only [MigrationJournal.beginDispatch, eq_ok, not_not] at began
  obtain ⟨_, _, _, reserved, _, repeatable, rfl⟩ := began
  refine ⟨reserved, fun dispatch dispatched => ?_, rfl⟩
  simpa [dispatched] using repeatable

variable [UuidText] [Blake3] [IntentEncoding]

/-- The operation, result and new columns of a creation row that moves on. -/
inductive Advance (db : Db) (operation : Uuid) (row : CreationRow) :
    Op → Except KeyRackError Reply → CreationRow → Prop where
  | dispatch (unclaimed : row.journal.dispatchStarted = false)
      (child : key db row.journal.request.record.lid = .ok current)
      (accepted : row.journal.request.Extends current) :
      Advance db operation row (.claimCreationDispatch operation owner)
        (.ok (.dispatch (.started { row.journal with dispatchStarted := true })))
        { row with journal := { row.journal with dispatchStarted := true } }
  | stage (claimed : row.journal.dispatchStarted = true) :
      Advance db operation row (.stageCreation operation owner revision bytes)
        (.ok (.creation { row.journal with
          envelopeDigest := some (Blake3.hash bytes), phase := .staged, revision := 2 }))
        { phase := .staged
          journal := { row.journal with
            envelopeDigest := some (Blake3.hash bytes), phase := .staged, revision := 2 }
          envelope := some bytes }
  | resolve {closure : VerifiedA2Closure} (staged : row.journal.phase = .staged) :
      Advance db operation row (.resolveCreation operation owner revision closure)
        (.ok (.creation { row.journal with
          closure := some closure.claim, phase := .resolved, revision := 3 }))
        { row with
          phase := .resolved
          journal := { row.journal with
            closure := some closure.claim, phase := .resolved, revision := 3 } }

/-- The new journal of a migration row whose phase stays. -/
structure Owned (row : MigrationRow) (journal : MigrationJournal) : Prop where
  request : journal.request = row.journal.request
  phase : journal.phase = row.journal.phase
  uncommitted : row.journal.phase ≠ .committed

/-- Successful replies that may leave the tables as they are: retries of a journal
    operation, and a claim that finds nothing to do. -/
def Op.Repeats : Op → Reply → Prop
  | .reserveCreation _, .creation _ => True
  | .claimCreationDispatch _ _, .dispatch (.existing _) => True
  | .stageCreation _ _ _ _, .creation _ => True
  | .resolveCreation _ _ _ _, .creation _ => True
  | .publishCreation _ _ _, .record _ => True
  | .withdrawCreation _, .done => True
  | .reserveMigration _, .migration _ => True
  | .stageMigration _ _ _, .migration _ => True
  | .commitMigration _ _, .record _ => True
  | .claimDestruction _ _ _ _, .claimed none => True
  | .completeDestruction _ _, .record _ => True
  | _, _ => False

/-- The operations that change who drives a migration. -/
inductive OwnsMigration (operation : Uuid) (old new : MigrationJournal) : Op → Prop where
  | claim (claimed : old.claim owner expectedEpoch = .ok new) :
      OwnsMigration operation old new (.claimMigration operation owner expectedEpoch)
  | dispatch (began : old.beginDispatch ownership retrySafe = .ok new) :
      OwnsMigration operation old new (.beginMigrationDispatch operation ownership retrySafe)

/-- The other ones leave it to its driver. -/
structure SameDriver (old new : MigrationJournal) : Prop where
  request : new.request = old.request
  owner : new.owner = old.owner
  epoch : new.epoch = old.epoch
  dispatch : new.dispatch = old.dispatch

open Creation Migration in
/-- What a step of the backend does: its operation, its result and the tables after it. -/
inductive Effect (db : Db) : Op → Except KeyRackError Reply → Db → Prop where
  | failed : Effect db op (.error e) db
  | repeated (repeats : Op.Repeats op reply) : Effect db op (.ok reply) db
  | create {record : KeyRecord} (absent : key db record.lid = .ok none)
      (unfenced : db.Unfenced record)
      (rows : Db.keyRow { db with keys } =
        update db.keyRow record.lid (some (.of (latched record)))) :
      Effect db (.createKey record) (.ok .done) { db with keys }
  | update {record : KeyRecord} (stored : key db record.lid = .ok (some previous))
      (change : Updates db previous record)
      (rows : Db.keyRow { db with keys } =
        update db.keyRow record.lid (some (.of (latched record)))) :
      Effect db (.updateKey record) (.ok .done) { db with keys, deletionSchedules }
  | reserve {request : CreationRequest} (validated : request.validate = .ok ())
      (valid : request.Valid material) (unused : storedJournal db request.operation = none)
      (unretired : db.retiredCreationJournal.get? request.operation = none)
      (free : ∀ lid, (creationIndex request material).names lid = true →
        ¬db.Migrating lid ∧ ¬db.Fenced lid)
      (rows : storedJournal { db with creationJournal } =
        update (storedJournal db) request.operation (some (creationIndex request material,
          ⟨.reserved, reservedJournalOf request, none⟩))) :
      Effect db (.reserveCreation request) (.ok (.creation (reservedJournalOf request)))
        { db with creationJournal }
  | advance (stored : storedJournal db operation = some row) (bound : Creation.Bound row material)
      (unfinished : row.2.phase ≠ .committed) (step : Advance db operation row.2 op result next)
      (valid : next.journal.Valid)
      (rows : storedJournal { db with creationJournal } =
        update (storedJournal db) operation (some (row.1, next))) :
      Effect db op result { db with creationJournal }
  | publish (stored : storedJournal db operation = some row) (bound : Creation.Bound row material)
      (resolved : row.2.journal.phase = .resolved)
      (child : key db row.2.journal.request.record.lid = .ok current)
      (accepted : row.2.journal.request.Extends current)
      (keyRows : Db.keyRow { db with keys } = update db.keyRow row.2.journal.request.record.lid
        (some (.of row.2.journal.request.record)))
      (valid : (publishedJournal row.2.journal).Valid)
      (rows : storedJournal { db with creationJournal } =
        update (storedJournal db) operation (some (row.1, publishedRow row.2))) :
      Effect db (.publishCreation operation owner revision)
        (.ok (.record row.2.journal.request.record)) { db with keys, creationJournal }
  | withdraw (stored : storedJournal db operation = some row) (bound : Creation.Bound row material)
      (closed : row.2.journal.phase = .reserved ∧ row.2.journal.dispatchStarted = false ∨
        row.2.journal.phase = .resolved)
      (rows : storedJournal { db with creationJournal } =
        update (storedJournal db) operation none) :
      Effect db (.withdrawCreation operation) (.ok .done) { db with creationJournal }
  | reserveMigration {request : MigrationRequest} (validated : request.validate = .ok ())
      (snapshots : Snapshots db request) (unused : storedMigration db request.operation = none)
      (free : ∀ lid, (migrationIndex request).names lid = true →
        ¬db.Migrating lid ∧ ¬db.Creating lid)
      (rows : storedMigration { db with migrationJournal } =
        update (storedMigration db) request.operation
          (some (migrationIndex request, ⟨false, .reserved request⟩))) :
      Effect db (.reserveMigration request) (.ok (.migration (.reserved request)))
        { db with migrationJournal }
  | ownMigration {row : MigrationIndex × MigrationRow} {journal : MigrationJournal}
      (owns : OwnsMigration operation row.2.journal journal op)
      (stored : storedMigration db operation = some row) (bound : Migration.Bound row)
      (owned : Owned row.2 journal) (validated : journal.validate = .ok ())
      (rows : storedMigration { db with migrationJournal } =
        update (storedMigration db) operation (some (row.1, ⟨false, journal⟩))) :
      Effect db op (.ok (.migration journal)) { db with migrationJournal }
  | stageMigration {journal : MigrationJournal}
      (stored : storedMigration db operation = some row) (bound : Migration.Bound row)
      (reserved : row.2.journal.phase = .reserved) (same : SameDriver row.2.journal journal)
      (phase : journal.phase = .staged) (validated : journal.validate = .ok ())
      (bytes : ∀ staged, staged ∈ migrationEnvelopes ↔ staged ∈ db.migrationEnvelopes ∨
        ∃ version envelope,
          (version, envelope) ∈ journal.request.proposed.keyVersions.zip envelopes ∧
          staged = ((operation, version.versionNumber), envelope))
      (rows : storedMigration { db with migrationJournal } =
        update (storedMigration db) operation (some (row.1, ⟨false, journal⟩))) :
      Effect db (.stageMigration operation ownership envelopes) (.ok (.migration journal))
        { db with migrationEnvelopes, migrationJournal }
  | migrate {journal : MigrationJournal} (stored : storedMigration db operation = some row)
      (bound : Migration.Bound row) (staged : row.2.journal.phase = .staged)
      (snapshots : Snapshots db row.2.journal.request)
      (same : SameDriver row.2.journal journal) (phase : journal.phase = .committed)
      (validated : journal.validate = .ok ())
      (retires : db.retiredCreationJournal.insertAll?
        (committedCreations db row.2.journal.request.child.lid) = some retired)
      (keyRows : Db.keyRow { db with keys } = update db.keyRow row.2.journal.request.child.lid
        (some (.of row.2.journal.request.proposed)))
      (rows : storedMigration { db with migrationJournal } =
        update (storedMigration db) operation (some (row.1, ⟨true, journal⟩))) :
      Effect db (.commitMigration operation ownership)
        (.ok (.record row.2.journal.request.proposed))
        { retireChild db row.2.journal.request.child.lid retired with keys, migrationJournal }
  | schedule {record : KeyRecord} (stored : key db lid = .ok (some record))
      (unfenced : ¬db.Fenced lid) (allowed : record.transitionAllowed .pendingDeletion = true)
      (rows : Db.keyRow { db with keys } = update db.keyRow lid
        (some (.of (movedRecord record .pendingDeletion (some scheduledAt) now)))) :
      Effect db (.scheduleDestruction lid record.occVersion scheduledAt allow now)
        (.ok (.scheduled schedule)) { db with keys, deletionSchedules }
  | cancel {record : KeyRecord} (stored : key db lid = .ok (some record))
      (unfenced : ¬db.Fenced lid) (allowed : record.transitionAllowed .disabled = true)
      (rows : Db.keyRow { db with keys } = update db.keyRow lid
        (some (.of (movedRecord record .disabled none now)))) :
      Effect db (.cancelDestruction lid record.occVersion now)
        (.ok (.record (movedRecord record .disabled none now))) { db with keys, deletionSchedules }
  | recover {claim : DestructionClaim} (stored : storedClaim db lid = some row)
      (unfinished : row.2.completed = false) (current : key db lid = .ok (some row.2.record))
      (operation : claim.operation = row.1.operationId) (record : claim.record = row.2.record) :
      Effect db (.claimDestruction lid expectedOcc now fresh) (.ok (.claimed (some claim)))
        { db with destroyedWrappingParents }
  | claim {record : KeyRecord} {claim : DestructionClaim}
      {fresh : {operation : Uuid // operation.isNil = false}}
      (stored : key db lid = .ok (some record)) (pending : record.state = .pendingDeletion)
      (unclaimed : ¬db.Fenced lid) (notCreating : ¬db.Creating lid)
      (notMigrating : ¬db.Migrating lid) (operation : claim.operation = fresh.1)
      (claimed : claim.record = claimedRecord record now)
      (keyRows : Db.keyRow { db with keys } =
        update db.keyRow lid (some (.of (claimedRecord record now))))
      (rows : storedClaim { db with destructionJournal } = update (storedClaim db) lid
        (some (⟨lid, fresh.1⟩, ⟨claimedRecord record now, false⟩))) :
      Effect db (.claimDestruction lid record.occVersion now fresh) (.ok (.claimed (some claim)))
        { db with keys, destructionJournal, destroyedWrappingParents }
  | complete {claim : DestructionClaim} (stored : storedClaim db claim.record.lid = some row)
      (operation : row.1.operationId = claim.operation) (record : row.2.record = claim.record)
      (unfinished : row.2.completed = false)
      (current : key db claim.record.lid = .ok (some claim.record))
      (retires : retired = (committedCreations db claim.record.lid).foldl
        (fun t row => t.insertOrIgnore row.1 row.2) db.retiredCreationJournal)
      (keyRows : Db.keyRow { db with keys } = update db.keyRow claim.record.lid
        (some (.of (destroyedRecord claim.record now))))
      (rows : storedClaim { db with destructionJournal } =
        update (storedClaim db) claim.record.lid (some (row.1, { row.2 with completed := true }))) :
      Effect db (.completeDestruction claim now) (.ok (.record (destroyedRecord claim.record now)))
        { retireChild db claim.record.lid retired with keys, destructionJournal, deletionSchedules }

/-! ### Keys -/

theorem createKey_effect (ran : createKey record db = .ok (u, db')) :
    Effect db (.createKey record) (.ok .done) db' := by
  simp only [createKey, eq_ok, toI64_eq_ok, Prod.mk.injEq] at ran
  obtain ⟨_, _, _, ⟨_, rfl⟩, _, _, _, _, _, unfenced, keys, inserted, _, rfl⟩ := ran
  obtain ⟨absent, rows⟩ := keyRow_insert? inserted
  exact .create (key_eq_none.mpr absent) (guardWrite_ok unfenced) rows

theorem updateKey_effect (ran : updateKey record db = .ok (u, db')) :
    Effect db (.updateKey record) (.ok .done) db' := by
  obtain ⟨previous, _, keys, _, stored, change, rows, rfl⟩ := updateKey_ok ran
  exact .update stored change rows

/-! ### Creations -/

variable {value : CreationJournal}

section
open Creation Stateful

theorem reserveA2_effect (ran : reserveA2 request db = .ok (value, db')) :
    Effect db (.reserveCreation request) (.ok (.creation value)) db' := by
  simp only [reserveA2, bind_eq_ok] at ran
  obtain ⟨_, validated, _, settled, _, unfenced, existing, found, rest⟩ := ran
  cases existing with
  | some =>
    -- a retry of the same intent
    simp only [reserveExisting, eq_ok, Prod.mk.injEq] at rest
    obtain ⟨_, _, _, _, _, _, rfl, rfl⟩ := rest
    exact .repeated trivial
  | none =>
    simp only [reserveNew, eq_ok, Prod.mk.injEq] at rest
    obtain ⟨material, given, _, _, _, _, _, _, _, reserved, _, _, creations, inserted, rfl, rfl⟩ :=
      rest
    obtain ⟨_, rfl⟩ := reserved_eq_ok.mp reserved
    obtain ⟨unused, unretired⟩ := journal_none found
    obtain ⟨_, rows⟩ := Table.find_insert? CreationIndex.clash_of_operation inserted
    obtain ⟨_, valid⟩ := CreationRequest.validate_valid validated
    cases given.symm.trans valid.given
    -- the primary version is wrapped under the parent, so both guards reach it
    have wraps : WrapsUnder request.record material.parent.lid := by
      obtain ⟨version, primary, wrapped⟩ := CreationRequest.material_ok given
      exact ⟨version, (CreationRequest.primaryVersion_number primary).1, material, wrapped, rfl⟩
    have free : ∀ lid, (creationIndex request material).names lid = true →
        ¬db.Migrating lid ∧ ¬db.Fenced lid := by
      intro _ named
      simp only [creationIndex, CreationIndex.names, Bool.or_eq_true, beq_iff_eq] at named
      obtain ⟨ownSettled, parentSettled⟩ := guardRecord_ok settled
      obtain ⟨ownFree, parentFree⟩ := guardWrite_ok unfenced
      rcases named with rfl | rfl
      · exact ⟨parentSettled _ wraps, parentFree _ wraps⟩
      · exact ⟨ownSettled, ownFree⟩
    exact .reserve validated valid unused unretired free rows

variable {operation : Uuid}

theorem claimA2Dispatch_effect (ran : claimA2Dispatch operation owner db = .ok (outcome, db')) :
    Effect db (.claimCreationDispatch operation owner) (.ok (.dispatch outcome)) db' := by
  simp only [claimA2Dispatch, bind_eq_ok, Prod.exists, toExcept_eq_ok] at ran
  obtain ⟨_, found, _, _, claimed, rest⟩ := ran
  obtain ⟨_, _, ⟨rfl, _, rfl⟩ | ⟨rfl, unclaimed, phase, rfl⟩⟩ := claimDispatch_ok claimed
  · obtain ⟨rfl, rfl⟩ := rest
    exact .repeated trivial
  · simp only [if_true, startDispatch, eq_ok, Prod.mk.injEq] at rest
    obtain ⟨current, child, _, _, _, _, _, records, _, saved, rfl, rfl⟩ := rest
    obtain ⟨row, material, stored, rfl, bound⟩ :=
      stored_of_unfinished (requiredJournal_eq_ok.mp found) (by rw [phase]; decide)
    obtain ⟨valid, frame, rows⟩ := save_ok stored saved (bound.operation_eq stored)
    rw [frame]
    refine .advance stored bound ?_
      (.dispatch unclaimed child (CreationRequest.validateRecords_ok records).2) valid ?_
    · rw [bound.phase, phase]
      decide
    · rw [bound.phase]
      exact rows

theorem stageA2_effect (ran : stageA2 operation owner revision bytes db = .ok (value, db')) :
    Effect db (.stageCreation operation owner revision bytes) (.ok (.creation value)) db' := by
  simp only [stageA2, eq_ok, Prod.exists, toExcept_eq_ok, Prod.mk.injEq] at ran
  obtain ⟨prior, found, _, _, staged, _, stores, after, saved, rfl, rfl⟩ := ran
  obtain ⟨_, claimed, _, _, _, outcome⟩ := stage_ok staged
  by_cases reserved : prior.phase = .reserved
  · obtain ⟨row, material, stored, rfl, bound⟩ :=
      stored_of_unfinished (requiredJournal_eq_ok.mp found) (by rw [reserved]; decide)
    rcases outcome with ⟨digest, rfl⟩ | ⟨_, rfl⟩
    · -- a reserved journal has no digest, so this is not a retry
      exact absurd reserved (bound.valid.present.2.2.1.mp (by rw [digest]; rfl))
    · rw [reserved] at stores
      -- two updates of one row: first the bytes, then the journal
      obtain ⟨frame, written⟩ := storeEnvelope_reserved stored stores
      have middleStored := congrFun written operation
      rw [update_self] at middleStored
      obtain ⟨valid, frame', rows⟩ := save_ok middleStored saved (bound.operation_eq stored)
      have shape : after = { db with creationJournal := after.creationJournal } := by
        rw [frame', frame]
      rw [written, update_idem] at rows
      rw [shape]
      refine .advance stored bound ?_ (.stage claimed) valid rows
      rw [bound.phase, reserved]
      decide
  · -- a later phase: the stored bytes are compared and the journal stays
    rcases outcome with ⟨_, rfl⟩ | ⟨phase, _⟩
    · simp only [storeEnvelope, reserved, if_false, eq_ok] at stores
      obtain ⟨_, read, _, _, rfl⟩ := stores
      obtain ⟨_, _, stored, rfl, bound, _⟩ := stored_of_envelope found read
      have same := save_same bound (bound.operation_eq stored ▸ stored) saved
      rw [same]
      exact .repeated trivial
    · exact absurd phase reserved

theorem resolveA2_effect (ran : resolveA2 operation owner revision closed db = .ok (value, db')) :
    Effect db (.resolveCreation operation owner revision closed) (.ok (.creation value)) db' := by
  simp only [resolveA2, eq_ok, Prod.exists, toExcept_eq_ok, Prod.mk.injEq] at ran
  obtain ⟨_, found, _, read, _, _, _, _, resolved, _, saved, rfl, rfl⟩ := ran
  obtain ⟨row, material, stored, rfl, bound, _⟩ := stored_of_envelope found read
  have operationSame := bound.operation_eq stored
  obtain ⟨_, _, _, _, ⟨_, rfl⟩ | ⟨staged, rfl⟩⟩ := resolve_ok resolved
  · rw [save_same bound (operationSame ▸ stored) saved]
    exact .repeated trivial
  · obtain ⟨valid, frame, rows⟩ := save_ok stored saved operationSame
    rw [frame]
    refine .advance stored bound ?_ (.resolve staged) valid rows
    rw [bound.phase, staged]
    decide

theorem publishA2_effect (ran : publishA2 operation owner revision db = .ok (record, db')) :
    Effect db (.publishCreation operation owner revision) (.ok (.record record)) db' := by
  simp only [publishA2, bind_eq_ok] at ran
  obtain ⟨_, found, retry, _, rest⟩ := ran
  cases retry with
  | some =>
    obtain ⟨rfl, rfl⟩ := Prod.mk.inj (pure_eq_ok.mp rest)
    exact .repeated trivial
  | none =>
    simp only [publishResolved, eq_ok, Prod.exists, toExcept_eq_ok, toI64_eq_ok,
      Prod.mk.injEq] at rest
    obtain ⟨_, read, _, _, current, child, _, _, _, _, _, _, _, _, published, _, _, _,
      ⟨_, rfl⟩, middle, wrote, after, saved, rfl, rfl⟩ := rest
    obtain ⟨row, material, stored, rfl, bound, _⟩ := stored_of_envelope found read
    obtain ⟨_, _, resolved, records, rfl, rfl⟩ := publication_ok published
    obtain ⟨frame, keyRows⟩ := writeRecord_ok child wrote
    -- the record is written first, which leaves the journal alone
    have lookups : storedJournal middle = storedJournal db := by rw [frame]; rfl
    obtain ⟨valid, frame', rows⟩ := save_ok (lookups ▸ stored) saved (bound.operation_eq stored)
    rw [lookups] at rows
    have shape : after = { db with
        keys := middle.keys, creationJournal := after.creationJournal } := by
      rw [frame', frame]
    rw [shape]
    exact .publish stored bound resolved child (CreationRequest.validateRecords_ok records).2
      keyRows valid rows

theorem withdrawA2_effect (ran : withdrawA2 operation db = .ok (u, db')) :
    Effect db (.withdrawCreation operation) (.ok .done) db' := by
  simp only [withdrawA2, bind_eq_ok] at ran
  obtain ⟨existing, found, rest⟩ := ran
  cases existing with
  | none =>
    obtain ⟨_, rfl⟩ := Prod.mk.inj (pure_eq_ok.mp rest)
    exact .repeated trivial
  | some =>
    simp only [eq_ok, Prod.mk.injEq] at rest
    obtain ⟨_, withdrawable, _, _, _, rfl⟩ := rest
    have closed := withdrawable_ok withdrawable
    obtain ⟨row, material, stored, rfl, bound⟩ :=
      stored_of_unfinished found (by rintro committed; simp [committed] at closed)
    exact .withdraw stored bound closed (Table.find_delete_key CreationIndex.clash_of_operation)

end

/-! ### Migrations -/

section
open Migration

variable {value : MigrationJournal}

theorem migrationReserve_effect (ran : migrationReserve request db = .ok (value, db')) :
    Effect db (.reserveMigration request) (.ok (.migration value)) db' := by
  simp only [migrationReserve, bind_eq_ok] at ran
  obtain ⟨_, validated, existing, found, rest⟩ := ran
  cases existing with
  | some =>
    -- a retry of the same intent
    simp only [reserveExisting, eq_ok, Prod.mk.injEq] at rest
    obtain ⟨_, _, _, _, rfl, rfl⟩ := rest
    exact .repeated trivial
  | none =>
    simp only [reserveNew, eq_ok, checkAll_eq_ok, Prod.mk.injEq, migrationGuard_eq_ok,
      List.forall_mem_cons, Table.any_eq_true] at rest
    obtain ⟨_, taken, _, ⟨child, old, new, _⟩, _, _, migrations, inserted, rfl, rfl⟩ := rest
    obtain ⟨_, rows⟩ := Table.find_insert? MigrationIndex.clash_of_operation inserted
    have free : ∀ lid, (migrationIndex request).names lid = true →
        ¬db.Migrating lid ∧ ¬db.Creating lid := by
      intro _ named
      -- each of the three keys has passed both queries
      have pending (record : KeyRecord)
          (passed : ∃ _ : Unit, ¬db.Migrating record.lid ∧
            ¬∃ row ∈ db.creationJournal,
              (row.2.phase != .committed && row.1.names record.lid) = true) :
          ¬db.Migrating record.lid ∧ ¬db.Creating record.lid := by
        obtain ⟨_, settled, none⟩ := passed
        refine ⟨settled, ?_⟩
        rintro ⟨row, member, unfinished, names⟩
        exact none ⟨row, member, by simp [unfinished, names]⟩
      simp only [migrationIndex, MigrationIndex.names, Bool.or_eq_true, beq_iff_eq] at named
      rcases named with (rfl | rfl) | rfl
      · exact pending _ child
      · exact pending _ old
      · exact pending _ new
    exact .reserveMigration validated (snapshots_ok taken) (load_none found) free rows

/-- An update of a stored journal that leaves its phase uncommitted. -/
theorem ownMigration_effect (owns : OwnsMigration operation value next op)
    (found : required db operation = .ok value) (request : next.request = value.request)
    (phase : next.phase = value.phase) (uncommitted : value.phase ≠ .committed)
    (saved : save db next = .ok db') : Effect db op (.ok (.migration next)) db' := by
  obtain ⟨row, stored, rfl, bound⟩ := required_eq_ok.mp found
  obtain ⟨validated, frame, rows⟩ := Migration.save_ok stored saved
    (request ▸ bound.operation_eq stored)
  have column : (next.phase == .committed) = false := by
    rw [phase]
    exact beq_eq_false_iff_ne.mpr uncommitted
  rw [column] at rows
  rw [frame]
  exact .ownMigration owns stored bound ⟨request, phase, uncommitted⟩ validated rows

theorem migrationClaim_effect
    (ran : migrationClaim operation owner expectedEpoch db = .ok (value, db')) :
    Effect db (.claimMigration operation owner expectedEpoch) (.ok (.migration value)) db' := by
  simp only [migrationClaim, eq_ok, Prod.mk.injEq] at ran
  obtain ⟨_, found, _, claimed, _, saved, rfl, rfl⟩ := ran
  obtain ⟨uncommitted, rfl⟩ := claim_ok claimed
  exact ownMigration_effect (.claim claimed) found rfl rfl uncommitted saved

theorem migrationDispatch_effect
    (ran : migrationDispatch operation ownership retrySafe db = .ok (value, db')) :
    Effect db (.beginMigrationDispatch operation ownership retrySafe) (.ok (.migration value))
      db' := by
  simp only [migrationDispatch, eq_ok, Prod.mk.injEq] at ran
  obtain ⟨_, found, _, began, _, saved, rfl, rfl⟩ := ran
  obtain ⟨reserved, _, rfl⟩ := beginDispatch_ok began
  exact ownMigration_effect (.dispatch began) found rfl rfl (by rw [reserved]; decide) saved

theorem migrationStage_effect
    (ran : migrationStage operation ownership envelopes db = .ok (value, db')) :
    Effect db (.stageMigration operation ownership envelopes) (.ok (.migration value)) db' := by
  simp only [migrationStage, bind_eq_ok] at ran
  obtain ⟨_, found, _, _, _, _, rest⟩ := ran
  split at rest
  next =>
    obtain ⟨rfl, rfl⟩ := Prod.mk.inj (pure_eq_ok.mp rest)
    exact .repeated trivial
  next reserved =>
    simp only [stageReserved, eq_ok, Prod.mk.injEq] at rest
    obtain ⟨_, _, _, _, staged, inserted, after, saved, rfl, rfl⟩ := rest
    obtain ⟨row, stored, rfl, bound⟩ := required_eq_ok.mp found
    -- the bytes are in another table, so the row is still found
    have kept : storedMigration { db with migrationEnvelopes := staged } operation = some row :=
      stored
    obtain ⟨validated, frame, rows⟩ := Migration.save_ok kept saved (bound.operation_eq stored)
    have bytes : ∀ entry, entry ∈ staged ↔ entry ∈ db.migrationEnvelopes ∨
        ∃ version envelope, (version, envelope) ∈
            row.2.journal.request.proposed.keyVersions.zip envelopes ∧
          entry = ((operation, version.versionNumber), envelope) := by
      intro _
      rw [Table.insertAll?_eq_some inserted, List.mem_map]
      simp only [Prod.exists, eq_comm]
    have shape : after = { db with
        migrationEnvelopes := staged, migrationJournal := after.migrationJournal } := by
      rw [frame]
    rw [shape]
    exact .stageMigration stored bound (not_not.mp reserved) ⟨rfl, rfl, rfl, rfl⟩ rfl validated
      bytes rows

/-- A commit is a retry of the owner, or the first one: it has checked the staged versions,
    and changes nothing of the journal but the phase and the result. -/
theorem migrationCommit_ok (ran : migrationCommit operation ownership db = .ok (record, db')) :
    ∃ row, storedMigration db operation = some row ∧ Bound row ∧
      row.2.journal.requireOwner ownership = .ok () ∧ row.2.journal.request.proposed = record ∧
      (row.2.journal.phase = .committed ∧ db' = db ∨ row.2.journal.phase = .staged ∧
        verifyStaged operation row.2.journal db = .ok () ∧
        Snapshots db row.2.journal.request ∧ ∃ result retired keys migrationJournal,
          { row.2.journal with result, phase := .committed }.validate = .ok () ∧
          db.retiredCreationJournal.insertAll?
            (committedCreations db row.2.journal.request.child.lid) = some retired ∧
          keys.get? = update db.keyRow row.2.journal.request.child.lid
            (some (.of row.2.journal.request.proposed)) ∧
          storedMigration db' = update (storedMigration db) operation
            (some (row.1, ⟨true, { row.2.journal with result, phase := .committed }⟩)) ∧
          db' = { retireChild db row.2.journal.request.child.lid retired with
            keys, migrationJournal }) := by
  simp only [migrationCommit, bind_eq_ok] at ran
  obtain ⟨_, found, _, owned, rest⟩ := ran
  obtain ⟨row, stored, rfl, bound⟩ := required_eq_ok.mp found
  split at rest
  next committed =>
    obtain ⟨rfl, rfl⟩ := Prod.mk.inj (pure_eq_ok.mp rest)
    exact ⟨row, stored, bound, owned, rfl, Or.inl ⟨committed, rfl⟩⟩
  next =>
    simp only [commitStaged, eq_ok, toI64_eq_ok, Prod.mk.injEq, not_not] at rest
    obtain ⟨_, staged, _, taken, _, verified, _, _, result, _, retired, retires, _, _, _,
      ⟨_, rfl⟩, _, ⟨_, rfl⟩, _, one, _, saved, rfl, rfl⟩ := rest
    have valid := (snapshots_ok taken).valid
    obtain ⟨old, keyStored, column⟩ := matchingRows_ne_zero (by rw [one]; decide)
    have keyRows := keyRow_updateKeyRow row.2.journal.request.proposed
      row.2.journal.request.proposed.occVersion keyStored
    rw [column, valid.proposed_lid] at keyRows
    -- retiring the old material and writing the key leave the migration journal alone
    have kept : storedMigration (updateKeyRow
        (retireChild db row.2.journal.request.child.lid retired) row.2.journal.request.proposed
        row.2.journal.request.proposed.occVersion row.2.journal.request.child.occVersion)
        operation = some row := stored
    obtain ⟨validated, frame, rows⟩ := Migration.save_ok kept saved (bound.operation_eq stored)
    exact ⟨row, stored, bound, owned, rfl, Or.inr ⟨staged, verified, snapshots_ok taken,
      some result, retired, _, _, validated, retires, keyRows, rows, frame⟩⟩

theorem migrationCommit_effect (ran : migrationCommit operation ownership db = .ok (record, db')) :
    Effect db (.commitMigration operation ownership) (.ok (.record record)) db' := by
  obtain ⟨row, stored, bound, _, rfl, ⟨_, rfl⟩ | ⟨staged, _, snapshots, result, retired, keys,
    migrations, validated, retires, keyRows, rows, rfl⟩⟩ := migrationCommit_ok ran
  · exact .repeated trivial
  · have same : SameDriver row.2.journal { row.2.journal with result, phase := .committed } :=
      ⟨rfl, rfl, rfl, rfl⟩
    exact .migrate stored bound staged snapshots same rfl validated retires keyRows rows

end

/-! ### Destructions -/

section
open Destruction

theorem destructionSchedule_effect
    (ran : destructionSchedule lid expected scheduledAt allow now db = .ok (schedule, db')) :
    Effect db (.scheduleDestruction lid expected scheduledAt allow now) (.ok (.scheduled schedule))
      db' := by
  simp only [destructionSchedule, eq_ok, Prod.mk.injEq, destructionGuard_eq_ok] at ran
  obtain ⟨_, unfenced, record, checked, _, _, _, _, _, _, _, _, _, moved, middle, saved, rfl,
    rfl⟩ := ran
  obtain ⟨stored, rfl, counted⟩ := checkedRecord_ok checked
  obtain ⟨allowed, rfl⟩ := transition_ok moved
  rw [counted] at saved ⊢
  obtain ⟨_, rfl⟩ := key_eq_some.mp stored
  rw [saveKey_schedules saved]
  exact .schedule stored unfenced allowed (saveKey_ok saved).2

theorem destructionCancel_effect (ran : destructionCancel lid expected now db = .ok (record, db')) :
    Effect db (.cancelDestruction lid expected now) (.ok (.record record)) db' := by
  simp only [destructionCancel, eq_ok, Prod.mk.injEq, destructionGuard_eq_ok] at ran
  obtain ⟨_, unfenced, _, _, prior, checked, _, _, _, moved, middle, saved, rfl, rfl⟩ := ran
  obtain ⟨stored, rfl, counted⟩ := checkedRecord_ok checked
  obtain ⟨allowed, rfl⟩ := transition_ok moved
  rw [counted] at saved ⊢
  obtain ⟨_, rfl⟩ := key_eq_some.mp stored
  rw [saveKey_schedules saved]
  exact .cancel stored unfenced allowed (saveKey_ok saved).2

variable {fresh : {operation : Uuid // operation.isNil = false}}

theorem recoverClaim_effect (stored : storedClaim db lid = some row)
    (ran : recoverClaim lid expected row.1 row.2 db = .ok (claimed, db')) :
    Effect db (.claimDestruction lid expected now fresh) (issueClaim claimed) db' := by
  unfold recoverClaim at ran
  split at ran
  next =>
    cases ran
    exact .repeated trivial
  next unfinished =>
    simp only [eq_ok, requiredKey_eq_ok, not_or, not_not, Bool.not_eq_true] at ran
    obtain ⟨_, ⟨assigned, _, pending⟩, _, currentKey, _, compared, _, accepted, rest⟩ := ran
    split at rest
    next =>
      cases pure_eq_ok.mp rest
      exact .repeated trivial
    next =>
      simp only [eq_ok, Prod.mk.injEq] at rest
      obtain ⟨_, history, _, marked, rfl, rfl⟩ := rest
      obtain ⟨claim, issued, operation, record⟩ := issue_ok true assigned history pending
      cases eq_of_sameJson compared accepted
      rw [issueClaim_ok issued, recordLossMarkers_ok marked]
      exact .recover stored (by simpa using unfinished) currentKey operation record

theorem admitClaim_effect (absent : storedClaim db lid = none)
    (ran : admitClaim lid expected now fresh.1 db = .ok (claimed, db')) :
    Effect db (.claimDestruction lid expected now fresh) (issueClaim claimed) db' := by
  simp only [admitClaim, eq_ok, requiredKey_eq_ok, Prod.mk.injEq] at ran
  obtain ⟨record, stored, _, observed, _, _, _, accepted, _, _, _, prepared, _, _,
    claims, inserted, marked, marks, after, saved, rfl, rfl⟩ := ran
  obtain ⟨rfl, pending, history, _, rfl⟩ := prepareClaim_ok prepared
  obtain ⟨_, rfl⟩ := key_eq_some.mp stored
  obtain ⟨notCreating, notMigrating⟩ := not_inFlight_of_validateIntent observed accepted
  -- the stored snapshot passes the constructor's checks because the record did
  have claimedHistory : validateDestructionHistory (claimedRecord record now) = .ok () :=
    (validateDestructionHistory_claimed record _ now).trans history
  have claimedPending : (claimedRecord record now).state = .pendingDeletion := pending
  obtain ⟨claim, issued, operation, claimRecord⟩ :=
    issue_ok false fresh.2 claimedHistory claimedPending
  have reply : issueClaim (some ⟨fresh.1, claimedRecord record now, false⟩) =
      .ok (.claimed (some claim)) := issueClaim_ok issued
  obtain ⟨_, rows⟩ := Table.find_insert? DestructionIndex.clash_of_lid inserted
  obtain ⟨frame, keyRows⟩ := saveKey_ok saved
  have markedFrame := recordLossMarkers_ok marks
  have markedKeys : marked.keyRow = db.keyRow := by rw [markedFrame]; rfl
  rw [markedKeys] at keyRows
  have shape : after = { db with
      keys := after.keys
      destructionJournal := claims
      destroyedWrappingParents := marked.destroyedWrappingParents } := by
    rw [frame, markedFrame]
  rw [shape]
  exact reply ▸ .claim stored pending (storedClaim_eq_none.mp absent) notCreating notMigrating
    operation claimRecord keyRows rows

theorem destructionClaim_effect
    (ran : destructionClaim lid expected now fresh.1 db = .ok (claimed, db')) :
    Effect db (.claimDestruction lid expected now fresh) (issueClaim claimed) db' := by
  have selects : (db.destructionJournal.select? fun index => index.lid == lid) =
      storedClaim db lid := rfl
  rw [destructionClaim, selects] at ran
  cases stored : storedClaim db lid with
  | some =>
    rw [stored] at ran
    exact recoverClaim_effect stored ran
  | none =>
    rw [stored] at ran
    exact admitClaim_effect stored ran

theorem destructionComplete_effect (ran : destructionComplete claim now db = .ok (record, db')) :
    Effect db (.completeDestruction claim now) (.ok (.record record)) db' := by
  simp only [destructionComplete, eq_ok, requiredKey_eq_ok, Prod.exists, not_not] at ran
  obtain ⟨index, row, found, _, operation, _, compared, _, accepted, _, currentKey, rest⟩ := ran
  have stored : storedClaim db claim.record.lid = some (index, row) := found
  split at rest
  next =>
    simp only [eq_ok, Prod.mk.injEq] at rest
    obtain ⟨_, _, rfl, rfl⟩ := rest
    exact .repeated trivial
  next unfinished =>
    simp only [completeClaim, eq_ok, Prod.mk.injEq] at rest
    obtain ⟨_, completed, after, saved, rfl, rfl⟩ := rest
    obtain ⟨rfl, _, rfl⟩ := completedRecord_eq_ok.mp completed
    obtain ⟨frame, keyRows⟩ := saveKey_ok saved
    have rows := Table.find_modify_key DestructionIndex.clash_of_lid
      (f := fun row => { row with completed := true }) stored
    have kept : after.destructionJournal = db.destructionJournal := by rw [frame]; rfl
    have shape (claims : Table DestructionIndex DestructionRow DestructionIndex.Clash)
        (schedules : Table Lid DeletionSchedule Eq) :
        { after with destructionJournal := claims, deletionSchedules := schedules } =
          { Migration.retireChild db claim.record.lid
              ((Migration.committedCreations db claim.record.lid).foldl
                (fun t row => t.insertOrIgnore row.1 row.2) db.retiredCreationJournal) with
            keys := after.keys, destructionJournal := claims, deletionSchedules := schedules } := by
      rw [frame]
    rw [shape, kept]
    exact .complete stored operation (eq_of_sameJson compared accepted) (by simpa using unfinished)
      currentKey rfl keyRows rows

end

/-! ### Every operation -/

private theorem transact_effect (ran : transact body reply db = (result, db'))
    (effect : ∀ value after, body db = .ok (value, after) → Effect db op (reply value) after) :
    Effect db op result db' := by
  rcases transact_cases ran with ⟨e, rfl, rfl⟩ | ⟨_, returned, rfl⟩
  · exact .failed
  · exact effect _ _ returned

/-- Every step of the backend is one of the listed effects. -/
theorem StorageStep.effect (step : StorageStep db (op, result) db') : Effect db op result db' := by
  cases op
  all_goals refine transact_effect step fun _ _ => ?_
  case createKey => exact createKey_effect
  case updateKey => exact updateKey_effect
  case reserveCreation => exact reserveA2_effect
  case claimCreationDispatch => exact claimA2Dispatch_effect
  case stageCreation => exact stageA2_effect
  case resolveCreation => exact resolveA2_effect
  case publishCreation => exact publishA2_effect
  case withdrawCreation => exact withdrawA2_effect
  case reserveMigration => exact migrationReserve_effect
  case claimMigration => exact migrationClaim_effect
  case beginMigrationDispatch => exact migrationDispatch_effect
  case stageMigration => exact migrationStage_effect
  case commitMigration => exact migrationCommit_effect
  case scheduleDestruction => exact destructionSchedule_effect
  case cancelDestruction => exact destructionCancel_effect
  case claimDestruction => exact destructionClaim_effect
  case completeDestruction => exact destructionComplete_effect

end KeyRack.Sqlite
