import KeyRack.Sqlite.Migration

/-!
# Destruction persistence

Scheduling, cancelling, claiming and completing a destruction. The claim and all
journal reservations observe each other's rows inside one writer transaction.
The clock and the fresh operation identifier are arguments.
-/
namespace KeyRack.Sqlite.Destruction

open Fallible Migration

def saveKey (db : Db) (record : KeyRecord) (expected : Nat) : Except KeyRackError Db := do
  refuseIf (serializable record = false) (destructionInvalid "key serialization")
  let occVersion ← toI64 record.occVersion (destructionInvalid "OCC out of range")
  let expected ← toI64 expected (destructionInvalid "OCC out of range")
  -- the guarded update has to touch exactly one row
  refuseIf (matchingRows db record.lid expected ≠ 1)
    (destructionInvalid "key changed during destruction transaction")
  return updateKeyRow db record occVersion expected

/-! ### Dependencies -/

/-- The three journal counts; everything else starts at zero. -/
def journalCounts (db : Db) (lid : Lid) : DestructionDependencies where
  logicalOnlyChildren := 0
  ownParentWrappedVersions := 0
  dependentWrappingEdges := 0
  creationJournalRows := db.creationJournal.count fun index _ => index.names lid
  inFlightCreationJournalRows := db.creationJournal.count fun index row =>
    row.phase != .committed && index.names lid
  migrationJournalRows := db.migrationJournal.count fun index row =>
    !row.committed && index.names lid
  dependents := []

def includeRow (lid : Lid) (counts : DestructionDependencies) (row : Lid × KeyRow) :
    Except KeyRackError DestructionDependencies := do
  refuseIf (row.2.record.lid ≠ row.1 ∨ row.2.occVersion ≠ (row.2.record.occVersion : Int))
    (destructionInvalid "key row binding mismatch")
  counts.includeRecord lid row.2.record

/-- Live creation envelopes stay dependencies even if no record points at them. -/
def creationEdge (row : CreationIndex × CreationRow) :
    Except KeyRackError DestructionDependent := do
  let version ← parseVersion row.1.childVersion
  let parentVersion ← parseVersion row.1.parentVersion
  return ⟨row.1.childLid, version, parentVersion, row.1.envelopeRef⟩

def creationEdges (db : Db) (lid : Lid) : Except KeyRackError (List DestructionDependent) :=
  (db.creationJournal.rows.filter fun row => row.1.parentLid == lid && row.1.childLid != lid &&
    row.2.phase == .committed && row.2.envelope.isSome).mapM creationEdge

variable [UuidText]

def migrationEdge (lid : Lid) (index : MigrationIndex) (journal : MigrationJournal)
    (version : Nat) : Except KeyRackError DestructionDependent := do
  journal.validate
  let version ← parseVersion version
  let bound ← okOr (journal.request.proposed.getVersion version)
    (destructionInvalid "migration envelope version mismatch")
  let material ← okOr bound.material.wrapped?
    (destructionInvalid "migration envelope material mismatch")
  refuseIf (journal.request.operation ≠ index.operationId ∨
      journal.request.child.lid ≠ index.childLid ∨ journal.phase ≠ .committed ∨
      material.parent.lid ≠ lid)
    (destructionInvalid "migration envelope index mismatch")
  return ⟨journal.request.child.lid, version, material.parent.version,
    material.wrappedMaterialRef.asStr⟩

/-- `migration_journal j JOIN migration_envelopes e` on the operation. -/
def migrationEdges (db : Db) (lid : Lid) : Except KeyRackError (List DestructionDependent) :=
  let committed := db.migrationJournal.rows.filter fun row =>
    row.1.newParentLid == lid && row.1.childLid != lid && row.2.committed
  let joined := committed.flatMap fun row =>
    (db.migrationEnvelopes.rows.filter fun staged => staged.1.1 == row.1.operationId).map
      fun staged => (row, staged.1.2)
  joined.mapM fun (row, version) => migrationEdge lid row.1 row.2.journal version

def dependencies (db : Db) (lid : Lid) : Except KeyRackError DestructionDependencies := do
  let _ ← requiredKey db lid
  -- records first, then the two journals: an edge may be found more than once
  let counts ← db.keys.rows.foldlM (includeRow lid) (journalCounts db lid)
  let creations ← creationEdges db lid
  let migrations ← migrationEdges db lid
  let dependents := sortDependents (counts.dependents ++ creations ++ migrations)
  return { counts with dependents, dependentWrappingEdges := dependents.length }

def storedIntent (db : Db) (record : KeyRecord) : Except KeyRackError (Option DeletionIntent) :=
  match db.deletionSchedules.select? (· == record.lid) with
  | none => .ok none
  | some (_, schedule) => do
    -- an approval given for another schedule is not this one's
    refuseIf (record.state ≠ .pendingDeletion ∨
        record.scheduledDeletionAt ≠ some schedule.scheduledAt)
      (destructionInvalid "deletion intent schedule mismatch")
    return some schedule.intent

def checkedRecord (db : Db) (lid : Lid) (expected : Nat) : Except KeyRackError KeyRecord := do
  let record ← requiredKey db lid
  refuseIf (record.occVersion ≠ expected)
    (.optimisticConcurrencyConflict lid expected record.occVersion)
  refuseIf (expected = 0 ∨ expected ≥ i64Max) (destructionInvalid "OCC out of range")
  return record

/-! ### Owned envelopes -/

def ownedCreation (record : KeyRecord) (version : KeyVersionRecord)
    (material : ParentWrappedMaterial) (row : CreationIndex × CreationRow) :
    Except KeyRackError Unit := do
  -- one disjunction in the source: a bad version column is reported only if it is reached
  let mismatch := destructionInvalid "owned creation envelope binding mismatch"
  refuseIf (row.1.childLid ≠ record.lid) mismatch
  let number ← parseVersion row.1.childVersion
  refuseIf (number ≠ version.versionNumber ∨ row.1.parentLid ≠ material.parent.lid) mismatch
  let parentVersion ← parseVersion row.1.parentVersion
  refuseIf (parentVersion ≠ material.parent.version ∨ row.2.phase ≠ .committed ∨
    row.2.envelope.isNone) mismatch

/-- `parse_version` on text that need not be a stored column. -/
def parseVersionText (text : List Char) : Except KeyRackError Nat := do
  let version ← okOr (Text.parseDecimal u64Max text) (destructionInvalid "invalid version index")
  refuseIf (version = 0 ∨ (toString version).toList ≠ text)
    (destructionInvalid "invalid version index")
  return version

def ownedMigration (db : Db) (record : KeyRecord) (version : KeyVersionRecord)
    (tail : List Char) : Except KeyRackError Unit := do
  let (operation, number) ← okOr (Text.rsplitOnce ':' tail)
    (destructionInvalid "invalid migration envelope reference")
  let number ← parseVersionText number
  refuseIf (number ≠ version.versionNumber)
    (destructionInvalid "migration envelope version mismatch")
  -- the operation column is compared as text, and joined with its staged bytes
  let (index, row) ← okOr (db.migrationJournal.select? fun index =>
    (UuidText.display index.operationId).toList == operation)
    (destructionInvalid "owned migration envelope missing")
  refuseIf (db.migrationEnvelopes.any (fun staged _ => staged == (index.operationId, number)) =
    false) (destructionInvalid "owned migration envelope missing")
  row.journal.validate
  refuseIf (row.committed = false ∨ row.journal.phase ≠ .committed ∨
      row.journal.request.child.lid ≠ record.lid ∨
      (row.journal.request.proposed.getVersion version.versionNumber).map (·.material) ≠
        some version.material)
    (destructionInvalid "owned migration envelope binding mismatch")

def validateOwned (db : Db) (record : KeyRecord) (version : KeyVersionRecord) :
    Except KeyRackError Unit :=
  match version.material with
  | .providerResident _ _ => .ok ()
  | .parentWrapped material =>
    let reference := material.wrappedMaterialRef.asStr
    -- a creation is found by its whole reference, a migration by parsing it
    match db.creationJournal.select? fun index => index.envelopeRef == reference with
    | some row => ownedCreation record version material row
    | none =>
      match reference.toList.dropPrefix? "migration:".toList with
      | some tail => ownedMigration db record version tail
      | none => .error (destructionInvalid "unsupported wrapped envelope lifecycle")

/-- Every owned wrapped version resolves to the exact bytes that will be erased. -/
def validateOwnedEnvelopes (db : Db) (record : KeyRecord) : Except KeyRackError Unit :=
  checkAll record.keyVersions (validateOwned db record)

/-! ### Loss markers -/

def isLostEdge (lid : Lid) (edge : DestructionDependent) (child : KeyRecord) : Bool :=
  child.state != .destroyed && (child.getVersion edge.version).any fun version =>
    version.material.wrapped?.any fun material =>
      material.parent.lid == lid && material.parent.version == edge.parentVersion &&
        material.wrappedMaterialRef.asStr == edge.envelopeRef

def markEdge (lid : Lid) (db : Db) (edge : DestructionDependent) : Except KeyRackError Db := do
  let child ← key db edge.lid
  -- retired envelopes and versions rewrapped elsewhere are not lost
  if child.any (isLostEdge lid edge) then
    return { db with
      destroyedWrappingParents := db.destroyedWrappingParents.insertOrIgnore
        ⟨edge.lid, edge.version, lid, edge.parentVersion⟩ () }
  else return db

def recordLossMarkers (db : Db) (lid : Lid) : Except KeyRackError Db := do
  let observed ← dependencies db lid
  observed.dependents.foldlM (markEdge lid) db

/-! ### Transactions -/

/-- A state transition inside a transaction. -/
def transition (lid : Lid) (record : KeyRecord) (target : KeyState) (now : DateTime) :
    Except KeyRackError KeyRecord :=
  match record.transitionTo target now with
  | (.error (source, target), _) => .error (.invalidStateTransition lid source target)
  | (.ok _, next) => .ok next

def destructionSchedule (lid : Lid) (expected : Nat) (scheduledAt : DateTime) (allow : Bool)
    (now : DateTime) (db : Db) : Except KeyRackError (ScheduledDeletion × Db) := do
  guard db lid
  let record ← checkedRecord db lid expected
  let observed ← dependencies db lid
  -- the approval lists the edges seen now; later ones need another
  let approval ← observed.approval allow
  validateDestructionHistory record
  validateOwnedEnvelopes db record
  let record ← transition lid record .pendingDeletion now
  let record := { record with scheduledDeletionAt := some scheduledAt }
  let db ← saveKey db record expected
  return (⟨record, observed.logicalOnlyChildren, approval.approvedDependents⟩,
    { db with deletionSchedules := db.deletionSchedules.upsert lid ⟨scheduledAt, approval⟩ })

def destructionCancel (lid : Lid) (expected : Nat) (now : DateTime) (db : Db) :
    Except KeyRackError (KeyRecord × Db) := do
  guard db lid
  Migration.guard db lid
  let record ← checkedRecord db lid expected
  refuseIf (record.state ≠ .pendingDeletion) (destructionInvalid "key is not pending deletion")
  let record ← transition lid record .disabled now
  let record := { record with scheduledDeletionAt := none }
  let db ← saveKey db record expected
  return (record, { db with deletionSchedules := db.deletionSchedules.delete fun l _ => l == lid })

/-- What a claim transaction hands to the ticket constructor. -/
structure Claimed where
  operation : Uuid
  record : KeyRecord
  recovered : Bool

/-- A key with a journal row: the claim is completed, stale or reissued. -/
def recoverClaim (lid : Lid) (expected : Nat) (index : DestructionIndex) (row : DestructionRow)
    (db : Db) : Except KeyRackError (Option Claimed × Db) :=
  if row.completed then .ok (none, db)
  else do
    refuseIf (index.operationId.isNil ∨ row.record.lid ≠ lid ∨
      row.record.state ≠ .pendingDeletion) (destructionInvalid "claim binding mismatch")
    let current ← requiredKey db lid
    let same ← sameJson row.record current
    refuseIf (same = false) (destructionInvalid "claimed snapshot changed")
    -- the caller works from an older version of the record
    if expected ≠ row.record.occVersion then return (none, db)
    else
      validateDestructionHistory row.record
      -- backfills claims written before markers were part of admission
      let db ← recordLossMarkers db lid
      return (some ⟨index.operationId, row.record, true⟩, db)

def admitClaim (lid : Lid) (expected : Nat) (now : DateTime) (operation : Uuid) (db : Db) :
    Except KeyRackError (Option Claimed × Db) := do
  let record ← requiredKey db lid
  let counts ← dependencies db lid
  let intent ← storedIntent db record
  -- a key that became due without a schedule has approved nothing
  counts.validateIntent (intent.getD DeletionIntent.default)
  validateOwnedEnvelopes db record
  let record ← prepareClaim record expected now
  refuseIf (serializable record = false) (destructionInvalid "claim serialization")
  let destructionJournal ← okOr (db.destructionJournal.insert? ⟨lid, operation⟩ ⟨record, false⟩)
    constraintFailed
  -- losses are persisted with the claim, before any provider effect
  let db ← recordLossMarkers { db with destructionJournal } lid
  let db ← saveKey db record expected
  return (some ⟨operation, record, false⟩, db)

def destructionClaim (lid : Lid) (expected : Nat) (now : DateTime) (operation : Uuid) (db : Db) :
    Except KeyRackError (Option Claimed × Db) :=
  match db.destructionJournal.select? fun index => index.lid == lid with
  | some (index, row) => recoverClaim lid expected index row db
  | none => admitClaim lid expected now operation db

/-- Destroy the record, retire its journals and close the claim. -/
def completeClaim (claim : DestructionClaim) (current : KeyRecord) (now : DateTime) (db : Db) :
    Except KeyRackError (KeyRecord × Db) := do
  let lid := claim.record.lid
  let record ← completedRecord claim current now
  -- `ON CONFLICT(operation_id) DO NOTHING`
  let retired := (committedCreations db lid).foldl (fun t row => t.insertOrIgnore row.1 row.2)
    db.retiredCreationJournal
  let db ← saveKey (retireChild db lid retired) record current.occVersion
  return (record, { db with
    destructionJournal := db.destructionJournal.modify (fun index _ => index.lid == lid)
      fun row => { row with completed := true }
    deletionSchedules := db.deletionSchedules.delete fun l _ => l == lid })

def destructionComplete (claim : DestructionClaim) (now : DateTime) (db : Db) :
    Except KeyRackError (KeyRecord × Db) := do
  let lid := claim.record.lid
  let (index, row) ← okOr (db.destructionJournal.select? fun index => index.lid == lid)
    (destructionInvalid "claim missing")
  refuseIf (index.operationId ≠ claim.operation) (destructionInvalid "claim mismatch")
  let same ← sameJson row.record claim.record
  refuseIf (same = false) (destructionInvalid "claim mismatch")
  let current ← requiredKey db lid
  -- a repeat after a lost reply returns the record as it was destroyed
  if row.completed then
    validateCompletedRecord claim current
    return (current, db)
  else completeClaim claim current now db

/-- A change of state or schedule withdraws the stored deletion intent. -/
def guardUpdate (db : Db) (record : KeyRecord) : Except KeyRackError Db := do
  guardWrite db record
  refuseIf (record.state = .destroyed) (destructionInvalid "Destroyed requires fenced completion")
  let previous ← requiredKey db record.lid
  if previous.state ≠ record.state ∨ previous.scheduledDeletionAt ≠ record.scheduledDeletionAt then
    return { db with
      deletionSchedules := db.deletionSchedules.delete fun l _ => l == record.lid }
  else return db

end KeyRack.Sqlite.Destruction
