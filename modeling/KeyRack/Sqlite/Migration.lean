import KeyRack.Lib.Text
import KeyRack.Sqlite.Creation

/-!
# Migration persistence

The transactions on `migration_journal`, and the reads that follow an envelope
reference: the bytes of a wrapped version are found by parsing the text of its
material reference.
-/
namespace KeyRack.Sqlite.Migration

open Fallible

instance : JsonDocument MigrationJournal where
  serializable journal := serializable journal.request

def migrationIndex (request : MigrationRequest) : MigrationIndex where
  operationId := request.operation
  childLid := request.child.lid
  oldParentLid := request.oldParent.lid
  newParentLid := request.newParent.lid

/-- Some wrapped version is an envelope of the store. -/
def hasWrapped (record : KeyRecord) : Bool :=
  record.keyVersions.any fun version => version.material.wrapped?.isSome

def guardWrappedHistory (previous next : KeyRecord) : Except KeyRackError Unit :=
  if hasWrapped previous then do
    guardReferencedParent previous next
    let same ← sameJson previous.keyVersions next.keyVersions
    refuseIf (same = false)
      (migrationInvalid "wrapped history may change only through journal publication")
  else .ok ()

def guardUpdate (db : Db) (previous next : KeyRecord) : Except KeyRackError Unit := do
  -- both snapshots: the update may add or drop a wrapping parent
  guardRecord db previous
  guardRecord db next
  refuseIf (previous.parentLid ≠ next.parentLid)
    (migrationInvalid "parent_lid may change only through migration")
  guardWrappedHistory previous next
  -- `migration_journal j JOIN migration_envelopes e` on the operation
  if db.migrationJournal.any fun index _ => index.newParentLid == next.lid &&
      db.migrationEnvelopes.any fun staged _ => staged.1 == index.operationId then
    guardReferencedParent previous next
  else .ok ()

variable [UuidText]

def load (db : Db) (operation : Uuid) : Except KeyRackError (Option MigrationJournal) :=
  match db.migrationJournal.select? fun index => index.operationId == operation with
  | none => .ok none
  | some (index, row) => do
    row.journal.validate
    -- the row was found by its operation column
    refuseIf (index ≠ migrationIndex row.journal.request ∨
        row.committed ≠ (row.journal.phase == .committed))
      (migrationInvalid "journal index mismatch")
    return some row.journal

def required (db : Db) (operation : Uuid) : Except KeyRackError MigrationJournal := do
  let value ← load db operation
  okOr value (migrationInvalid "migration not found")

def save (db : Db) (value : MigrationJournal) : Except KeyRackError Db := do
  value.validate
  refuseIf (serializable value = false) (migrationInvalid "journal encoding")
  -- unlike the creation journal, nobody counts the updated rows
  return { db with
    migrationJournal := db.migrationJournal.modify
      (fun index _ => index.operationId == value.request.operation)
      fun _ => ⟨value.phase == .committed, value⟩ }

def snapshots (db : Db) (request : MigrationRequest) : Except KeyRackError Unit := do
  let child ← requiredKey db request.child.lid
  let old ← requiredKey db request.oldParent.lid
  let new ← requiredKey db request.newParent.lid
  checkAll [child, old, new] fun record => Destruction.guard db record.lid
  request.validateSnapshots child old new

/-! ### Envelope references -/

inductive EnvelopeReference where
  | creation (operation : Uuid)
  | migration (operation : Uuid) (version : Nat)
  deriving DecidableEq, Repr

def parseCreation (operation : List Char) : Except KeyRackError EnvelopeReference := do
  let operation ← okOr (UuidText.parse (String.ofList operation))
    (migrationInvalid "invalid creation envelope reference")
  return .creation operation

def parseMigration (operation version : List Char) : Except KeyRackError EnvelopeReference := do
  let operation ← okOr (UuidText.parse (String.ofList operation))
    (migrationInvalid "invalid migration envelope reference")
  let version ← okOr (Text.parseDecimal u64Max version)
    (migrationInvalid "invalid migration version")
  return .migration operation version

def parseReference (reference : String) : Except KeyRackError EnvelopeReference :=
  -- only the text decides which journal is read; the caller's key is not consulted
  match reference.toList.dropPrefix? "creation:".toList with
  | some operation => parseCreation operation
  | none =>
    match (reference.toList.dropPrefix? "migration:".toList).bind (Text.splitOnce ':') with
    | some (operation, version) => parseMigration operation version
    | none => .error (migrationInvalid "unknown wrapped envelope reference")

def stagedEnvelope (db : Db) (operation : Uuid) (version : Nat) : Except KeyRackError Bytes :=
  okOr ((db.migrationEnvelopes.select? (· == (operation, version))).map (·.2)) noRows

variable [Blake3]

/-- The bytes of one version of a committed migration. -/
def committedVersion (db : Db) (operation : Uuid) (version : Nat) (message : String) :
    Except KeyRackError Bytes := do
  let value ← required db operation
  refuseIf (value.phase ≠ .committed) (migrationInvalid message)
  let bytes ← stagedEnvelope db operation version
  -- the digest is the one recorded at staging for this position of the proposal
  value.verifyEnvelope version bytes
  return bytes

def migrationRead (db : Db) (operation : Uuid) (version : Nat) : Except KeyRackError Bytes :=
  committedVersion db operation version "migration is not committed"

variable [IntentEncoding]

def readReference (db : Db) : EnvelopeReference → Except KeyRackError Bytes
  | .creation operation => Creation.committedEnvelope db operation
  | .migration operation version =>
    committedVersion db operation version "migration envelope is not committed"

def envelopeRef (db : Db) (reference : String) : Except KeyRackError Bytes := do
  let parsed ← parseReference reference
  readReference db parsed

/-- The parent's claim, or a marker of this very edge, decided the loss. -/
def lossDecided (db : Db) (material : ParentWrappedMaterial) (lid : Lid) (version : Nat) : Bool :=
  (db.destructionJournal.any fun index _ => index.lid == material.parent.lid) ||
    db.destroyedWrappingParents.any fun marker _ =>
      marker == ⟨lid, version, material.parent.lid, material.parent.version⟩

def migrationSnapshot (db : Db) (lid : Lid) (version : Nat) :
    Except KeyRackError WrappedKeySnapshot := do
  let record ← requiredKey db lid
  let entry ← okOr (record.getVersion version) (migrationInvalid "wrapped version absent")
  let material ← entry.material.requireWrapped "version is not wrapped"
  refuseIf (lossDecided db material lid version) .wrappingParentDestroyed
  let envelope ← envelopeRef db material.wrappedMaterialRef.asStr
  -- a missing parent and a destroyed one are the same loss to the caller
  let parent ← key db material.parent.lid
  let parent ← okOr parent .wrappingParentDestroyed
  refuseIf (parent.state = .destroyed) .wrappingParentDestroyed
  return { record, parent, envelope }

/-! ### Transactions -/

def reserveNew (request : MigrationRequest) (db : Db) :
    Except KeyRackError (MigrationJournal × Db) := do
  snapshots db request
  -- none of the three keys takes part in unfinished journal work
  checkAll [request.child, request.oldParent, request.newParent] fun record => do
    guard db record.lid
    refuseIf (db.creationJournal.any fun index row => row.phase != .committed &&
      index.names record.lid) migrationBusy
  let value := MigrationJournal.reserved request
  refuseIf (serializable value = false) (migrationInvalid "journal encoding")
  let migrationJournal ← okOr (db.migrationJournal.insert? (migrationIndex request) ⟨false, value⟩)
    constraintFailed
  return (value, { db with migrationJournal })

/-- A repeated reservation returns the journal of the same intent. -/
def reserveExisting (request : MigrationRequest) (existing : MigrationJournal) (db : Db) :
    Except KeyRackError (MigrationJournal × Db) := do
  let same ← existing.request.sameIntent request
  refuseIf (same = false) (.migrationIntentConflict request.operation)
  return (existing, db)

def migrationReserve (request : MigrationRequest) (db : Db) :
    Except KeyRackError (MigrationJournal × Db) := do
  request.validate
  -- a retry is answered before any snapshot or fence is looked at
  let existing ← load db request.operation
  match existing with
  | some existing => reserveExisting request existing db
  | none => reserveNew request db

def migrationClaim (operation owner : Uuid) (expectedEpoch : Nat) (db : Db) :
    Except KeyRackError (MigrationJournal × Db) := do
  let value ← required db operation
  let value ← value.claim owner expectedEpoch
  let db ← save db value
  return (value, db)

def migrationDispatch (operation : Uuid) (ownership : MigrationOwnership) (retrySafe : Bool)
    (db : Db) : Except KeyRackError (MigrationJournal × Db) := do
  let value ← required db operation
  let value ← value.beginDispatch ownership retrySafe
  let db ← save db value
  return (value, db)

def stageReserved (operation : Uuid) (ownership : MigrationOwnership) (envelopes : List Bytes)
    (value : MigrationJournal) (db : Db) : Except KeyRackError (MigrationJournal × Db) := do
  refuseIf (value.dispatch.map (·.epoch) ≠ some ownership.epoch)
    (migrationInvalid "provider dispatch belongs to another ownership epoch")
  snapshots db value.request
  -- one row per proposed version, in the order of the history
  let staged := (value.request.proposed.keyVersions.zip envelopes).map fun (version, bytes) =>
    ((operation, version.versionNumber), bytes)
  let migrationEnvelopes ← okOr (db.migrationEnvelopes.insertAll? staged) constraintFailed
  let value := { value.recordEnvelopeDigests envelopes with phase := .staged }
  let db ← save { db with migrationEnvelopes } value
  return (value, db)

def migrationStage (operation : Uuid) (ownership : MigrationOwnership) (envelopes : List Bytes)
    (db : Db) : Except KeyRackError (MigrationJournal × Db) := do
  let value ← required db operation
  value.requireOwner ownership
  value.validateEnvelopes envelopes
  -- a repeated staging keeps the first bytes without comparing the new ones
  if value.phase ≠ .reserved then return (value, db)
  else stageReserved operation ownership envelopes value db

/-- Move the committed creations of a child to the retired journal and drop their
    bytes with those of its committed migrations. -/
def retireChild (db : Db) (child : Lid) (retiredCreationJournal : Table Uuid CreationJournal Eq) :
    Db :=
  { db with
    retiredCreationJournal
    creationJournal := db.creationJournal.delete fun index row =>
      index.childLid == child && row.phase == .committed
    migrationEnvelopes := db.migrationEnvelopes.delete fun staged _ =>
      db.migrationJournal.any fun index row =>
        index.operationId == staged.1 && index.childLid == child && row.committed }

/-- The committed creations of a child, as the retired journal stores them. -/
def committedCreations (db : Db) (child : Lid) : List (Uuid × CreationJournal) :=
  (db.creationJournal.rows.filter fun row =>
    row.1.childLid == child && row.2.phase == .committed).map
      fun row => (row.1.operationId, row.2.journal)

/-- Every staged version is present and is the one the journal recorded. -/
def verifyStaged (operation : Uuid) (value : MigrationJournal) (db : Db) :
    Except KeyRackError Unit := do
  refuseIf (db.migrationEnvelopes.count (fun staged _ => staged.1 == operation) ≠
    value.request.child.keyVersions.length) (migrationInvalid "incomplete staged envelopes")
  checkAll value.request.proposed.keyVersions fun version => do
    let bytes ← stagedEnvelope db operation version.versionNumber
    value.verifyEnvelope version.versionNumber bytes

def oldEnvelopes (value : MigrationJournal) (db : Db) : Except KeyRackError (List Bytes) :=
  value.request.child.keyVersions.mapM fun version => do
    let material ← version.material.requireWrapped "resident child version"
    envelopeRef db material.wrappedMaterialRef.asStr

def commitStaged (operation : Uuid) (value : MigrationJournal) (db : Db) :
    Except KeyRackError (KeyRecord × Db) := do
  snapshots db value.request
  verifyStaged operation value db
  let old ← oldEnvelopes value db
  let result ← value.terminalResult old
  let child := value.request.child
  -- a plain insert here: an operation retired before makes the commit fail
  let retired ← okOr (db.retiredCreationJournal.insertAll? (committedCreations db child.lid))
    constraintFailed
  -- this migration's own row is still uncommitted, so its bytes survive
  let db := retireChild db child.lid retired
  let proposed := value.request.proposed
  refuseIf (serializable proposed = false) (migrationInvalid "record encoding")
  let occVersion ← toI64 proposed.occVersion (migrationInvalid "OCC overflow")
  let expected ← toI64 child.occVersion (migrationInvalid "OCC overflow")
  refuseIf (matchingRows db proposed.lid expected ≠ 1) migrationBusy
  let db := updateKeyRow db proposed occVersion expected
  let db ← save db { value with result := some result, phase := .committed }
  return (proposed, db)

def migrationCommit (operation : Uuid) (ownership : MigrationOwnership) (db : Db) :
    Except KeyRackError (KeyRecord × Db) := do
  let value ← required db operation
  value.requireOwner ownership
  -- the owner's retry after a lost reply gets the published record
  if value.phase = .committed then return (value.request.proposed, db)
  else
    refuseIf (value.phase ≠ .staged) (migrationInvalid "envelopes not staged")
    commitStaged operation value db

end KeyRack.Sqlite.Migration
