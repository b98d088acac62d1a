import KeyRack.Lib.Trace
import KeyRack.Sqlite.Destruction

/-!
# The storage backend

Each operation runs as one immediate transaction under the connection's lock:
it commits wholly or leaves the tables as they were. A run of the backend is any
sequence of operations with their results, by any number of callers.
-/
namespace KeyRack.Sqlite

open Fallible

/-- The persisted form latches the compromise marker. -/
def latched (record : KeyRecord) : KeyRecord :=
  { record with wasCompromised := record.hasCompromiseHistory }

/-- `serde_json::to_string` of a record handed in by a caller. -/
def serializeRecord (record : KeyRecord) : Except KeyRackError Unit :=
  refuseIf (serializable record = false) (.storage "serialize: key version must be nonzero")

def createKey (record : KeyRecord) (db : Db) : Except KeyRackError (Unit × Db) := do
  serializeRecord (latched record)
  let occVersion ← toI64 record.occVersion (invalid "key OCC out of range")
  Migration.guardRecord db record
  Creation.guardCreate db record.lid
  Destruction.guardWrite db record
  -- the guards read the record as given, the row stores the latched one
  let keys ← okOr (db.keys.insert? record.lid ⟨latched record, occVersion⟩)
    (.other "key already exists")
  return ((), { db with keys })

/-- No row matched the guarded update: report what is there. -/
def updateConflict (record : KeyRecord) (db : Db) : KeyRackError :=
  match db.keys.select? (· == record.lid) with
  | some (_, row) =>
    -- `as u64` of the stored column
    .optimisticConcurrencyConflict record.lid (record.occVersion - 1)
      (row.occVersion % 2 ^ 64).toNat
  | none => .keyNotFound record.lid

def updateKey (record : KeyRecord) (db : Db) : Except KeyRackError (Unit × Db) := do
  refuseIf (record.occVersion = 0) (.other "occ_version must be > 0 for updates")
  serializeRecord (latched record)
  let newOcc ← toI64 record.occVersion (invalid "key OCC out of range")
  let previous ← requiredKey db record.lid
  refuseIf (previous.occVersion ≠ record.occVersion - 1)
    (.optimisticConcurrencyConflict record.lid (record.occVersion - 1) previous.occVersion)
  refuseIf (previous.hasCompromiseHistory ∧ ¬record.hasCompromiseHistory)
    (.other "cannot clear a key's compromise history")
  Migration.guardUpdate db previous record
  Creation.guardUpdate db previous record
  -- the one guard that writes: it may withdraw a stored deletion intent
  let db ← Destruction.guardUpdate db record
  refuseIf (matchingRows db record.lid (newOcc - 1) = 0) (updateConflict record db)
  return ((), updateKeyRow db (latched record) newOcc (newOcc - 1))

variable [UuidText] [Blake3] [IntentEncoding]

inductive Op where
  | createKey (record : KeyRecord)
  | updateKey (record : KeyRecord)
  | reserveCreation (request : CreationRequest)
  | claimCreationDispatch (operation : Uuid) (owner : CreationOwner)
  | stageCreation (operation : Uuid) (owner : CreationOwner) (revision : Nat) (envelope : Bytes)
  | resolveCreation (operation : Uuid) (owner : CreationOwner) (revision : Nat)
      (closure : VerifiedA2Closure)
  | publishCreation (operation : Uuid) (owner : CreationOwner) (revision : Nat)
  | withdrawCreation (operation : Uuid)
  | reserveMigration (request : MigrationRequest)
  | claimMigration (operation owner : Uuid) (expectedEpoch : Nat)
  | beginMigrationDispatch (operation : Uuid) (ownership : MigrationOwnership) (retrySafe : Bool)
  | stageMigration (operation : Uuid) (ownership : MigrationOwnership) (envelopes : List Bytes)
  | commitMigration (operation : Uuid) (ownership : MigrationOwnership)
  | scheduleDestruction (lid : Lid) (expectedOcc : Nat) (scheduledAt : DateTime) (allow : Bool)
      (now : DateTime)
  | cancelDestruction (lid : Lid) (expectedOcc : Nat) (now : DateTime)
  -- `Uuid::new_v4` sets the version bits, so the fresh operation is not nil
  | claimDestruction (lid : Lid) (expectedOcc : Nat) (now : DateTime)
      (fresh : {operation : Uuid // operation.isNil = false})
  | completeDestruction (claim : DestructionClaim) (now : DateTime)

inductive Reply where
  | done
  | creation (journal : CreationJournal)
  | dispatch (outcome : Creation.CreationDispatch)
  | migration (journal : MigrationJournal)
  | record (record : KeyRecord)
  | scheduled (schedule : ScheduledDeletion)
  | claimed (claim : Option DestructionClaim)
  deriving DecidableEq

/-- Run a body as one transaction, then form the reply. -/
def transact {α : Type} (body : Db → Except KeyRackError (α × Db))
    (reply : α → Except KeyRackError Reply) (db : Db) : Except KeyRackError Reply × Db :=
  match body db with
  | .ok (value, db') => (reply value, db')
  | .error e => (.error e, db)

/-- The ticket is made after the claim has committed. -/
def issueClaim : Option Destruction.Claimed → Except KeyRackError Reply
  | none => .ok (.claimed none)
  | some claimed => do
    let claim ← DestructionClaim.issue claimed.operation claimed.record claimed.recovered
    return .claimed (some claim)

def Op.run : Op → Db → Except KeyRackError Reply × Db
  | .createKey record => transact (Sqlite.createKey record) fun _ => .ok .done
  | .updateKey record => transact (Sqlite.updateKey record) fun _ => .ok .done
  | .reserveCreation request => transact (Creation.reserveA2 request) (.ok ∘ .creation)
  | .claimCreationDispatch operation owner =>
    transact (Creation.claimA2Dispatch operation owner) (.ok ∘ .dispatch)
  | .stageCreation operation owner revision envelope =>
    transact (Creation.stageA2 operation owner revision envelope) (.ok ∘ .creation)
  | .resolveCreation operation owner revision closure =>
    transact (Creation.resolveA2 operation owner revision closure) (.ok ∘ .creation)
  | .publishCreation operation owner revision =>
    transact (Creation.publishA2 operation owner revision) (.ok ∘ .record)
  | .withdrawCreation operation => transact (Creation.withdrawA2 operation) fun _ => .ok .done
  | .reserveMigration request => transact (Migration.migrationReserve request) (.ok ∘ .migration)
  | .claimMigration operation owner expectedEpoch =>
    transact (Migration.migrationClaim operation owner expectedEpoch) (.ok ∘ .migration)
  | .beginMigrationDispatch operation ownership retrySafe =>
    transact (Migration.migrationDispatch operation ownership retrySafe) (.ok ∘ .migration)
  | .stageMigration operation ownership envelopes =>
    transact (Migration.migrationStage operation ownership envelopes) (.ok ∘ .migration)
  | .commitMigration operation ownership =>
    transact (Migration.migrationCommit operation ownership) (.ok ∘ .record)
  | .scheduleDestruction lid expectedOcc scheduledAt allow now =>
    transact (Destruction.destructionSchedule lid expectedOcc scheduledAt allow now)
      (.ok ∘ .scheduled)
  | .cancelDestruction lid expectedOcc now =>
    transact (Destruction.destructionCancel lid expectedOcc now) (.ok ∘ .record)
  | .claimDestruction lid expectedOcc now fresh =>
    transact (Destruction.destructionClaim lid expectedOcc now fresh.1) issueClaim
  | .completeDestruction claim now =>
    transact (Destruction.destructionComplete claim now) (.ok ∘ .record)

/-- An operation and its result. -/
abbrev Event := Op × Except KeyRackError Reply

def StorageStep (db : Db) (event : Event) (db' : Db) : Prop := event.1.run db = (event.2, db')

theorem storageStep_run
    (returned : (op.run db).1 = result) : StorageStep db (op, result) (op.run db).2 :=
  Prod.ext returned rfl

/-- A run of the backend. -/
abbrev Run (db : Db) (events : List Event) (db' : Db) : Prop :=
  Trace.Steps StorageStep db events db'

/-- Run the operations in order. -/
def replay (db : Db) (ops : List Op) : List Event × Db := Trace.play (fun db op => op.run db) db ops

theorem run_replay (db : Db) (ops : List Op) : Run db (replay db ops).1 (replay db ops).2 :=
  (Trace.steps_play (fun db op => op.run db) (fun _ _ => True) db ops fun _ _ _ => trivial).imp
    fun _ _ _ step => step.1

end KeyRack.Sqlite
