import KeyRack.Core.Destruction
import KeyRack.Core.Migration
import KeyRack.Lib.Table

/-!
# The SQLite schema

The tables that hold keys and journals. Identifiers and version numbers are the
values their text columns print, JSON columns the values they encode. A row is
its index columns, which no statement updates, and the rest of its columns.
-/
namespace KeyRack.Sqlite

open Fallible

/-- `keys`, apart from its primary key `lid`. -/
structure KeyRow where
  record : KeyRecord
  occVersion : Int
  deriving DecidableEq

/-- The index columns of `creation_journal`. -/
structure CreationIndex where
  operationId : Uuid
  childLid : Lid
  childVersion : Nat
  parentLid : Lid
  parentVersion : Nat
  envelopeRef : String
  deriving DecidableEq

/-- `PRIMARY KEY`, `UNIQUE(child_lid, child_version)` and `envelope_ref UNIQUE`. -/
def CreationIndex.Clash (a b : CreationIndex) : Prop :=
  a.operationId = b.operationId ∨
    (a.childLid = b.childLid ∧ a.childVersion = b.childVersion) ∨ a.envelopeRef = b.envelopeRef

instance : DecidableRel CreationIndex.Clash := fun a b =>
  inferInstanceAs (Decidable (a.operationId = b.operationId ∨
    (a.childLid = b.childLid ∧ a.childVersion = b.childVersion) ∨ a.envelopeRef = b.envelopeRef))

def CreationIndex.names (index : CreationIndex) (lid : Lid) : Bool :=
  index.parentLid == lid || index.childLid == lid

structure CreationRow where
  phase : CreationPhase
  journal : CreationJournal
  envelope : Option Bytes
  deriving DecidableEq

/-- The index columns of `migration_journal`. -/
structure MigrationIndex where
  operationId : Uuid
  childLid : Lid
  oldParentLid : Lid
  newParentLid : Lid
  deriving DecidableEq

def MigrationIndex.Clash (a b : MigrationIndex) : Prop := a.operationId = b.operationId

instance : DecidableRel MigrationIndex.Clash := fun a b =>
  inferInstanceAs (Decidable (a.operationId = b.operationId))

def MigrationIndex.names (index : MigrationIndex) (lid : Lid) : Bool :=
  index.childLid == lid || index.oldParentLid == lid || index.newParentLid == lid

structure MigrationRow where
  committed : Bool
  journal : MigrationJournal
  deriving DecidableEq

/-- The index columns of `destruction_journal`. -/
structure DestructionIndex where
  lid : Lid
  operationId : Uuid
  deriving DecidableEq

def DestructionIndex.Clash (a b : DestructionIndex) : Prop :=
  a.lid = b.lid ∨ a.operationId = b.operationId

instance : DecidableRel DestructionIndex.Clash := fun a b =>
  inferInstanceAs (Decidable (a.lid = b.lid ∨ a.operationId = b.operationId))

structure DestructionRow where
  record : KeyRecord
  completed : Bool
  deriving DecidableEq

structure DeletionSchedule where
  scheduledAt : DateTime
  intent : DeletionIntent
  deriving DecidableEq

/-- `destroyed_wrapping_parents`: all columns form the primary key. -/
structure LossMarker where
  childLid : Lid
  childVersion : Nat
  parentLid : Lid
  parentVersion : Nat
  deriving DecidableEq

structure Db where
  keys : Table Lid KeyRow Eq
  creationJournal : Table CreationIndex CreationRow CreationIndex.Clash
  retiredCreationJournal : Table Uuid CreationJournal Eq
  migrationJournal : Table MigrationIndex MigrationRow MigrationIndex.Clash
  migrationEnvelopes : Table (Uuid × Nat) Bytes Eq
  destructionJournal : Table DestructionIndex DestructionRow DestructionIndex.Clash
  deletionSchedules : Table Lid DeletionSchedule Eq
  destroyedWrappingParents : Table LossMarker Unit Eq

/-- The tables as `CREATE TABLE` leaves them. -/
def Db.empty : Db where
  keys := .empty
  creationJournal := .empty
  retiredCreationJournal := .empty
  migrationJournal := .empty
  migrationEnvelopes := .empty
  destructionJournal := .empty
  deletionSchedules := .empty
  destroyedWrappingParents := .empty

/-! ### Driver errors and integer columns -/

/-- `map_sql`; of the driver's own text only the kind of failure is kept. -/
def mapSql (kind : String) : KeyRackError := .storage ("sqlite: " ++ kind)

def noRows : KeyRackError := mapSql "Query returned no rows"

def constraintFailed : KeyRackError := mapSql "UNIQUE constraint failed"

/-- `i64::try_from`. -/
def toI64 (n : Nat) (e : KeyRackError) : Except KeyRackError Int :=
  if n ≤ i64Max then .ok n else .error e

/-- A version column read back; a stored number prints canonically. -/
def parseVersion (version : Nat) : Except KeyRackError Nat := do
  refuseIf (version = 0) (destructionInvalid "invalid version index")
  return version

/-! ### The key table -/

def key (db : Db) (lid : Lid) : Except KeyRackError (Option KeyRecord) :=
  match db.keys.select? (· == lid) with
  | none => .ok none
  | some (_, row) => do
    -- the column is signed, the record's own counter is not
    refuseIf (row.occVersion < 0) (invalid "negative persisted key OCC")
    refuseIf (row.record.lid ≠ lid ∨ (row.record.occVersion : Int) ≠ row.occVersion)
      (invalid "key row binding mismatch")
    return some row.record

/-- `key(conn, lid)?.ok_or(KeyNotFound)`. -/
def requiredKey (db : Db) (lid : Lid) : Except KeyRackError KeyRecord := do
  let record ← key db lid
  okOr record (.keyNotFound lid)

/-- The rows of `WHERE lid=? AND occ_version=?`. -/
def matchingRows (db : Db) (lid : Lid) (expected : Int) : Nat :=
  db.keys.count fun l row => l == lid && row.occVersion == expected

/-- `UPDATE keys SET record_json=?, occ_version=? WHERE lid=? AND occ_version=?`. -/
def updateKeyRow (db : Db) (record : KeyRecord) (occVersion expected : Int) : Db :=
  { db with
    keys := db.keys.modify (fun l row => l == record.lid && row.occVersion == expected)
      fun _ => ⟨record, occVersion⟩ }

/-! ### The migration and destruction fences -/

namespace Migration

def guard (db : Db) (lid : Lid) : Except KeyRackError Unit :=
  refuseIf (db.migrationJournal.any fun index row => !row.committed && index.names lid)
    migrationBusy

def guardRecord (db : Db) (record : KeyRecord) : Except KeyRackError Unit := do
  guard db record.lid
  -- the logical parent and the wrapping parents of single versions can differ
  checkAll record.parentLid.toList (guard db)
  checkAll (record.keyVersions.filterMap fun version => version.material.wrapped?)
    fun material => guard db material.parent.lid

end Migration

namespace Destruction

def guard (db : Db) (lid : Lid) : Except KeyRackError Unit :=
  -- a completed row fences as well: destroyed keys stay closed
  refuseIf (db.destructionJournal.any fun index _ => index.lid == lid) (.keyDestructionFenced lid)

def guardWrite (db : Db) (record : KeyRecord) : Except KeyRackError Unit := do
  guard db record.lid
  checkAll (record.keyVersions.filterMap fun version => version.material.wrapped?)
    fun material => guard db material.parent.lid

end Destruction
end KeyRack.Sqlite
