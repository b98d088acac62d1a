import KeyRack.Sqlite.Schema

/-!
# Creation persistence

The transactions on `creation_journal`. Each body returns its result and the
tables it leaves; an error rolls everything back.
-/
namespace KeyRack.Sqlite.Creation

open Fallible Stateful

inductive CreationDispatch where
  | started (journal : CreationJournal)
  | existing (journal : CreationJournal)
  deriving DecidableEq

instance : JsonDocument CreationJournal where
  serializable journal := serializable journal.request.record &&
    journal.committedRecord.all serializable

/-- The index columns a request is stored under. -/
def creationIndex (request : CreationRequest) (material : ParentWrappedMaterial) :
    CreationIndex where
  operationId := request.operation
  childLid := request.record.lid
  childVersion := request.record.currentKeyVersion
  parentLid := material.parent.lid
  parentVersion := material.parent.version
  envelopeRef := material.wrappedMaterialRef.asStr

variable [UuidText] [Blake3] [IntentEncoding]

/-- Bytes are stored exactly from the staged phase on. -/
def validateStored (value : CreationJournal) : Option Bytes → Except KeyRackError Unit
  | none => refuseIf (value.phase ≠ .reserved) (invalid "journal envelope phase mismatch")
  | some bytes => do
    refuseIf (value.phase = .reserved) (invalid "journal envelope phase mismatch")
    validateEnvelope value bytes

def decode (row : CreationIndex × CreationRow) : Except KeyRackError CreationJournal := do
  let value := row.2.journal
  value.validate
  -- every column is recomputed from the journal, so a row cannot speak for another
  let material ← value.request.material
  refuseIf (row.1 ≠ creationIndex value.request material ∨ row.2.phase ≠ value.phase)
    (invalid "journal index binding mismatch")
  validateStored value row.2.envelope
  return value

def storedJournal (db : Db) (operation : Uuid) : Option (CreationIndex × CreationRow) :=
  db.creationJournal.select? fun index => index.operationId == operation

def retiredJournal (db : Db) (operation : Uuid) : Except KeyRackError (Option CreationJournal) :=
  match db.retiredCreationJournal.select? (· == operation) with
  | none => .ok none
  | some (_, value) => do
    value.validate
    -- the retired table keeps no bytes and no other columns to compare
    refuseIf (value.request.operation ≠ operation ∨ value.phase ≠ .committed)
      (invalid "invalid retired journal identity")
    return some value

def journal (db : Db) (operation : Uuid) : Except KeyRackError (Option CreationJournal) :=
  match storedJournal db operation with
  | some row => do
    let value ← decode row
    return some value
  | none => retiredJournal db operation

def requiredJournal (db : Db) (operation : Uuid) : Except KeyRackError CreationJournal := do
  let value ← journal db operation
  okOr value (invalid "creation not found")

/-- The JSON text is represented by the value it encodes. -/
def encode (value : CreationJournal) : Except KeyRackError Unit := do
  value.validate
  refuseIf (serializable value = false) (invalid "journal serialization failed")

def save (db : Db) (value : CreationJournal) : Except KeyRackError Db := do
  encode value
  -- only live rows are counted: a retired journal cannot be saved again
  refuseIf (db.creationJournal.count (fun index _ => index.operationId == value.request.operation)
    ≠ 1) (invalid "creation disappeared")
  return { db with
    creationJournal := db.creationJournal.modify
      (fun index _ => index.operationId == value.request.operation)
      fun row => { row with journal := value, phase := value.phase } }

def envelope (db : Db) (operation : Uuid) : Except KeyRackError Bytes := do
  let row ← okOr (storedJournal db operation) noRows
  okOr row.2.envelope (invalid "envelope not staged")

def guardCreate (db : Db) (lid : Lid) : Except KeyRackError Unit :=
  refuseIf (db.creationJournal.any fun index _ => index.childLid == lid)
    (invalid "child identity is reserved")

/-- A key with a journal row as child keeps its version history. -/
def guardHistory (db : Db) (previous next : KeyRecord) : Except KeyRackError Unit :=
  if db.creationJournal.any fun index _ => index.childLid == next.lid then do
    refuseIf (previous.currentKeyVersion ≠ next.currentKeyVersion)
      (invalid "version history is managed by the creation journal")
    let same ← sameJson previous.keyVersions next.keyVersions
    refuseIf (same = false) (invalid "version history is managed by the creation journal")
  else .ok ()

def guardUpdate (db : Db) (previous next : KeyRecord) : Except KeyRackError Unit := do
  guardHistory db previous next
  -- wrapped under this key in any phase, or this key itself published by a journal
  if db.creationJournal.any fun index row => index.parentLid == next.lid ||
      (index.childLid == next.lid && row.phase == .committed) then
    guardReferencedParent previous next
  else .ok ()

def committedEnvelope (db : Db) (operation : Uuid) : Except KeyRackError Bytes := do
  let value ← requiredJournal db operation
  refuseIf (value.phase ≠ .committed) (invalid "staged material is unavailable")
  -- a retired journal passes the test above and has no row left to read
  let bytes ← envelope db operation
  validateEnvelope value bytes
  return bytes

/-! ### Transactions -/

/-- A repeated reservation returns the journal of the same intent. -/
def reserveExisting (request : CreationRequest) (existing : CreationJournal) (db : Db) :
    Except KeyRackError (CreationJournal × Db) := do
  let stored ← existing.request.fingerprint
  let given ← request.fingerprint
  refuseIf (stored ≠ given) (invalid "operation intent conflict")
  return (existing, db)

def reserveNew (request : CreationRequest) (db : Db) :
    Except KeyRackError (CreationJournal × Db) := do
  let material ← request.material
  let parent ← requiredKey db material.parent.lid
  let current ← key db request.record.lid
  request.validateRecords current parent
  let value ← CreationJournal.reserved request
  encode value
  let creationJournal ← okOr (db.creationJournal.insert? (creationIndex request material)
    ⟨value.phase, value, none⟩) constraintFailed
  return (value, { db with creationJournal })

def reserveA2 (request : CreationRequest) (db : Db) :
    Except KeyRackError (CreationJournal × Db) := do
  request.validate
  Migration.guardRecord db request.record
  Destruction.guardWrite db request.record
  -- the fences come first, so a retry after the fence is refused as well
  let existing ← journal db request.operation
  match existing with
  | some existing => reserveExisting request existing db
  | none => reserveNew request db

/-- Recheck the records before the one-shot permission is stored. -/
def startDispatch (value : CreationJournal) (db : Db) :
    Except KeyRackError (CreationDispatch × Db) := do
  let current ← key db value.request.record.lid
  let material ← value.request.material
  let parent ← requiredKey db material.parent.lid
  value.request.validateRecords current parent
  let db ← save db value
  return (.started value, db)

def claimA2Dispatch (operation : Uuid) (owner : CreationOwner) (db : Db) :
    Except KeyRackError (CreationDispatch × Db) := do
  let value ← requiredJournal db operation
  let (started, value) ← toExcept (CreationJournal.claimDispatch owner value)
  -- the permission is spent once stored: a lost reply finds `existing`
  if started then startDispatch value db else return (.existing value, db)

/-- Store the bytes on the first staging; a retry must bring the same ones. -/
def storeEnvelope (db : Db) (operation : Uuid) (prior : CreationPhase) (bytes : Bytes) :
    Except KeyRackError Db :=
  if prior = .reserved then
    .ok { db with
      creationJournal := db.creationJournal.modify (fun index _ => index.operationId == operation)
        fun row => { row with envelope := some bytes } }
  else do
    let stored ← envelope db operation
    refuseIf (stored ≠ bytes) (invalid "immutable envelope conflict")
    return db

def stageA2 (operation : Uuid) (owner : CreationOwner) (revision : Nat) (bytes : Bytes) (db : Db) :
    Except KeyRackError (CreationJournal × Db) := do
  let prior ← requiredJournal db operation
  let ((), value) ← toExcept (CreationJournal.stage owner revision bytes prior)
  -- the phase before the call decides between storing and comparing
  let db ← storeEnvelope db operation prior.phase bytes
  let db ← save db value
  return (value, db)

def resolveA2 (operation : Uuid) (owner : CreationOwner) (revision : Nat)
    (closure : VerifiedA2Closure) (db : Db) : Except KeyRackError (CreationJournal × Db) := do
  let value ← requiredJournal db operation
  -- closure is recorded only while the staged bytes are still the journal's
  let bytes ← envelope db operation
  validateEnvelope value bytes
  let ((), value) ← toExcept (CreationJournal.resolve owner revision closure value)
  let db ← save db value
  return (value, db)

/-- The update names only the key: the checks before it stand for the version. -/
def writeRecord (db : Db) (current : Option KeyRecord) (record : KeyRecord) (occVersion : Int) :
    Except KeyRackError Db :=
  match current with
  | some _ => .ok { db with
      keys := db.keys.modify (fun l _ => l == record.lid) fun _ => ⟨record, occVersion⟩ }
  | none => do
    let keys ← okOr (db.keys.insert? record.lid ⟨record, occVersion⟩) constraintFailed
    return { db with keys }

def publishResolved (operation : Uuid) (owner : CreationOwner) (revision : Nat)
    (value : CreationJournal) (db : Db) : Except KeyRackError (KeyRecord × Db) := do
  let bytes ← envelope db operation
  validateEnvelope value bytes
  let current ← key db value.request.record.lid
  let material ← value.request.material
  let parent ← requiredKey db material.parent.lid
  -- no destruction fence here: a claim counts this row and is refused instead
  Migration.guardRecord db value.request.record
  let (record, value) ← toExcept (CreationJournal.publication owner revision current parent value)
  refuseIf (serializable record = false) (invalid "record serialization failed")
  let occVersion ← toI64 record.occVersion (invalid "OCC overflow")
  let db ← writeRecord db current record occVersion
  let db ← save db value
  return (record, db)

def publishA2 (operation : Uuid) (owner : CreationOwner) (revision : Nat) (db : Db) :
    Except KeyRackError (KeyRecord × Db) := do
  let value ← requiredJournal db operation
  let retry ← value.committedRetry owner revision
  match retry with
  | some record => return (record, db)
  | none => publishResolved operation owner revision value db

def withdrawA2 (operation : Uuid) (db : Db) : Except KeyRackError (Unit × Db) := do
  let existing ← journal db operation
  match existing with
  | none => return ((), db)
  | some value =>
    -- also refuses retired journals, which are committed
    value.withdrawable
    refuseIf (db.creationJournal.count (fun index _ => index.operationId == operation) ≠ 1)
      (invalid "creation disappeared during withdrawal")
    return ((), { db with
      creationJournal := db.creationJournal.delete fun index _ => index.operationId == operation })

end KeyRack.Sqlite.Creation
