import KeyRack.Service.Ops

/-!
# Exportable keys

The three requests about key material that may leave the provider, and the second
gate that a key born exportable passes. Each request reads the key before it is
authorized; its effects follow in the executor.
-/
namespace KeyRack.Service

open Fallible Process

/-! ### Calls -/

/-- What the export requests call, apart from what the service shares. -/
inductive ExportCall where
  | getKey (lid : Lid)
  | getKeyForUse (lid : Lid)
  | listChildren (lid : Lid)
  | updateKey (record : KeyRecord)
  | destroyedWrappingVersions (lid : Lid)
  | resolveForVersion (record : KeyRecord) (versionNumber : Nat)
  | exportKeyMaterial (entry : ProviderEntry) (handle : KeyHandle)
  | makeKeyExportable (entry : ProviderEntry) (handle : KeyHandle)
  | revokeKeyExportability (entry : ProviderEntry) (handle : KeyHandle)
  | now

@[reducible] def ExportCall.Reply : ExportCall → Type
  | .getKey _ => Except KeyRackError KeyRecord
  | .getKeyForUse _ => Except KeyRackError KeyRecord
  | .listChildren _ => Except KeyRackError (List KeyRecord)
  | .updateKey _ => Except KeyRackError Unit
  | .destroyedWrappingVersions _ => Except KeyRackError (List Nat)
  | .resolveForVersion _ _ => Except KeyRackError ProviderEntry
  | .exportKeyMaterial _ _ => Except KeyRackError Bytes
  | .makeKeyExportable _ _ => Except KeyRackError Unit
  | .revokeKeyExportability _ _ => Except KeyRackError (Option KeyHandle)
  | .now => DateTime

/-- The body of an operation. -/
abbrev ExportOp : Type → Type := ExceptT Status (Prog ExportCall ExportCall.Reply)

namespace ExportOp

abbrev call (c : ExportCall) : ExportOp (ExportCall.Reply c) := observe c

/-- `….map_err(error_to_status)?` -/
def core {α : Type} (reply : Except KeyRackError α) : ExportOp α :=
  liftM (mapErr reply errorToStatus)

def ended {α : Type} (op : ExportOp α) : Prog ExportCall ExportCall.Reply (Ended Status α) := do
  let result ← op.run
  return ⟨some result, none⟩

end ExportOp

open ExportOp

abbrev ExportHandler : Type → Type := Handler ExportCall.Reply Status

/-! ### Shared checks -/

def exportabilityResourceAttrs (record : KeyRecord) : PdpAttributes :=
  .ofList [("exportable", .bool (record.exportability == .exportable)),
    ("exported", .bool record.firstExportedAt.isSome)]

def requireResidentVersions (record : KeyRecord) : Except DomainError Unit :=
  checkAll record.keyVersions fun version => do
    let _ ← mapErr version.residentHandle fun _ =>
      DomainError.failedPrecondition "parent-wrapped material is not supported by this operation"
    return ()

/-- `require_resident_versions(..).map_err(|e| e.to_grpc_status())`. -/
def residentVersions (record : KeyRecord) : Except Status Unit :=
  mapErr (requireResidentVersions record) fun _ =>
    .failedPrecondition "parent-wrapped material is not supported by this operation"

def parseLid (text : String) : Except Status Lid :=
  mapErr (Lid.parse text) fun _ => .invalidArgument ("invalid key_id: " ++ text)

def stateText : KeyState → String
  | .creating => "creating"
  | .enabled => "enabled"
  | .disabled => "disabled"
  | .compromised => "compromised"
  | .pendingDeletion => "pending_deletion"
  | .destroyed => "destroyed"

def transitioned (record : KeyRecord) (target : Exportability) (now : DateTime) :
    Except Status KeyRecord :=
  match record.transitionExportability target now with
  | (.error message, _) => .error (.failedPrecondition message)
  | (.ok _, updated) => .ok updated

/-! ### The requests -/

/-- What an export request returns. -/
inductive ExportReply where
  | keyMaterial (material : Bytes) (keySpec : KeySpec) (keyVersion : Nat)
  | metadata (record : KeyRecord) (wrappingParentDestroyedVersions : List Nat)

def keyMetadata (record : KeyRecord) : ExportOp ExportReply := do
  let versions ← core (← call (.destroyedWrappingVersions record.lid))
  return .metadata record versions

def exportContext (action : AuditAction) (principal : Principal) (keyId requestId : String) :
    ExportHandler OpContext := do
  -- `OpContext::key` draws an identifier, which the request's own replaces
  let _ ← Handler.call .newRequestId
  return .key action principal keyId requestId

/-- Set the latch on the first export; a repeated export performs no write. -/
def persistExport (record : KeyRecord) : ExportOp Unit :=
  match record.firstExportedAt with
  | some _ => return ()
  | none => do
    let now ← call .now
    core (← call (.updateKey (record.markExported now)))

/-- The authorized part of `get_key_material`, on a record read after authorization. -/
def exportMaterial (lid : Lid) (keyVersion : UInt32) : ExportOp ExportReply := do
  let record ← core (← call (.getKeyForUse lid))
  liftM (refuseIf (record.exportability ≠ .exportable ∨ record.permitsExport = false)
    (Status.failedPrecondition "key-material export no longer permitted"))
  let versionNumber := if keyVersion = 0 then record.currentKeyVersion else keyVersion.toNat
  let version ← liftM (okOr (record.getVersion versionNumber)
    (Status.notFound ("version " ++ toString versionNumber ++ " not found")))
  let entry ← core (← call (.resolveForVersion record versionNumber))
  let handle ← core version.residentHandle
  let material ← core (← call (.exportKeyMaterial entry handle))
  persistExport record
  return .keyMaterial material record.keySpec (versionNumber % 2 ^ 32)

def getKeyMaterial (principal : Principal) (requestId keyId : String) (keyVersion : UInt32) :
    ExportHandler ExportReply := do
  let lid ← liftM (parseLid keyId)
  let record ← liftM (mapErr (← Handler.call (.own (.getKeyForUse lid))) errorToStatus)
  liftM (refuseIf (record.exportability ≠ .exportable)
    (Status.failedPrecondition ("key " ++ keyId ++ " is not exportable")))
  liftM (refuseIf (record.permitsExport = false) (Status.failedPrecondition ("key " ++ keyId ++
    " is in state " ++ stateText record.state ++ " — key-material export not permitted")))
  let ctx ← exportContext .getKeyMaterial principal keyId requestId
  ExceptT.mk (executeWithResourceAttrs ctx (exportabilityResourceAttrs record)
    (exportMaterial lid keyVersion).ended)

/-- The authorized part of `make_key_exportable`, on the record read before. -/
def openExport (record : KeyRecord) : ExportOp ExportReply := do
  liftM (residentVersions record)
  let entry ← core
    (← call (.resolveForVersion record record.currentKeyVersion))
  let primary ← liftM (okOr (record.getVersion record.currentKeyVersion)
    (Status.internal "primary version not found"))
  let handle ← core primary.residentHandle
  core (← call (.makeKeyExportable entry handle))
  let now ← call .now
  let updated ← liftM (transitioned record .exportable now)
  core (← call (.updateKey updated))
  keyMetadata updated

def makeKeyExportable (principal : Principal) (requestId keyId : String) :
    ExportHandler ExportReply := do
  let lid ← liftM (parseLid keyId)
  let record ← liftM (mapErr (← Handler.call (.own (.getKey lid))) errorToStatus)
  -- leaf-only
  let dependents ← liftM (mapErr (← Handler.call (.own (.listChildren lid))) errorToStatus)
  liftM (refuseIf (dependents ≠ []) (Status.failedPrecondition ("key " ++ keyId ++
    " has dependents — exportable keys must be leaf-only")))
  let ctx ← exportContext .makeKeyExportable principal keyId requestId
  ExceptT.mk (executeWithResourceAttrs ctx (exportabilityResourceAttrs record)
    (openExport record).ended)

/-- Replace the handle of one version. -/
def replaceHandle (record : KeyRecord) (versionNumber : Nat) (handle : KeyHandle) :
    Except KeyRackError KeyRecord := do
  let index := record.keyVersions.findIdx fun version => version.versionNumber == versionNumber
  match record.keyVersions[index]? with
  | none => return record
  | some version =>
    match version.material with
    | .parentWrapped _ =>
      .error (.provider "parent-wrapped material is not supported by this operation")
    | .providerResident _ providerRef =>
      return { record with
        keyVersions := record.keyVersions.set index
          { version with material := .providerResident handle providerRef } }

/-- Tell each version's provider; it may replace the backend key. -/
def revokeVersions : List (Nat × KeyHandle) → KeyRecord → ExportOp KeyRecord
  | [], updated => return updated
  | (versionNumber, old) :: rest, updated => do
    let entry ← core (← call (.resolveForVersion updated versionNumber))
    match ← core (← call (.revokeKeyExportability entry old)) with
    | none => revokeVersions rest updated
    | some new =>
      let updated ← core (replaceHandle updated versionNumber new)
      revokeVersions rest updated

/-- The authorized part of `revoke_key_exportability`, on the record read before. -/
def closeExport (record : KeyRecord) : ExportOp ExportReply := do
  liftM (residentVersions record)
  let now ← call .now
  let updated ← liftM (transitioned record .nonExportable now)
  let handles ← core (updated.keyVersions.mapM fun version => do
    let handle ← version.residentHandle
    return (version.versionNumber, handle))
  let updated ← revokeVersions handles updated
  core (← call (.updateKey updated))
  keyMetadata updated

def revokeKeyExportability (principal : Principal) (requestId keyId : String) :
    ExportHandler ExportReply := do
  let lid ← liftM (parseLid keyId)
  let record ← liftM (mapErr (← Handler.call (.own (.getKey lid))) errorToStatus)
  let ctx ← exportContext .revokeKeyExportability principal keyId requestId
  ExceptT.mk (executeWithResourceAttrs ctx (exportabilityResourceAttrs record)
    (closeExport record).ended)

/-! ### Keys born exportable -/

/-- The question of the second gate. -/
def makeExportableRequest (principal : Principal) (resourceId requestId : String)
    (resourceAttrs : PdpAttributes) : AuthzRequest where
  pdpApiVersion := pdpApiVersion
  requestId
  action := .makeKeyExportable
  principal
  resource := ⟨resourceId, "Key", resourceAttrs⟩
  context := .empty

/-- The second gate's own check of the policy decision point. -/
def authorizeMakeExportable (principal : Principal) (resourceId : String)
    (resourceAttrs : PdpAttributes) : Handler ExportCall.Reply DomainError Unit := do
  let requestId ← Handler.call .newRequestId
  let reply ← Handler.call
    (.evaluate (makeExportableRequest principal resourceId requestId resourceAttrs))
  let response ← liftM (mapErr reply fun _ =>
    DomainError.internal "authorization service unavailable")
  match response.decision with
  | .permit => return ()
  | .forbid | .indeterminate => do
    emitEvent {
      eventType := .authorizationDenied
      action := .makeKeyExportable
      principal := ⟨principal.id, principal.principalType⟩
      resource := ⟨resourceId, "Key"⟩
      result := .denied
      requestId := some requestId }
    throw (.permissionDenied ("authorization denied: " ++ response.reasonsText))

/-- The gates of a key that is to be exportable from its creation. -/
def enforceBornExportable (record : KeyRecord) (principal : Principal) (provider : ProviderEntry) :
    Handler ExportCall.Reply DomainError Unit := do
  liftM (requireResidentVersions record)
  liftM (refuseIf record.parentLid.isSome (DomainError.failedPrecondition
    "exportable keys must be leaf-only — cannot create with a parent"))
  authorizeMakeExportable principal record.lid.display (exportabilityResourceAttrs record)
  let version ← liftM (okOr record.keyVersions.head?
    (DomainError.internal "no key version on new key"))
  let handle ← liftM (mapErr version.residentHandle DomainError.core)
  let reply ← Handler.call (.own (.makeKeyExportable provider handle))
  liftM (mapErr reply DomainError.core)

/-! ### Their surroundings -/

variable [UuidText] [Blake3] [IntentEncoding]

open Sqlite

/-- Calls that leave the stored keys alone, answered with anything. -/
def ExportCall.elsewhere : ExportCall → Bool
  | .getKey _ | .getKeyForUse _ | .listChildren _ | .updateKey _ => false
  | _ => true

inductive ExportCall.Answers (db : Db) : (c : ExportCall) → c.Reply → Db → Prop where
  | getKey (lid : Lid) (reply : Except KeyRackError KeyRecord)
      (read : ReadAttempt (Sqlite.getKey db lid) reply) : Answers db (.getKey lid) reply db
  | getKeyForUse (lid : Lid) (reply : Except KeyRackError KeyRecord)
      (read : ReadAttempt (Sqlite.getKeyForUse db lid) reply) :
      Answers db (.getKeyForUse lid) reply db
  | listChildren (lid : Lid) (reply : Except KeyRackError (List KeyRecord))
      (read : ReadAttempt (.ok (Sqlite.listChildren db lid)) reply) :
      Answers db (.listChildren lid) reply db
  | updateKey (record : KeyRecord) (reply : Except KeyRackError Unit) (db' : Db)
      (attempt : Attempt (.updateKey record) (fun _ => .done) db reply db') :
      Answers db (.updateKey record) reply db'
  | elsewhere (c : ExportCall) (reply : c.Reply) (other : c.elsewhere = true) :
      Answers db c reply db

/-- The shared calls are answered with anything. -/
def exportAnswers (db : Db) :
    (c : ServiceCall ExportCall) → ServiceCall.Reply ExportCall.Reply c → Db → Prop
  | .own c => fun reply db' => c.Answers db reply db'
  | .newRequestId | .evaluate _ | .emit _ | .getHsmConnection _ | .joinTask => fun _ db' => db' = db

/-- A write of others may replace the record, but not say something else about its
    exportability. -/
def KeepsExportability (lid : Lid) (db db' : Db) : Prop :=
  ∀ row row', db.keys.get? lid = some row → db'.keys.get? lid = some row' →
    row'.record.exportability = row.record.exportability ∧
      row'.record.firstExportedAt = row.record.firstExportedAt

/-- Any number of export requests for one key. -/
def exportRules (ι : Type) (lid : Lid) :
    Rules Db ι (ServiceCall ExportCall) (ServiceCall.Reply ExportCall.Reply)
      (Except Status ExportReply) Sqlite.Event where
  starts p := ∃ principal requestId keyId, parseLid keyId = .ok lid ∧
    (p = (makeKeyExportable principal requestId keyId).run ∨
      p = (revokeKeyExportability principal requestId keyId).run ∨
      ∃ keyVersion, p = (getKeyMaterial principal requestId keyId keyVersion).run)
  answers db _ c reply db' := exportAnswers db c reply db'
  drops db _ _ db' := db' = db
  environment db event db' := StorageStep db event db' ∧ KeepsExportability lid db db'

end KeyRack.Service
