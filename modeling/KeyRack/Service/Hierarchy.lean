import KeyRack.Service.CreationDriver
import KeyRack.Service.Export

/-!
# Children of a key

A key with a parent is created with its material wrapped under that parent. The
request reads the parent twice, once for the leaf-only rule and once for the
snapshot that its journaled creation is bound to, and leaves the rest to the
creation driver.
-/
namespace KeyRack

open Fallible

def KeyRecord.hasLegacyParentSemantics (record : KeyRecord) : Bool :=
  record.parentLid.isSome && record.keyVersions.any (·.isResident)

/-- The text of a wrapping error. -/
def WrappingError.message : WrappingError → String
  | .invalidIdentifier =>
    "wrapping identifier must be 1..=256 printable ASCII bytes without whitespace"
  | .zeroKeyVersion => "key version must be nonzero"
  | .unsupportedContextVersion version =>
    "unsupported wrapping context version " ++ toString version
  | .invalidParentSpec => "wrapping parent must have an AES key spec"
  | .invalidKeySpec => "unsupported RSA size in wrapping context"
  | .invalidPurpose => "key purpose does not match the child key spec"
  | .invalidKeyFormat => "key format does not match the child key spec"
  | .invalidPublicMaterialDigest =>
    "public-material digest must be present exactly for asymmetric keys"
  | .unsupportedCapability => "requested wrapping capability tuple is unsupported"

/-- `format!("{spec:?}")`. -/
def KeySpec.debug : KeySpec → String
  | .aes256 => "Aes256"
  | .aes128 => "Aes128"
  | .ed25519 => "Ed25519"
  | .rsaPkcs1v15Sha256 keySize =>
    "RsaPkcs1v15Sha256 \x7b key_size: " ++ toString keySize ++ " \x7d"
  | .rsaPssSha256 keySize => "RsaPssSha256 \x7b key_size: " ++ toString keySize ++ " \x7d"
  | .ecdsaP256Sha256 => "EcdsaP256Sha256"
  | .ecdsaP384 => "EcdsaP384"
  | .hmac256 => "Hmac256"

def KeyState.debug : KeyState → String
  | .creating => "Creating"
  | .enabled => "Enabled"
  | .disabled => "Disabled"
  | .compromised => "Compromised"
  | .pendingDeletion => "PendingDeletion"
  | .destroyed => "Destroyed"

def ParentWrappedMaterial.new (providerRef : ProviderRef) (securityDomain : WrappingIdentifier)
    (parent : VersionedKeyId) (wrappingContextVersion : WrappingContextVersion)
    (keyFormat : WrappedKeyFormat) (mechanism wrappedMaterialRef : WrappingIdentifier) :
    Except WrappingError ParentWrappedMaterial :=
  if providerValid : validIdentifier providerRef.name = true then
    .ok { providerRef, securityDomain, parent, wrappingContextVersion, keyFormat, mechanism,
          wrappedMaterialRef, providerValid }
  else .error .invalidIdentifier

namespace Service

open Process Sqlite

def CreationPendingReason.debug : CreationPendingReason → String
  | .dispatchAlreadyClaimed => "DispatchAlreadyClaimed"
  | .generationUncertain => "GenerationUncertain"
  | .stagingUncertain => "StagingUncertain"
  | .cleanupUnconfirmed => "CleanupUnconfirmed"
  | .closureRejected => "ClosureRejected"
  | .resolutionUncertain => "ResolutionUncertain"
  | .publicationRefused => "PublicationRefused"

variable [UuidText] [Blake3] [IntentEncoding]

/-! ### Calls -/

inductive HierarchyCall where
  | getKey (lid : Lid)
  | newUuid
  | now
  -- `WrappingCreationProvider::new`
  | wrappingCreationProvider (entry : ProviderEntry) (parentHandle : KeyHandle)
  | driver (c : DriverCall)

@[reducible] def HierarchyCall.Reply : HierarchyCall → Type
  | .getKey _ => Except KeyRackError KeyRecord
  | .newUuid => Uuid
  | .now => DateTime
  | .wrappingCreationProvider _ _ => Except KeyRackError Unit
  | .driver c => c.Reply

abbrev Hierarchy : Type → Type := ExceptT DomainError (Prog HierarchyCall HierarchyCall.Reply)

abbrev Hierarchy.call (c : HierarchyCall) : Hierarchy (HierarchyCall.Reply c) := observe c

/-! ### Refusals -/

def enforceNoChildUnderExportableParent (parentLid : Lid) : Hierarchy Unit := do
  let parent ← liftM (mapErr (← Hierarchy.call (.getKey parentLid)) DomainError.core)
  liftM (refuseIf (parent.exportability = .exportable) (DomainError.failedPrecondition
    ("cannot create a child key under an exportable parent — " ++
      "exportable keys must be leaf-only")))

/-- A record that states a parent and carries no versions yet. -/
structure ChildProposal where
  record : KeyRecord
  parented : record.parentLid.isSome = true
  bare : record.keyVersions = []

def ChildProposal.new (record : KeyRecord) : Except DomainError ChildProposal :=
  if parented : record.parentLid.isSome = true then
    if bare : record.keyVersions = [] then .ok ⟨record, parented, bare⟩
    else .error (.internal "child proposal must not carry material")
  else .error (.internal "child proposal without a parent")

def refuseUnwrappableChild (record : KeyRecord) : Except DomainError Unit := do
  refuseIf (record.keySpec.isAes = false) (.invalidArgument
    ("a key with a parent is wrapped under that parent, which is implemented " ++
      "for symmetric encryption keys only; " ++ record.keySpec.debug ++ " cannot be a child"))
  refuseIf (record.exportability ≠ .nonExportable)
    (.invalidArgument "a wrapped child cannot be exportable")

def refuseUnwrappableParent (parent : KeyRecord) : Except DomainError Unit := do
  let name := "parent " ++ parent.lid.display
  refuseIf (parent.hasLegacyParentSemantics = true) (.failedPrecondition (name ++
    ": keys created before 0.5.0 have different parent semantics and require migration " ++
      "before use in 0.5 and later"))
  refuseIf (parent.state ≠ .enabled ∨ parent.hasCompromiseHistory = true)
    (.failedPrecondition (name ++ " is not an eligible wrapping key in state " ++
      parent.state.debug))
  refuseIf (parent.scheduledDeletionAt.isSome = true)
    (.failedPrecondition (name ++ " is scheduled for deletion"))
  refuseIf (parent.exportability ≠ .nonExportable ∨ parent.firstExportedAt.isSome = true)
    (.failedPrecondition (name ++ " is exportable and cannot wrap child keys"))
  refuseIf (parent.primaryVersion.any (·.isResident) = false)
    (.failedPrecondition (name ++
      " is not an independently resident key; a wrapped key cannot itself wrap children"))

/-- The parent's explicit binding; an inherited default is not good enough. -/
def parentProviderRef (parent : KeyRecord) : Except DomainError ProviderRef :=
  okOr ((parent.primaryVersion.bind (·.providerRef)).or parent.providerRef)
    (.failedPrecondition ("parent " ++ parent.lid.display ++
      " has no explicit provider binding and cannot wrap a child"))

def refuseCrossDomain (child parent : ProviderRef) : Except DomainError Unit :=
  refuseIf (child ≠ parent) (.failedPrecondition
    ("parent is on provider '" ++ parent.name ++ "' and the child would be created on '" ++
      child.name ++ "': a wrapped child must be in the same security domain as its parent"))

def requireProfile (state : ServiceState) (provider : ProviderRef) :
    Except DomainError WrappingProfile :=
  okOr (state.wrapping provider) (.failedPrecondition
    ("provider '" ++ provider.name ++ "' is not configured to wrap child keys: " ++
      "creating a key with a parent requires a wrapping profile for that provider"))

/-! ### The journaled version -/

def materialRef (operation : Uuid) : Except DomainError WrappingIdentifier :=
  mapErr (WrappingIdentifier.new ("creation:" ++ UuidText.display operation)) fun e =>
    .internal ("invalid material reference: " ++ e.message)

/-- The description of a version wrapped under the parent's current one. -/
def wrappedMaterial (providerName : ProviderRef) (profile : WrappingProfile) (parent : KeyRecord)
    (operation : Uuid) : Except DomainError ParentWrappedMaterial := do
  let version ← mapErr (VersionedKeyId.new parent.lid parent.currentKeyVersion) fun e =>
    DomainError.internal ("invalid parent version: " ++ e.message)
  let reference ← materialRef operation
  mapErr (ParentWrappedMaterial.new providerName profile.securityDomain version .v1 .rawSecret
    profile.mechanism reference) fun e =>
      .invalidArgument ("invalid wrapped material: " ++ e.message)

/-- The number of the next version. -/
def nextVersionNumber (record : KeyRecord) : Except DomainError Nat :=
  okOr (checkedSucc ((record.keyVersions.map (·.versionNumber)).foldl max 0))
    (.failedPrecondition "key version number exhausted")

/-- The time of the new version; a first version is as old as its key. -/
def versionTime (record : KeyRecord) (expectedKeyOcc : Option Nat) : Hierarchy DateTime :=
  match expectedKeyOcc with
  | none => return record.createdAt
  | some _ => Hierarchy.call .now

def proposedOcc (expectedKeyOcc : Option Nat) : Except DomainError Nat :=
  match expectedKeyOcc with
  | none => .ok 1
  | some occ => okOr (checkedSucc occ) (.failedPrecondition "key OCC exhausted")

/-- The record with its next version; `expectedKeyOcc` is the snapshot that its versions
    were read at, none for a creation. -/
def proposeVersion (record : KeyRecord) (expectedKeyOcc : Option Nat) (versionNumber : Nat)
    (material : ParentWrappedMaterial) (createdAt : DateTime) : Except DomainError KeyRecord := do
  let occVersion ← proposedOcc expectedKeyOcc
  return { record with
    occVersion
    updatedAt := if expectedKeyOcc.isSome then createdAt else record.updatedAt
    keyVersions := (record.keyVersions.map fun version => { version with isPrimary := false }) ++
      [⟨versionNumber, .parentWrapped material, createdAt, true⟩]
    currentKeyVersion := versionNumber }

/-- The request for a record that was proposed under a parent as it was read. -/
def requestFor (operation attempt : Uuid) (owner : CreationOwner) (record parent : KeyRecord)
    (expectedKeyOcc : Option Nat) : Except DomainError CreationRequest := do
  let request : CreationRequest := {
    operation
    attempt
    owner
    correlation := creationCorrelation operation attempt
    record
    expectedKeyOcc
    expectedParentOcc := parent.occVersion
    parentSpec := parent.keySpec
    contextBytes := [] }
  let contextBytes ← mapErr (request.context.bind fun context =>
    mapErr context.canonicalBytes fun e => KeyRackError.other e.message) DomainError.core
  return { request with contextBytes }

/-- Propose the record's next version, wrapped under the parent's current one. -/
def journaledVersion (owner : CreationOwner) (providerName : ProviderRef) (entry : ProviderEntry)
    (profile : WrappingProfile) (parent record : KeyRecord) (expectedKeyOcc : Option Nat) :
    Hierarchy CreationRequest := do
  let primary ← liftM (okOr parent.primaryVersion
    (DomainError.failedPrecondition "parent has no primary version"))
  let handle ← liftM (mapErr primary.residentHandle DomainError.core)
  let versionNumber ← liftM (nextVersionNumber record)
  let operation ← Hierarchy.call .newUuid
  let attempt ← Hierarchy.call .newUuid
  let material ← liftM (wrappedMaterial providerName profile parent operation)
  let createdAt ← versionTime record expectedKeyOcc
  let record ← liftM (proposeVersion record expectedKeyOcc versionNumber material createdAt)
  let request ← liftM (requestFor operation attempt owner record parent expectedKeyOcc)
  let adapter ← Hierarchy.call (.wrappingCreationProvider entry handle)
  liftM (mapErr adapter fun e => DomainError.cannotWrap providerName e)
  return request

/-- `A2CreationDriver::run`. -/
def runDriver (request : CreationRequest) : Hierarchy CreationProgress := do
  liftM (mapErr request.validate DomainError.core)
  let outcome ← ExceptT.lift ((drive request).run.embed HierarchyCall.driver fun _ reply => reply)
  liftM (mapErr outcome DomainError.core)

def createWrappedChild (state : ServiceState) (owner : CreationOwner) (providerName : ProviderRef)
    (entry : ProviderEntry) (proposal : ChildProposal) : Hierarchy KeyRecord := do
  let parentLid ← liftM (okOr proposal.record.parentLid
    (DomainError.internal "child proposal without a parent"))
  liftM (refuseUnwrappableChild proposal.record)
  let profile ← liftM (requireProfile state providerName)
  let parent ← liftM (mapErr (← Hierarchy.call (.getKey parentLid)) DomainError.core)
  liftM (refuseUnwrappableParent parent)
  let parentProvider ← liftM (parentProviderRef parent)
  liftM (refuseCrossDomain providerName parentProvider)
  let record := { proposal.record with
    providerRef := some providerName
    providerClass := entry.providerClass
    keyVersions := [] }
  let request ← journaledVersion owner providerName entry profile parent record none
  match ← runDriver request with
  | .committed record => return record
  | .pending reason => throw (.providerUnavailable ("child creation is unresolved (" ++
      reason.debug ++ "); it requires reconciliation and must not be assumed to have failed"))

/-- `create_key` with a parent, on the record that the handler has built. -/
def createChild (state : ServiceState) (owner : CreationOwner) (providerName : ProviderRef)
    (entry : ProviderEntry) (record : KeyRecord) (parentLid : Lid) : Hierarchy KeyRecord := do
  enforceNoChildUnderExportableParent parentLid
  let proposal ← liftM (ChildProposal.new record)
  createWrappedChild state owner providerName entry proposal

/-! ### Requests about parents -/

/-- The calls of the requests that make a key exportable, and of those that create a
    child. -/
inductive LeafCall where
  | exporting (c : ServiceCall ExportCall)
  | creating (c : HierarchyCall)

@[reducible] def LeafCall.Reply : LeafCall → Type
  | .exporting c => ServiceCall.Reply ExportCall.Reply c
  | .creating c => c.Reply

abbrev LeafProg : Type → Type := Prog LeafCall LeafCall.Reply

def exportRequest (principal : Principal) (requestId keyId : String) : LeafProg Unit := do
  let _ ← (makeKeyExportable principal requestId keyId).run.embed LeafCall.exporting fun _ r => r
  return ()

def childRequest (state : ServiceState) (owner : CreationOwner) (providerName : ProviderRef)
    (entry : ProviderEntry) (record : KeyRecord) (parentLid : Lid) : LeafProg Unit := do
  let _ ← (createChild state owner providerName entry record parentLid).run.embed
    LeafCall.creating fun _ r => r
  return ()

/-- Calls that leave the tables alone, answered with anything. -/
def HierarchyCall.elsewhere : HierarchyCall → Bool
  | .newUuid | .now | .wrappingCreationProvider _ _ => true
  | .getKey _ | .driver _ => false

inductive HierarchyCall.Answers (db : Db) : (c : HierarchyCall) → c.Reply → Db → Prop where
  | getKey (lid : Lid) (reply : Except KeyRackError KeyRecord)
      (read : ReadAttempt (Sqlite.getKey db lid) reply) : Answers db (.getKey lid) reply db
  | driver (c : DriverCall) (reply : c.Reply) (db' : Db) (answered : c.Answers db reply db') :
      Answers db (.driver c) reply db'
  | elsewhere (c : HierarchyCall) (reply : c.Reply) (other : c.elsewhere = true) :
      Answers db c reply db

/-- What others may do meanwhile: create no key, and change no key's parent or
    exportability nor the creation journal. -/
structure KeepsHierarchy (db db' : Db) : Prop where
  keys : ∀ lid row', db'.keys.get? lid = some row' → ∃ row, db.keys.get? lid = some row ∧
    row'.record.parentLid = row.record.parentLid ∧
    row'.record.exportability = row.record.exportability
  creationJournal : db'.creationJournal = db.creationJournal

/-- Any number of requests that make keys exportable or create children. -/
def leafRules (ι : Type) : Rules Db ι LeafCall LeafCall.Reply Unit Sqlite.Event where
  starts p :=
    (∃ principal requestId keyId lid, parseLid keyId = .ok lid ∧
      p = exportRequest principal requestId keyId) ∨
    ∃ state owner providerName entry record parentLid, record.parentLid = some parentLid ∧
      p = childRequest state owner providerName entry record parentLid
  answers db _ c := match c with
    | .exporting c => fun reply db' => exportAnswers db c reply db'
    | .creating c => fun reply db' => c.Answers db reply db'
  drops db _ _ db' := db' = db
  environment db event db' := StorageStep db event db' ∧ KeepsHierarchy db db'

end Service
end KeyRack
