import KeyRack.Core.Error
import KeyRack.Lib.Stateful

/-!
# Creation requests and the creation journal

A creation request is the immutable intent of one wrapped key version; its
journal records the dispatch decision, the staged envelope's digest, the
provider's closure and the published record. JSON documents are represented by
the values they encode: encoding is injective and fails only on a wrapped
version numbered zero.
-/
namespace KeyRack

open Fallible Stateful

def maxCreationEnvelopeBytes : Nat := 65536

def invalid (message : String) : KeyRackError := .storage ("A2 creation: " ++ message)

/-- Stable recovery identity. -/
def creationCorrelation [UuidText] (operation attempt : Uuid) : String :=
  "kr-a2-" ++ UuidText.display operation ++ "-" ++ UuidText.display attempt

/-- A process incarnation and its fencing generation. -/
structure CreationOwner where
  «instance» : Uuid
  generation : Nat
  deriving DecidableEq, Repr

/-- Immutable intent: `record` is the proposed committed snapshot. -/
structure CreationRequest where
  operation : Uuid
  attempt : Uuid
  owner : CreationOwner
  correlation : String
  record : KeyRecord
  expectedKeyOcc : Option Nat
  expectedParentOcc : Nat
  parentSpec : KeySpec
  contextBytes : Bytes
  deriving DecidableEq

/-- The JSON bytes of a request, as the retry fingerprint reads them. -/
class IntentEncoding where
  encode : CreationRequest → Bytes

/-- Values that are stored or compared as JSON documents, and whether `serde_json`
    accepts them. -/
class JsonDocument (α : Type) where
  serializable : α → Bool

export JsonDocument (serializable)

instance : JsonDocument KeyVersionRecord where
  serializable version := version.material.wrapped?.isNone || version.versionNumber != 0

instance {α : Type} [JsonDocument α] : JsonDocument (List α) where
  serializable items := items.all serializable

instance : JsonDocument KeyRecord where
  serializable record := serializable record.keyVersions

def sameJson {α : Type} [JsonDocument α] [DecidableEq α] (left right : α) :
    Except KeyRackError Bool := do
  refuseIf (serializable left = false) (invalid "serialization failed")
  refuseIf (serializable right = false) (invalid "serialization failed")
  return left == right

@[simp] theorem sameJson_eq_ok {α : Type} [JsonDocument α] [DecidableEq α] {left right : α}
    {same : Bool} :
    sameJson left right = .ok same ↔
      serializable left = true ∧ serializable right = true ∧ same = (left == right) := by
  simp only [sameJson, eq_ok, Bool.not_eq_false]
  constructor
  · rintro ⟨_, l, _, r, rfl⟩
    exact ⟨l, r, rfl⟩
  · rintro ⟨l, r, rfl⟩
    exact ⟨(), l, (), r, rfl⟩

/-- A comparison that was not refused found equal documents. -/
theorem eq_of_sameJson {α : Type} [JsonDocument α] [DecidableEq α] {left right : α} {same : Bool}
    (compared : sameJson left right = .ok same) (accepted : ¬same = false) : left = right := by
  obtain ⟨_, _, rfl⟩ := sameJson_eq_ok.mp compared
  simpa using accepted

def KeyRecord.primaryVersion (record : KeyRecord) : Option KeyVersionRecord :=
  record.getVersion record.currentKeyVersion

/-- Each version is numbered from 1, once, and primary exactly when current. -/
def checkHistory (current : Nat) : List KeyVersionRecord → List Nat → Except KeyRackError Unit
  | [], _ => .ok ()
  | version :: rest, seen => do
    refuseIf (version.versionNumber = 0 ∨ version.versionNumber ∈ seen ∨
        version.isPrimary ≠ (version.versionNumber == current))
      (invalid "invalid version history")
    checkHistory current rest (version.versionNumber :: seen)

namespace CreationRequest

def material (request : CreationRequest) : Except KeyRackError ParentWrappedMaterial := do
  let version ← okOr request.record.primaryVersion (invalid "missing proposed version")
  match version.material with
  | .parentWrapped material => .ok material
  | .providerResident _ _ => .error (invalid "proposed version is not wrapped")

def child (request : CreationRequest) : Except KeyRackError VersionedKeyId :=
  mapErr (VersionedKeyId.new request.record.lid request.record.currentKeyVersion)
    fun _ => invalid "zero child version"

def context (request : CreationRequest) : Except KeyRackError WrappingContext := do
  let material ← request.material
  let child ← request.child
  return {
    version := material.wrappingContextVersion
    child
    parent := material.parent
    parentSpec := request.parentSpec
    childSpec := request.record.keySpec
    keyFormat := material.keyFormat
    purpose := .encryptDecrypt
    providerRef := material.providerRef
    securityDomain := material.securityDomain
    mechanism := material.mechanism
    publicMaterialSha256 := none }

/-- The proposed record's own fields rule the creation out. -/
def unsupported (request : CreationRequest) (material : ParentWrappedMaterial) : Bool :=
  let record := request.record
  record.state != .enabled || record.hasCompromiseHistory ||
    record.exportability != .nonExportable || record.firstExportedAt.isSome ||
    record.scheduledDeletionAt.isSome || record.keyUsage != .encryptDecrypt ||
    !record.keySpec.isAes || record.lid == material.parent.lid ||
    record.parentLid != some material.parent.lid || record.occVersion == 0 ||
    -- the counters are stored in signed columns
    decide (record.occVersion > i64Max) || decide (request.expectedParentOcc > i64Max) ||
    request.expectedKeyOcc.any fun occ => decide (occ ≥ i64Max)

variable [UuidText]

def validate (request : CreationRequest) : Except KeyRackError Unit := do
  refuseIf (request.operation.isNil ∨ request.attempt.isNil ∨ request.owner.instance.isNil ∨
      request.owner.generation = 0 ∨ request.owner.generation > i64Max)
    (invalid "invalid operation or owner identity")
  let _ ← mapErr (WrappingIdentifier.new request.correlation) fun _ => invalid "invalid correlation"
  refuseIf (request.correlation ≠ creationCorrelation request.operation request.attempt)
    (invalid "correlation must bind operation and attempt")
  let material ← request.material
  refuseIf (request.unsupported material) (invalid "unsupported creation record")
  checkHistory request.record.currentKeyVersion request.record.keyVersions []
  let context ← request.context
  let expected ← mapErr context.canonicalBytes fun _ => invalid "invalid context"
  refuseIf (request.contextBytes ≠ expected) (invalid "context does not match proposed material")

/-- Stable equality fingerprint for storage retries. -/
def fingerprint [Blake3] [IntentEncoding] (request : CreationRequest) :
    Except KeyRackError Digest := do
  request.validate
  refuseIf (serializable request.record = false) (invalid "intent serialization failed")
  return Blake3.hash (IntentEncoding.encode request)

/-- The version after the highest one in the history. -/
def nextVersion (current : KeyRecord) : Except KeyRackError Nat :=
  okOr (checkedSucc ((current.keyVersions.map (·.versionNumber)).foldl max 0))
    (invalid "version overflow")

/-- What publishing `request` makes of the current record. -/
def proposed (request : CreationRequest) (current : KeyRecord) (occVersion nextVersion : Nat)
    (version : KeyVersionRecord) : KeyRecord :=
  { current with
    occVersion
    currentKeyVersion := nextVersion
    updatedAt := request.record.updatedAt
    keyVersions :=
      (current.keyVersions.map fun old => { old with isPrimary := false }) ++ [version] }

/-- The child's side of `validateRecords`: a fresh key, or the next version of
    the exact record that was read. -/
def validateChild (request : CreationRequest) (current : Option KeyRecord) :
    Except KeyRackError Unit :=
  match request.expectedKeyOcc, current with
  | none, none =>
    refuseIf (¬(request.record.occVersion = 1 ∧ request.record.currentKeyVersion = 1 ∧
        request.record.keyVersions.length = 1))
      (invalid "child reservation or OCC conflict")
  | some expected, some current => do
    refuseIf (current.occVersion ≠ expected) (invalid "child reservation or OCC conflict")
    let next ← nextVersion current
    refuseIf (request.record.currentKeyVersion ≠ next ∨ current.state ≠ .enabled ∨
        current.hasCompromiseHistory)
      (invalid "invalid new version")
    let occVersion ← okOr (checkedSucc expected) (invalid "OCC overflow")
    let version ← okOr request.record.primaryVersion (invalid "missing version")
    -- apart from the new version the proposal is the record that was read
    let same ← sameJson (request.proposed current occVersion next version) request.record
    refuseIf (same = false) (invalid "creation changes unrelated key fields or history")
  | _, _ => .error (invalid "child reservation or OCC conflict")

/-- The parent's own material is resident, with the provider and specification
    the request names. -/
def validateResident (request : CreationRequest) (material : ParentWrappedMaterial) :
    KeyMaterial → Except KeyRackError Unit
  | .providerResident keyHandle (some provider) =>
    refuseIf (provider ≠ material.providerRef ∨ keyHandle.keySpec ≠ request.parentSpec)
      (invalid "parent binding mismatch")
  | _ => .error (invalid "requires explicitly bound resident parent")

/-- Rechecked inside reservation and publication transactions. -/
def validateRecords (request : CreationRequest) (current : Option KeyRecord)
    (parent : KeyRecord) : Except KeyRackError Unit := do
  request.validate
  let material ← request.material
  refuseIf (parent.lid ≠ material.parent.lid ∨ parent.occVersion ≠ request.expectedParentOcc ∨
      parent.state ≠ .enabled ∨ parent.hasCompromiseHistory ∨ parent.scheduledDeletionAt.isSome ∨
      parent.keySpec ≠ request.parentSpec)
    (invalid "parent snapshot is no longer eligible")
  -- a new version is wrapped under what the parent encrypts with now
  refuseIf (material.parent.version ≠ parent.currentKeyVersion)
    (invalid "new version must wrap under the parent's current version")
  let parentVersion ← okOr (parent.getVersion material.parent.version)
    (invalid "parent version missing")
  request.validateResident material parentVersion.material
  request.validateChild current

end CreationRequest

inductive CreationPhase where
  | reserved
  | staged
  | resolved
  | committed
  deriving DecidableEq, Repr

/-- The journal revision of each phase. -/
def CreationPhase.revision : CreationPhase → Nat
  | .reserved => 1
  | .staged => 2
  | .resolved => 3
  | .committed => 4

inductive A2ClosureFact where
  | sessionClosed (session : String)
  | temporaryObjectDestroyed (object : String)
  deriving DecidableEq, Repr

structure A2ClosureClaim where
  intentFingerprint : Digest
  envelopeDigest : Digest
  fact : A2ClosureFact
  deriving DecidableEq, Repr

section
variable [UuidText] [Blake3] [IntentEncoding]

def A2ClosureClaim.validateFor (claim : A2ClosureClaim) (request : CreationRequest) :
    Except KeyRackError Unit := do
  let fingerprint ← request.fingerprint
  refuseIf (claim.intentFingerprint ≠ fingerprint) (invalid "closure target mismatch")
  let target := match claim.fact with
    | .sessionClosed session => session
    | .temporaryObjectDestroyed object => object
  let _ ← mapErr (WrappingIdentifier.new target) fun _ => invalid "invalid closure target"
  return ()

/-- The checks of `VerifiedA2Closure::verify` up to the provider's own verdict. -/
def A2ClosureClaim.verify (claim : A2ClosureClaim) (request : CreationRequest) (envelope : Bytes)
    (verifier : CreationRequest → A2ClosureClaim → Except KeyRackError Unit) :
    Except KeyRackError Unit := do
  claim.validateFor request
  refuseIf (envelope = [] ∨ envelope.length > maxCreationEnvelopeBytes ∨
      claim.envelopeDigest ≠ Blake3.hash envelope)
    (invalid "closure envelope mismatch")
  verifier request claim

/-- A claim some verifier accepted: the only way to obtain one is `verify`. -/
structure VerifiedA2Closure where
  claim : A2ClosureClaim
  verified : ∃ request envelope verifier, claim.verify request envelope verifier = .ok ()

/-- The closure of a claim that passed. -/
def VerifiedA2Closure.verify (request : CreationRequest) (envelope : Bytes)
    (claim : A2ClosureClaim)
    (verifier : CreationRequest → A2ClosureClaim → Except KeyRackError Unit) :
    Except KeyRackError VerifiedA2Closure :=
  match verified : claim.verify request envelope verifier with
  | .ok () => .ok ⟨claim, request, envelope, verifier, verified⟩
  | .error e => .error e

structure CreationJournal where
  request : CreationRequest
  dispatchStarted : Bool
  revision : Nat
  phase : CreationPhase
  envelopeDigest : Option Digest
  closure : Option A2ClosureClaim
  committedRecord : Option KeyRecord
  deriving DecidableEq

namespace CreationJournal

def reserved (request : CreationRequest) : Except KeyRackError CreationJournal := do
  request.validate
  return ⟨request, false, 1, .reserved, none, none, none⟩

/-- The phase fixes the revision and which of the other fields are present. -/
def inconsistent (journal : CreationJournal) : Bool :=
  journal.revision != journal.phase.revision ||
    (journal.phase != .reserved && !journal.dispatchStarted) ||
    journal.envelopeDigest.isSome != (journal.phase != .reserved) ||
    journal.closure.isSome != (journal.phase == .resolved || journal.phase == .committed) ||
    journal.committedRecord.isSome != (journal.phase == .committed)

/-- A recorded closure is one of this request and of the staged bytes. -/
def validateClosure (journal : CreationJournal) : Except KeyRackError Unit :=
  match journal.closure with
  | some claim => do
    claim.validateFor journal.request
    refuseIf (some claim.envelopeDigest ≠ journal.envelopeDigest)
      (invalid "closure does not bind staged envelope")
  | none => .ok ()

def validateCommitted (journal : CreationJournal) : Except KeyRackError Unit :=
  match journal.committedRecord with
  | some record => do
    let same ← sameJson record journal.request.record
    refuseIf (same = false) (invalid "persisted result mismatch")
  | none => .ok ()

def validate (journal : CreationJournal) : Except KeyRackError Unit := do
  journal.request.validate
  refuseIf journal.inconsistent (invalid "inconsistent journal")
  journal.validateClosure
  journal.validateCommitted

def fence (journal : CreationJournal) (owner : CreationOwner) (expectedRevision : Nat) :
    Except KeyRackError Unit := do
  journal.validate
  refuseIf (journal.request.owner ≠ owner ∨ journal.revision ≠ expectedRevision)
    (invalid "stale creation owner or revision")

/-- Decide the one dispatch of this journal; an identical retry is not another. -/
def claimDispatch (owner : CreationOwner) : EStateM KeyRackError CreationJournal Bool := do
  let journal ← get
  check journal.validate
  check (refuseIf (owner ≠ journal.request.owner) (invalid "stale creation owner"))
  if journal.dispatchStarted then
    return false
  else
    check (refuseIf (journal.phase ≠ .reserved) (invalid "creation is not reserved"))
    set { journal with dispatchStarted := true }
    return true

def stage (owner : CreationOwner) (expectedRevision : Nat) (envelope : Bytes) :
    EStateM KeyRackError CreationJournal Unit := do
  let journal ← get
  check journal.validate
  check (refuseIf (journal.dispatchStarted = false) (invalid "provider dispatch was not claimed"))
  check (refuseIf (envelope = [] ∨ envelope.length > maxCreationEnvelopeBytes)
    (invalid "invalid envelope length"))
  let digest := Blake3.hash envelope
  -- a retry of the staging that was recorded, at the revision it started from or reached
  if journal.request.owner = owner ∧ journal.envelopeDigest = some digest ∧
      (expectedRevision = 1 ∨ expectedRevision = journal.revision) then
    return ()
  else
    check (journal.fence owner expectedRevision)
    check (refuseIf (journal.phase ≠ .reserved) (invalid "envelope is immutable"))
    set { journal with envelopeDigest := some digest, phase := .staged, revision := 2 }

def resolve (owner : CreationOwner) (expectedRevision : Nat) (closure : VerifiedA2Closure) :
    EStateM KeyRackError CreationJournal Unit := do
  let journal ← get
  check journal.validate
  let fingerprint ← check journal.request.fingerprint
  check (refuseIf (closure.claim.intentFingerprint ≠ fingerprint ∨
      some closure.claim.envelopeDigest ≠ journal.envelopeDigest)
    (invalid "closure target mismatch"))
  -- a retry of the resolution that was recorded
  if journal.request.owner = owner ∧ journal.closure = some closure.claim ∧
      (expectedRevision = 2 ∨ expectedRevision = journal.revision) then
    return ()
  else
    check (journal.fence owner expectedRevision)
    check (refuseIf (journal.phase ≠ .staged) (invalid "envelope must be staged before closure"))
    set { journal with closure := some closure.claim, phase := .resolved, revision := 3 }

def publication (owner : CreationOwner) (expectedRevision : Nat) (current : Option KeyRecord)
    (parent : KeyRecord) : EStateM KeyRackError CreationJournal KeyRecord := do
  let journal ← get
  check (journal.fence owner expectedRevision)
  check (refuseIf (journal.phase ≠ .resolved) (invalid "creation is not resolved"))
  check (journal.request.validateRecords current parent)
  let record := journal.request.record
  set { journal with committedRecord := some record, phase := .committed, revision := 4 }
  return record

/-- A lost-response retry returns the original result. -/
def committedRetry (journal : CreationJournal) (owner : CreationOwner) (expectedRevision : Nat) :
    Except KeyRackError (Option KeyRecord) := do
  journal.validate
  refuseIf (journal.request.owner ≠ owner) (invalid "stale creation owner")
  if journal.phase = .committed then
    -- the revision publication started from, or the one it reached
    refuseIf (expectedRevision ≠ 3 ∧ expectedRevision ≠ 4) (invalid "stale publication revision")
    return journal.committedRecord
  else
    return none

/-- Whether this entry may be withdrawn without anything being owed. -/
def withdrawable (journal : CreationJournal) : Except KeyRackError Unit := do
  journal.validate
  match journal.phase with
  | .reserved =>
    refuseIf journal.dispatchStarted (invalid "creation may have an unclosed provider effect")
  -- the closure is on record, so the provider holds nothing
  | .resolved => .ok ()
  | .staged => .error (invalid "creation may have an unclosed provider effect")
  | .committed => .error (invalid "creation is committed")

end CreationJournal

/-- Storage reads validate both the bounded bytes and their journal binding. -/
def validateEnvelope (journal : CreationJournal) (bytes : Bytes) : Except KeyRackError Unit := do
  journal.validate
  refuseIf (bytes = [] ∨ bytes.length > maxCreationEnvelopeBytes ∨
      journal.envelopeDigest ≠ some (Blake3.hash bytes))
    (invalid "envelope/journal mismatch")

/-- Internal recovery snapshot. -/
structure CreationSnapshot where
  journal : CreationJournal
  envelope : Option Bytes
  deriving DecidableEq

def CreationSnapshot.new (journal : CreationJournal) (envelope : Option Bytes)
    (owner : CreationOwner) : Except KeyRackError CreationSnapshot := do
  journal.validate
  refuseIf (journal.request.owner ≠ owner) (invalid "stale creation owner")
  match envelope, journal.phase with
  | none, .reserved => return ⟨journal, envelope⟩
  | none, _ => .error (invalid "snapshot envelope phase mismatch")
  | some _, .reserved => .error (invalid "snapshot envelope phase mismatch")
  | some bytes, _ => do
    validateEnvelope journal bytes
    return ⟨journal, envelope⟩

end

/-- Guard for a key referenced by a pending or committed edge: state changes are
    free, destruction and replacement of version material are not. -/
def guardReferencedParent (previous next : KeyRecord) : Except KeyRackError Unit := do
  refuseIf (next.state = .destroyed ∨ next.keySpec ≠ previous.keySpec ∨
      next.providerRef ≠ previous.providerRef)
    (invalid "parent is referenced by a creation or envelope")
  checkAll previous.keyVersions fun old => do
    let new ← okOr (next.getVersion old.versionNumber) (invalid "referenced parent version removed")
    refuseIf (old.material ≠ new.material) (invalid "referenced parent material changed")

end KeyRack
