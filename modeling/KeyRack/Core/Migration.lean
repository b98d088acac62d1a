import KeyRack.Core.Creation

/-!
# Wrapped-key migration

Atomic replacement of every wrapped version of one logical key. A request holds
full snapshots of the child and both parents and the proposed child record; its
validation recomputes the proposal. The journal tracks ownership, dispatch, the
staged digests and the terminal result.
-/
namespace KeyRack

open Fallible

def migrationInvalid (message : String) : KeyRackError :=
  .storage ("wrapped-key migration: " ++ message)

def migrationBusy : KeyRackError :=
  .providerUnavailable "key participates in an in-flight migration; retry the operation"

/-- Optional caller assertions, immutable intent including their presence. -/
structure MigrationConditions where
  expectedChildOcc : Option Nat
  expectedOldParentOcc : Option Nat
  expectedNewParentOcc : Option Nat
  expectedOldParent : Option Lid
  coveredVersions : Option (List Nat)
  deriving DecidableEq

def sortVersions (versions : List Nat) : List Nat := versions.insertionSort (· ≤ ·)

/-- `sort` followed by `dedup`. -/
def versionSet (versions : List Nat) : List Nat := (sortVersions versions).destutter (· ≠ ·)

/-- `windows(2).any(|v| v[0] == v[1])`. -/
def repeats : List Nat → Bool
  | a :: b :: rest => a == b || repeats (b :: rest)
  | _ => false

def MigrationConditions.canonicalize (conditions : MigrationConditions) :
    Except KeyRackError MigrationConditions :=
  match conditions.coveredVersions with
  | none => .ok conditions
  | some versions => do
    let versions := sortVersions versions
    -- sorted, so only the first can be zero and repetitions are adjacent
    refuseIf (versions = [] ∨ versions.head? = some 0 ∨ repeats versions)
      (migrationInvalid "covered_versions must be a nonempty set of nonzero versions")
    return { conditions with coveredVersions := some versions }

structure MigrationRequest where
  operation : Uuid
  requestedParent : Option Lid
  conditions : MigrationConditions
  child : KeyRecord
  oldParent : KeyRecord
  newParent : KeyRecord
  proposed : KeyRecord
  deriving DecidableEq

instance : JsonDocument MigrationRequest where
  serializable request := serializable request.child && serializable request.oldParent &&
    serializable request.newParent && serializable request.proposed

/-- Explicit version binding. -/
def KeyVersionRecord.providerRef (version : KeyVersionRecord) : Option ProviderRef :=
  match version.material with
  | .providerResident _ providerRef => providerRef
  | .parentWrapped material => some material.providerRef

/-- The wrapped description, or the given refusal. -/
def KeyMaterial.requireWrapped (material : KeyMaterial) (message : String) :
    Except KeyRackError ParentWrappedMaterial := okOr material.wrapped? (migrationInvalid message)

def wrapped (material : KeyMaterial) : Except KeyRackError ParentWrappedMaterial :=
  material.requireWrapped "resident child version"

namespace MigrationRequest

/-- Some caller condition does not match the snapshots. -/
def conditionsMismatch (request : MigrationRequest) : Bool :=
  let covered := sortVersions (request.child.keyVersions.map (·.versionNumber))
  let conditions := request.conditions
  (conditions.expectedChildOcc.any fun v => v != request.child.occVersion) ||
    (conditions.expectedOldParentOcc.any fun v => v != request.oldParent.occVersion) ||
    (conditions.expectedNewParentOcc.any fun v => v != request.newParent.occVersion) ||
    (conditions.expectedOldParent.any fun v => v != request.oldParent.lid) ||
    conditions.coveredVersions.any fun v => v != covered

/-- The identities or the child's own state rule the migration out. -/
def ineligibleChild (request : MigrationRequest) : Bool :=
  let child := request.child
  request.operation.isNil || child.occVersion == 0 || decide (child.occVersion ≥ i64Max) ||
    child.keyVersions.isEmpty || child.parentLid != some request.oldParent.lid ||
    child.lid == request.oldParent.lid || child.lid == request.newParent.lid ||
    request.requestedParent.getD request.oldParent.lid != request.newParent.lid ||
    child.state != .enabled || child.scheduledDeletionAt.isSome || child.hasCompromiseHistory ||
    child.exportability != .nonExportable

def ineligibleParent (parent : KeyRecord) : Bool :=
  parent.parentLid.isSome || parent.hasCompromiseHistory || parent.state != .enabled ||
    parent.scheduledDeletionAt.isSome || parent.exportability != .nonExportable ||
    parent.firstExportedAt.isSome || !parent.keySpec.isAes || parent.keyVersions.isEmpty ||
    parent.keyVersions.any fun version => version.material.wrapped?.isSome

variable [UuidText]

/-- The storage reference of one migrated version. -/
def envelopeReference (operation : Uuid) (version : Nat) : String :=
  "migration:" ++ UuidText.display operation ++ ":" ++ toString version

/-- Rewrap the child's versions in order under the new parent; the second result
    is the list of numbers seen. -/
def rewrapVersions (request : MigrationRequest) (target : KeyVersionRecord) :
    List KeyVersionRecord → List Nat → Except KeyRackError (List KeyVersionRecord × List Nat)
  | [], seen => .ok ([], seen)
  | version :: rest, seen => do
    refuseIf (version.versionNumber = 0 ∨ version.versionNumber ∈ seen ∨
        version.isPrimary ≠ (version.versionNumber == request.child.currentKeyVersion))
      (migrationInvalid "invalid child version history")
    let material ← version.material.requireWrapped "every child version must be wrapped"
    let source ← okOr (request.oldParent.getVersion material.parent.version)
      (migrationInvalid "missing source parent version")
    refuseIf (material.parent.lid ≠ request.oldParent.lid ∨
        source.providerRef ≠ some material.providerRef ∨
        target.providerRef ≠ some material.providerRef)
      (migrationInvalid "cross-provider migration is not implemented")
    let parent ← mapErr (VersionedKeyId.new request.newParent.lid
      request.newParent.currentKeyVersion) fun _ => migrationInvalid "zero parent version"
    let reference ← mapErr (WrappingIdentifier.new
      (envelopeReference request.operation version.versionNumber))
      fun _ => migrationInvalid "invalid envelope reference"
    let replacement := { material with parent, wrappedMaterialRef := reference }
    let (rest, seen) ← request.rewrapVersions target rest (version.versionNumber :: seen)
    return ({ version with material := .parentWrapped replacement } :: rest, seen)

/-- All versions share the first one's provider, domain and mechanism. -/
def validateProfile (request : MigrationRequest) : Except KeyRackError Unit := do
  -- the history was checked to be nonempty
  let first ← okOr request.child.keyVersions.head? (migrationInvalid "resident child version")
  let first ← wrapped first.material
  checkAll request.child.keyVersions fun version => do
    let material ← wrapped version.material
    refuseIf (material.providerRef ≠ first.providerRef ∨
        material.securityDomain ≠ first.securityDomain ∨ material.mechanism ≠ first.mechanism)
      (migrationInvalid "cross-domain migration is not implemented")

def validate (request : MigrationRequest) : Except KeyRackError Unit := do
  let conditions ← request.conditions.canonicalize
  refuseIf (conditions ≠ request.conditions) (migrationInvalid "noncanonical migration conditions")
  refuseIf request.conditionsMismatch
    (migrationInvalid "caller migration conditions do not match the reserved snapshots")
  refuseIf request.ineligibleChild (migrationInvalid "invalid migration identity or child state")
  refuseIf (ineligibleParent request.oldParent ∨ ineligibleParent request.newParent)
    (migrationInvalid "parent must be an enabled, resident, non-exportable wrapping key")
  let target ← okOr request.newParent.primaryVersion (migrationInvalid "missing target primary")
  let (keyVersions, seen) ← request.rewrapVersions target request.child.keyVersions []
  let expected := { request.child with
    parentLid := some request.newParent.lid
    occVersion := request.child.occVersion + 1
    updatedAt := request.proposed.updatedAt
    keyVersions }
  -- the update time is the caller's; every other field of the proposal is determined
  refuseIf (request.child.currentKeyVersion ∉ seen)
    (migrationInvalid "proposal changes unrelated fields or omits a version")
  let same ← sameJson expected request.proposed
  refuseIf (same = false)
    (migrationInvalid "proposal changes unrelated fields or omits a version")
  request.validateProfile

/-- Ignore only the proposal timestamp when identical requests reserve. -/
def sameIntent (request other : MigrationRequest) : Except KeyRackError Bool :=
  sameJson request
    { other with proposed := { other.proposed with updatedAt := request.proposed.updatedAt } }

def validateSnapshots (request : MigrationRequest) (child old new : KeyRecord) :
    Except KeyRackError Unit := do
  request.validate
  checkAll [(request.child, child), (request.oldParent, old), (request.newParent, new)]
    fun (expected, actual) => do
      let same ← sameJson expected actual
      refuseIf (same = false) migrationBusy

end MigrationRequest

inductive MigrationPhase where
  | reserved
  | staged
  | committed
  deriving DecidableEq, Repr

structure MigrationOwnership where
  owner : Uuid
  epoch : Nat
  deriving DecidableEq, Repr

structure MigrationDispatch where
  epoch : Nat
  retrySafe : Bool
  deriving DecidableEq, Repr

structure MigrationVersionResult where
  version : Nat
  oldParentVersion : Nat
  newParentVersion : Nat
  oldEnvelopeDigest : String
  newEnvelopeDigest : String
  oldReference : String
  newReference : String
  deriving DecidableEq, Repr

structure MigrationResult where
  operationId : Uuid
  child : Lid
  oldParent : Lid
  oldParentVersions : List Nat
  newParent : Lid
  newParentVersion : Nat
  digestAlgorithm : String
  versions : List MigrationVersionResult
  deriving DecidableEq, Repr

structure MigrationJournal where
  owner : Option Uuid
  epoch : Nat
  dispatch : Option MigrationDispatch
  result : Option MigrationResult
  request : MigrationRequest
  phase : MigrationPhase
  envelopeDigests : List Digest
  deriving DecidableEq

/-- Lower-case hexadecimal text of a digest. -/
def digestHex (digest : Digest) : String :=
  String.ofList (digest.toList.flatMap fun byte => (toHex 2 byte.toNat).reverse)

def boundedEnvelope (bytes : Bytes) : Bool :=
  !bytes.isEmpty && decide (bytes.length ≤ maxCreationEnvelopeBytes)

namespace MigrationJournal

def reserved (request : MigrationRequest) : MigrationJournal where
  owner := none
  epoch := 0
  dispatch := none
  result := none
  request
  phase := .reserved
  envelopeDigests := []

def ownership (journal : MigrationJournal) : Except KeyRackError MigrationOwnership := do
  let owner ← okOr journal.owner (migrationInvalid "migration has no owner")
  return ⟨owner, journal.epoch⟩

def requireOwner (journal : MigrationJournal) (ownership : MigrationOwnership) :
    Except KeyRackError Unit :=
  refuseIf (ownership.owner.isNil ∨ journal.owner ≠ some ownership.owner ∨
    ownership.epoch ≠ journal.epoch ∨ journal.epoch = 0) migrationBusy

def claim (journal : MigrationJournal) (owner : Uuid) (expectedEpoch : Nat) :
    Except KeyRackError MigrationJournal := do
  -- compare and set on the epoch: of two takeovers one finds it moved
  refuseIf (owner.isNil ∨ journal.epoch ≠ expectedEpoch) migrationBusy
  refuseIf (journal.phase = .committed)
    (migrationInvalid "committed migration cannot be taken over")
  let epoch ← okOr (checkedSucc journal.epoch) (migrationInvalid "ownership epoch exhausted")
  return { journal with epoch, owner := some owner }

def beginDispatch (journal : MigrationJournal) (ownership : MigrationOwnership)
    (retrySafe : Bool) : Except KeyRackError MigrationJournal := do
  journal.requireOwner ownership
  refuseIf (journal.phase ≠ .reserved)
    (migrationInvalid "provider dispatch requires a reserved migration")
  -- an earlier dispatch that may not be repeated has an unknown outcome
  refuseIf (journal.dispatch.any fun dispatch => !dispatch.retrySafe)
    (.providerUnavailable
      "unknown migration provider outcome requires reconciliation; reservation retained")
  return { journal with dispatch := some ⟨ownership.epoch, retrySafe⟩ }

def recordEnvelopeDigests [Blake3] (journal : MigrationJournal) (envelopes : List Bytes) :
    MigrationJournal :=
  { journal with envelopeDigests := envelopes.map Blake3.hash }

def verifyEnvelope [Blake3] (journal : MigrationJournal) (version : Nat) (envelope : Bytes) :
    Except KeyRackError Unit := do
  -- digests are recorded by position in the proposed history
  let index ← okOr (journal.request.proposed.keyVersions.findIdx?
    fun v => v.versionNumber == version) (migrationInvalid "unknown envelope version")
  refuseIf (boundedEnvelope envelope = false ∨
      journal.envelopeDigests[index]? ≠ some (Blake3.hash envelope))
    (migrationInvalid "staged envelope binding mismatch")

def validateEnvelopes (journal : MigrationJournal) (envelopes : List Bytes) :
    Except KeyRackError Unit :=
  refuseIf (envelopes.length ≠ journal.request.child.keyVersions.length ∨
      envelopes.any fun bytes => !boundedEnvelope bytes)
    (migrationInvalid "requires one bounded envelope per version")

/-- The entries of a terminal result, version by version. -/
def resultEntries [Blake3] : List KeyVersionRecord → List KeyVersionRecord → List Bytes →
    List Digest → Except KeyRackError (List MigrationVersionResult)
  | old :: olds, new :: news, bytes :: envelopes, digests => do
    let oldMaterial ← wrapped old.material
    let newMaterial ← wrapped new.material
    let digest ← okOr digests.head? (migrationInvalid "missing staged digest")
    let rest ← resultEntries olds news envelopes digests.tail
    return {
      version := old.versionNumber
      oldParentVersion := oldMaterial.parent.version
      newParentVersion := newMaterial.parent.version
      oldEnvelopeDigest := digestHex (Blake3.hash bytes)
      newEnvelopeDigest := digestHex digest
      oldReference := oldMaterial.wrappedMaterialRef.asStr
      newReference := newMaterial.wrappedMaterialRef.asStr } :: rest
  -- the lists are zipped: the shortest of the three ends the loop
  | _, _, _, _ => .ok []

def terminalResult [Blake3] (journal : MigrationJournal) (oldEnvelopes : List Bytes) :
    Except KeyRackError MigrationResult := do
  journal.validateEnvelopes oldEnvelopes
  let request := journal.request
  let versions ← resultEntries request.child.keyVersions request.proposed.keyVersions oldEnvelopes
    journal.envelopeDigests
  return {
    operationId := request.operation
    child := request.child.lid
    oldParent := request.oldParent.lid
    oldParentVersions := versionSet (versions.map (·.oldParentVersion))
    newParent := request.newParent.lid
    newParentVersion := request.newParent.currentKeyVersion
    digestAlgorithm := "blake3"
    versions }

/-- Check the entries of a terminal result; the result is the list of the old
    parent's versions. -/
def checkEntries : List MigrationVersionResult → List KeyVersionRecord → List KeyVersionRecord →
    List Digest → Except KeyRackError (List Nat)
  | entry :: entries, old :: olds, new :: news, digests => do
    let oldMaterial ← wrapped old.material
    let newMaterial ← wrapped new.material
    let digest ← okOr digests.head? (migrationInvalid "terminal envelope digest missing")
    refuseIf (entry.version ≠ old.versionNumber ∨
        entry.oldParentVersion ≠ oldMaterial.parent.version ∨
        entry.newParentVersion ≠ newMaterial.parent.version ∨
        entry.oldReference ≠ oldMaterial.wrappedMaterialRef.asStr ∨
        entry.newReference ≠ newMaterial.wrappedMaterialRef.asStr ∨
        entry.newEnvelopeDigest ≠ digestHex digest ∨
        -- the old bytes are gone by now: only the digest's form is checked
        entry.oldEnvelopeDigest.utf8ByteSize ≠ 64 ∨
        ¬entry.oldEnvelopeDigest.toList.all fun c => c ∈ hexDigits)
      (migrationInvalid "terminal version binding mismatch")
    let rest ← checkEntries entries olds news digests.tail
    return entry.oldParentVersion :: rest
  | _, _, _, _ => .ok []

def validateResult (journal : MigrationJournal) : Except KeyRackError Unit :=
  match journal.result with
  | none => .ok ()
  | some result => do
    let request := journal.request
    refuseIf (result.operationId ≠ request.operation ∨ result.child ≠ request.child.lid ∨
        result.oldParent ≠ request.oldParent.lid ∨ result.newParent ≠ request.newParent.lid ∨
        result.newParentVersion ≠ request.newParent.currentKeyVersion ∨
        result.digestAlgorithm ≠ "blake3" ∨
        result.versions.length ≠ request.child.keyVersions.length)
      (migrationInvalid "terminal result binding mismatch")
    let oldVersions ← checkEntries result.versions request.child.keyVersions
      request.proposed.keyVersions journal.envelopeDigests
    refuseIf (result.oldParentVersions ≠ versionSet oldVersions)
      (migrationInvalid "terminal old-parent version set mismatch")

def validate [UuidText] (journal : MigrationJournal) : Except KeyRackError Unit := do
  journal.request.validate
  refuseIf ((journal.owner.any Uuid.isNil) ∨ journal.owner.isSome ≠ decide (journal.epoch > 0) ∨
      (journal.dispatch.any fun d => d.epoch == 0 || decide (d.epoch > journal.epoch)) ∨
      journal.result.isSome ≠ (journal.phase == .committed))
    (migrationInvalid "invalid migration ownership or terminal state")
  journal.validateResult
  let expected := if journal.phase = .reserved then 0 else journal.request.child.keyVersions.length
  refuseIf (journal.envelopeDigests.length ≠ expected)
    (migrationInvalid "journal envelope digest count mismatch")

end MigrationJournal

/-- One atomic read of a wrapped version. -/
structure WrappedKeySnapshot where
  record : KeyRecord
  parent : KeyRecord
  envelope : Bytes
  deriving DecidableEq

end KeyRack
