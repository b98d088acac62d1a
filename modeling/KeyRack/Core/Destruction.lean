import KeyRack.Core.Creation

/-!
# Key destruction

What depends on a key, the approval of losing it, and the claim that fences the
key until its destruction is complete.
-/
namespace KeyRack

open Fallible

def destructionInvalid (message : String) : KeyRackError := .storage ("destruction: " ++ message)

/-- A dependency approved for deliberate data loss. -/
structure DestructionDependent where
  lid : Lid
  version : Nat
  parentVersion : Nat
  envelopeRef : String
  deriving DecidableEq, Repr

/-- The derived order compares the fields in turn; identifiers have a fixed length. -/
def DestructionDependent.sortKey (edge : DestructionDependent) : List Nat :=
  edge.lid.bytes.toList.map (·.toNat) ++ edge.version :: edge.parentVersion ::
    (utf8 edge.envelopeRef).map (·.toNat)

/-- `sort` followed by `dedup`. -/
def sortDependents (edges : List DestructionDependent) : List DestructionDependent :=
  (edges.insertionSort fun a b => a.sortKey ≤ b.sortKey).destutter (· ≠ ·)

structure DeletionIntent where
  allowDependentDataLoss : Bool
  approvedDependents : List DestructionDependent
  deriving DecidableEq

def DeletionIntent.default : DeletionIntent := ⟨false, []⟩

structure ScheduledDeletion where
  record : KeyRecord
  logicalOnlyChildren : Nat
  approvedDependents : List DestructionDependent
  deriving DecidableEq

/-- A consistent observation shared by scheduling and the fenced claim. -/
structure DestructionDependencies where
  logicalOnlyChildren : Nat
  ownParentWrappedVersions : Nat
  dependentWrappingEdges : Nat
  creationJournalRows : Nat
  inFlightCreationJournalRows : Nat
  migrationJournalRows : Nat
  dependents : List DestructionDependent

namespace DestructionDependencies

def summary (counts : DestructionDependencies) : String :=
  "own_parent_wrapped_versions=" ++ toString counts.ownParentWrappedVersions ++
    ", dependent_wrapping_edges=" ++ toString counts.dependentWrappingEdges ++
    ", creation_journal_rows=" ++ toString counts.creationJournalRows ++
    ", in_flight_creation_journal_rows=" ++ toString counts.inFlightCreationJournalRows ++
    ", migration_journal_rows=" ++ toString counts.migrationJournalRows

/-- One version of another record, or of the key itself. -/
def includeVersion (lid : Lid) (record : KeyRecord) (counts : DestructionDependencies)
    (version : KeyVersionRecord) : DestructionDependencies :=
  match version.material with
  | .providerResident _ _ => counts
  | .parentWrapped material =>
    if record.lid = lid then
      { counts with ownParentWrappedVersions := counts.ownParentWrappedVersions + 1 }
    else if material.parent.lid = lid then
      { counts with
        dependentWrappingEdges := counts.dependentWrappingEdges + 1
        dependents := counts.dependents ++ [{
          lid := record.lid
          version := version.versionNumber
          parentVersion := material.parent.version
          envelopeRef := material.wrappedMaterialRef.asStr }] }
    else counts

def isLogicalOnlyChild (lid : Lid) (record : KeyRecord) : Bool :=
  record.lid != lid && record.parentLid == some lid && !record.keyVersions.isEmpty &&
    record.keyVersions.all fun version => version.material.wrapped?.isNone

def countLogicalOnly (counts : DestructionDependencies) (lid : Lid) (record : KeyRecord) :
    Except KeyRackError Nat :=
  if isLogicalOnlyChild lid record then
    okOr (checkedSucc counts.logicalOnlyChildren) (destructionInvalid "dependency count overflow")
  else .ok counts.logicalOnlyChildren

def includeRecord (counts : DestructionDependencies) (lid : Lid) (record : KeyRecord) :
    Except KeyRackError DestructionDependencies := do
  let logicalOnlyChildren ← counts.countLogicalOnly lid record
  let counts := { counts with logicalOnlyChildren }
  -- a destroyed record has no material to lose, but still counts as a logical child
  if record.state = .destroyed then
    return counts
  else
    let counts := record.keyVersions.foldl (includeVersion lid record) counts
    return { counts with dependents := sortDependents counts.dependents }

/-- Never override in-flight work; every new edge requires a new approval. -/
def validateIntent (counts : DestructionDependencies) (intent : DeletionIntent) :
    Except KeyRackError Unit := do
  -- unfinished journal work is refused whatever was approved
  refuseIf (counts.inFlightCreationJournalRows > 0 ∨ counts.migrationJournalRows > 0)
    (.deletionDependencyRefused "in_flight_journal" counts.summary)
  refuseIf (counts.dependents ≠ [] ∧ intent.allowDependentDataLoss = false)
    (.deletionDependencyRefused "dependent_data_loss_not_approved" counts.summary)
  refuseIf (counts.dependents.any fun edge => edge ∉ intent.approvedDependents)
    (.deletionDependencyRefused "dependent_outside_approved_snapshot" counts.summary)

def approval (counts : DestructionDependencies) (allow : Bool) :
    Except KeyRackError DeletionIntent := do
  let intent : DeletionIntent := ⟨allow, if allow then counts.dependents else []⟩
  counts.validateIntent intent
  return intent

end DestructionDependencies

def validateMaterial (record : KeyRecord) : KeyMaterial → Except KeyRackError Unit
  | .providerResident keyHandle _ =>
    refuseIf (keyHandle.keyId.isEmpty ∨ keyHandle.keySpec ≠ record.keySpec)
      (destructionInvalid "invalid resident history")
  | .parentWrapped material =>
    refuseIf (material.parent.lid = record.lid)
      (destructionInvalid "self-wrapped destruction history")

def validateVersions (record : KeyRecord) :
    List KeyVersionRecord → List Nat → Except KeyRackError Unit
  | [], _ => .ok ()
  | version :: rest, seen => do
    refuseIf (version.versionNumber = 0 ∨ version.versionNumber ∈ seen ∨
        version.isPrimary ≠ (version.versionNumber == record.currentKeyVersion))
      (destructionInvalid "invalid material history")
    validateMaterial record version.material
    validateVersions record rest (version.versionNumber :: seen)

/-- Validate the entire history, never just the current version. -/
def validateDestructionHistory (record : KeyRecord) : Except KeyRackError Unit := do
  refuseIf (record.keyVersions = [] ∨ record.primaryVersion = none)
    (destructionInvalid "missing material history")
  validateVersions record record.keyVersions []

/-- Execution authority for a committed destruction operation. -/
structure DestructionClaim where
  operation : Uuid
  record : KeyRecord
  recovered : Bool
  assigned : operation.isNil = false
  pending : record.state = .pendingDeletion
  history : validateDestructionHistory record = .ok ()
  deriving DecidableEq

/-- `DestructionClaim::committed` and `DestructionClaim::recovered`. -/
def DestructionClaim.issue (operation : Uuid) (record : KeyRecord) (recovered : Bool) :
    Except KeyRackError DestructionClaim :=
  if identity : operation.isNil = false ∧ record.state = .pendingDeletion then
    match history : validateDestructionHistory record with
    | .ok () => .ok ⟨operation, record, recovered, identity.1, identity.2, history⟩
    | .error e => .error e
  else .error (destructionInvalid "invalid committed claim")

/-- Called on a fresh row under the same write lock as all key mutations. -/
def prepareClaim (record : KeyRecord) (expectedOcc : Nat) (now : DateTime) :
    Except KeyRackError KeyRecord := do
  refuseIf (record.occVersion ≠ expectedOcc)
    (.optimisticConcurrencyConflict record.lid expectedOcc record.occVersion)
  refuseIf (record.state ≠ .pendingDeletion ∨
      ¬record.scheduledDeletionAt.any fun due => decide (due ≤ now))
    (destructionInvalid "key is not due for destruction")
  validateDestructionHistory record
  -- leaves room for both the claim and its completion
  refuseIf (expectedOcc = 0 ∨ expectedOcc > i64Max - 2) (destructionInvalid "OCC out of range")
  return { record with occVersion := record.occVersion + 1, updatedAt := now }

/-- Completion requires the identical fenced snapshot. -/
def completedRecord (claim : DestructionClaim) (current : KeyRecord) (now : DateTime) :
    Except KeyRackError KeyRecord := do
  let same ← sameJson claim.record current
  refuseIf (same = false) (destructionInvalid "claimed snapshot changed")
  -- the counter is stored in a signed column
  let occVersion ← okOr ((checkedSucc current.occVersion).filter fun v => decide (v ≤ i64Max))
    (destructionInvalid "OCC overflow")
  return { current with occVersion, state := .destroyed, updatedAt := now }

/-- Validate a repeat completion without changing the original completion time. -/
def validateCompletedRecord (claim : DestructionClaim) (current : KeyRecord) :
    Except KeyRackError Unit := do
  -- recomputed with the stored time, so only that field is taken on trust
  let expected ← completedRecord claim claim.record current.updatedAt
  let same ← sameJson expected current
  refuseIf (same = false) (destructionInvalid "completed snapshot changed")

end KeyRack
