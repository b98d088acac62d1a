import KeyRack.Core.Audit
import KeyRack.Core.Registry
import KeyRack.Lib.Process
import KeyRack.Sqlite.Reads

/-!
# The deletion worker

One scan of the reaper: list the keys that are pending deletion, claim each due
one, destroy its resident material at the providers and complete the claim. A
scan that stops in between leaves its claims, and a later scan resumes them.
-/
namespace KeyRack.Service

open Fallible Process Sqlite

/-! ### Audit records -/

/-- An event of type `KeyDeleted` by the system principal. -/
structure AuditEvent where
  action : AuditAction
  resource : Lid
  result : AuditResult
  metadata : List (String × AuditValue)
  deriving DecidableEq

/-! ### Calls -/

inductive WorkerCall where
  | listKeys (filter : KeyFilter)
  | claimDestruction (lid : Lid) (expectedOcc : Nat) (now : DateTime)
  | completeDestruction (claim : DestructionClaim)
  | resolve (name : ProviderRef)
  | defaultEntry
  | destroyKeyWithOutcome (entry : ProviderEntry) (handle : KeyHandle)
  | emit (event : AuditEvent)

namespace WorkerCall

def Value : WorkerCall → Type
  | .listKeys _ => Page KeyRecord
  | .claimDestruction _ _ _ => Option DestructionClaim
  | .completeDestruction _ => KeyRecord
  | .resolve _ => ProviderEntry
  | .defaultEntry => ProviderEntry
  | .destroyKeyWithOutcome _ _ => DestroyKeyOutcome
  | .emit _ => Unit

abbrev Reply (c : WorkerCall) : Type := Except KeyRackError c.Value

end WorkerCall

abbrev Worker : Type → Type := ExceptT KeyRackError (Prog WorkerCall WorkerCall.Reply)

abbrev Worker.call (c : WorkerCall) : Worker c.Value := perform c

abbrev Worker.tryCall (c : WorkerCall) : Worker c.Reply := observe c

/-! ### The scan -/

/-- `let _ = state.audit.emit(&event).await`. -/
def emitAudit (event : AuditEvent) : Worker Unit := do
  let _ ← Worker.tryCall (.emit event)
  return ()

def emitDestructionProgress (claim : DestructionClaim) (action : AuditAction) (reason : String) :
    Worker Unit :=
  emitAudit {
    action
    resource := claim.record.lid
    -- a resumed attempt is not itself a failure
    result := if action = .keyDestructionRetried then .success else .error
    metadata := [("operation_id", .operation claim.operation), ("reason", .text reason)] }

/-- Audit the delete outcome of one version. -/
def emitDestroyEvent (claim : DestructionClaim) (versionNumber : Nat)
    (outcome : Except KeyRackError DestroyKeyOutcome) : Worker Unit :=
  emitAudit {
    action := .providerDestroyKey
    resource := claim.record.lid
    result := if outcome.isOk then .success else .error
    metadata := [("key_version", .number versionNumber),
        ("operation_id", .operation claim.operation), ("recovered", .flag claim.recovered)] ++
      match outcome with
      | .ok .completed => []
      | .ok .alreadyAbsent => [("reason", .text "provider_key_already_absent")]
      | .error e => [("error", .cause e)] }

/-- `resolve_for_version`: a missing version fails before the lookup. -/
def resolveForVersion (record : KeyRecord) (versionNumber : Nat) : Worker ProviderEntry := do
  let version ← liftM (okOr (record.getVersion versionNumber) (KeyRackError.keyNotFound record.lid))
  match version.providerRef.or record.providerRef with
  | some name => Worker.call (.resolve name)
  | none => Worker.call .defaultEntry

section
variable (defaultRef : ProviderRef)

def bindingOf (record : KeyRecord) (versionNumber : Nat) : ProviderRef :=
  (record.effectiveProviderRef versionNumber).getD defaultRef

/-- Resolve one instance for each binding, before the first effect. -/
def pinProviders (claim : DestructionClaim) :
    List KeyVersionRecord → List (ProviderRef × ProviderEntry) →
      Worker (Option (List (ProviderRef × ProviderEntry)))
  | [], pinned => return some pinned
  | version :: rest, pinned =>
    let binding := bindingOf defaultRef claim.record version.versionNumber
    match pinned.lookup binding with
    | some _ => pinProviders claim rest pinned
    | none => do
      match ← ExceptT.lift (resolveForVersion claim.record version.versionNumber).run with
      | .ok entry => pinProviders claim rest ((binding, entry) :: pinned)
      | .error e =>
        emitDestroyEvent claim version.versionNumber (.error e)
        return none

/-- Delete the handles one by one; the first failure ends the attempt. -/
def destroyVersions (claim : DestructionClaim) (pinned : List (ProviderRef × ProviderEntry)) :
    List KeyVersionRecord → Worker Bool
  | [] => return true
  | version :: rest =>
    match version.residentHandle,
        pinned.lookup (bindingOf defaultRef claim.record version.versionNumber) with
    | .ok handle, some entry => do
      let outcome ← Worker.tryCall (.destroyKeyWithOutcome entry handle)
      emitDestroyEvent claim version.versionNumber outcome
      match outcome with
      | .ok _ => destroyVersions claim pinned rest
      | .error _ => return false
    | _, _ => return false

/-- Destroy the provider-side material of every resident version. Wrapped versions
    have envelopes only, which completion erases. -/
def destroyBackendMaterial (claim : DestructionClaim) : Worker Bool :=
  match validateDestructionHistory claim.record with
  | .error e => do
    emitDestroyEvent claim claim.record.currentKeyVersion (.error e)
    return false
  | .ok () => do
    let resident := claim.record.keyVersions.filter (·.isResident)
    match ← pinProviders defaultRef claim resident [] with
    | none => return false
    | some pinned => destroyVersions defaultRef claim pinned resident

def knownRefusals : List String :=
  ["in_flight_journal", "dependent_data_loss_not_approved", "dependent_outside_approved_snapshot"]

/-- The metadata of a refused claim. -/
def refusalMetadata : KeyRackError → List (String × AuditValue)
  | .deletionDependencyRefused reason counts =>
    [("reason", .text (if reason ∈ knownRefusals then reason else "storage_refusal")),
      ("dependency_counts", .text counts)]
  | _ => [("reason", .text "storage_refusal")]

def announceResumed (claim : DestructionClaim) : Worker Unit :=
  if claim.recovered then
    emitDestructionProgress claim .keyDestructionRetried "durable_claim_resumed"
  else return ()

/-- From the claim on, only its fenced snapshot is used, never the listed row. -/
def carryOut (lid : Lid) (claim : DestructionClaim) : Worker Unit := do
  announceResumed claim
  match ← destroyBackendMaterial defaultRef claim with
  | false => emitDestructionProgress claim .keyDestructionDeferred "provider_outcome_unconfirmed"
  | true =>
    match ← Worker.tryCall (.completeDestruction claim) with
    | .ok _ => emitAudit ⟨.keyDestroyed, lid, .success, []⟩
    | .error _ =>
      emitAudit ⟨.keyDestructionDeferred, lid, .error,
        [("operation_id", .operation claim.operation), ("reason", .text "completion_unconfirmed")]⟩

def pastDue (now : DateTime) (record : KeyRecord) : Bool :=
  record.scheduledDeletionAt.any fun due => decide (due ≤ now)

def scanRecord (now : DateTime) (record : KeyRecord) : Worker Unit :=
  if pastDue now record then do
    match ← Worker.tryCall (.claimDestruction record.lid record.occVersion now) with
    | .ok (some claim) => carryOut defaultRef record.lid claim
    | .ok none => return ()
    | .error e => emitAudit ⟨.keyDestructionRefused, record.lid, .error, refusalMetadata e⟩
  else return ()

def scanRecords (now : DateTime) : List KeyRecord → Worker Unit
  | [] => return ()
  | record :: rest => do
    scanRecord defaultRef now record
    scanRecords now rest

def scanFilter : KeyFilter := { state := some .pendingDeletion }

def runDeletionScanAt (now : DateTime) : Worker Unit := do
  let page ← Worker.call (.listKeys scanFilter)
  scanRecords defaultRef now page.items

end

/-! ### Its surroundings -/

variable [UuidText] [Blake3] [IntentEncoding]

inductive WorkerCall.Answers (db : Db) : (c : WorkerCall) → c.Reply → Db → Prop where
  | list (filter : KeyFilter) (reply : Except KeyRackError (Page KeyRecord))
      (read : ReadAttempt (.ok (Sqlite.listKeys db filter)) reply) :
      Answers db (.listKeys filter) reply db
  | claim (lid : Lid) (expectedOcc : Nat) (now : DateTime)
      (fresh : {operation : Uuid // operation.isNil = false})
      (reply : Except KeyRackError (Option DestructionClaim)) (db' : Db)
      (attempt : Attempt (.claimDestruction lid expectedOcc now fresh) .claimed db reply db') :
      Answers db (.claimDestruction lid expectedOcc now) reply db'
  | complete (claim : DestructionClaim) (now : DateTime) (reply : Except KeyRackError KeyRecord)
      (db' : Db) (attempt : Attempt (.completeDestruction claim now) .record db reply db') :
      Answers db (.completeDestruction claim) reply db'
  -- the registry may be changed at any time, and providers return anything
  | resolve (name : ProviderRef) (reply : Except KeyRackError ProviderEntry) :
      Answers db (.resolve name) reply db
  | defaultEntry (entry : ProviderEntry) : Answers db .defaultEntry (.ok entry) db
  | destroy (entry : ProviderEntry) (handle : KeyHandle)
      (reply : Except KeyRackError DestroyKeyOutcome) :
      Answers db (.destroyKeyWithOutcome entry handle) reply db
  | emit (event : AuditEvent) (reply : Except KeyRackError Unit) : Answers db (.emit event) reply db

/-- What others may do meanwhile: anything but complete a destruction. -/
def Completes : Op → Bool
  | .completeDestruction _ _ => true
  | _ => false

/-- Any number of scans over one backend. -/
def workerRules (ι : Type) (defaultRef : ProviderRef) :
    Rules Db ι WorkerCall WorkerCall.Reply (Except KeyRackError Unit) Sqlite.Event where
  starts p := ∃ now, p = (runDeletionScanAt defaultRef now).run
  answers db _ c reply db' := c.Answers db reply db'
  drops db _ _ db' := db' = db
  environment db event db' := StorageStep db event db' ∧ Completes event.1 = false

end KeyRack.Service
