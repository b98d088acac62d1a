import KeyRack.Lib.Process
import KeyRack.Sqlite.Reads

/-!
# The creation driver

The driver of a wrapped key creation as a program of storage and provider calls.
`run` validates the request and spawns `drive`, so a caller that goes away leaves
the driver running; every provider call may return anything.
-/
namespace KeyRack.Service

open Fallible Process Sqlite

/-- No pending variant is permission to regenerate. -/
inductive CreationPendingReason where
  | dispatchAlreadyClaimed
  | generationUncertain
  | stagingUncertain
  | cleanupUnconfirmed
  | closureRejected
  | resolutionUncertain
  | publicationRefused
  deriving DecidableEq, Repr

inductive CreationProgress where
  | committed (record : KeyRecord)
  | pending (reason : CreationPendingReason)
  deriving DecidableEq

variable [UuidText] [Blake3] [IntentEncoding]

/-! ### Calls -/

inductive DriverCall where
  | reserveCreation (request : CreationRequest)
  | claimCreationDispatch (operation : Uuid) (owner : CreationOwner)
  | stageCreation (operation : Uuid) (owner : CreationOwner) (revision : Nat) (envelope : Bytes)
  | resolveCreation (operation : Uuid) (owner : CreationOwner) (revision : Nat)
      (closure : VerifiedA2Closure)
  | publishCreation (operation : Uuid) (owner : CreationOwner) (revision : Nat)
  | creationSnapshot (operation : Uuid) (owner : CreationOwner)
  | preflight (request : CreationRequest)
  | generateAndWrap (request : CreationRequest)
  | closeCreation (request : CreationRequest)
  | verify (request : CreationRequest) (claim : A2ClosureClaim)

namespace DriverCall

/-- What a call returns when it succeeds. -/
def Value : DriverCall → Type
  | .reserveCreation _ => CreationJournal
  | .claimCreationDispatch _ _ => Creation.CreationDispatch
  | .stageCreation _ _ _ _ => CreationJournal
  | .resolveCreation _ _ _ _ => CreationJournal
  | .publishCreation _ _ _ => KeyRecord
  | .creationSnapshot _ _ => CreationSnapshot
  | .preflight _ => Unit
  | .generateAndWrap _ => Bytes
  | .closeCreation _ => A2ClosureClaim
  | .verify _ _ => Unit

abbrev Reply (c : DriverCall) : Type := Except KeyRackError c.Value

end DriverCall

abbrev Driver : Type → Type := ExceptT KeyRackError (Prog DriverCall DriverCall.Reply)

/-- `….await?` -/
abbrev Driver.call (c : DriverCall) : Driver c.Value := perform c

/-- `….await`, whose error is looked at. -/
abbrev Driver.tryCall (c : DriverCall) : Driver c.Reply := observe c

/-! ### The program -/

/-- `VerifiedA2Closure::verify` with the provider as verifier. -/
def verifyClosure (request : CreationRequest) (bytes : Bytes) (claim : A2ClosureClaim) :
    Driver VerifiedA2Closure := do
  -- the verifier is asked only once the claim's own checks have passed
  liftM (claim.verify request bytes fun _ _ => .ok ())
  let verdict ← Driver.tryCall (.verify request claim)
  liftM (VerifiedA2Closure.verify request bytes claim fun _ _ => verdict)

def publish (request : CreationRequest) : Driver CreationProgress := do
  match ← Driver.tryCall (.preflight request) with
  | .error _ => return .pending .publicationRefused
  | .ok _ =>
    match ← Driver.tryCall (.publishCreation request.operation request.owner 3) with
    | .ok record => return .committed record
    | .error _ => return .pending .publicationRefused

def resolveAndPublish (request : CreationRequest) (bytes : Bytes) (claim : A2ClosureClaim) :
    Driver CreationProgress := do
  match ← ExceptT.lift (verifyClosure request bytes claim).run with
  | .error _ => return .pending .closureRejected
  | .ok closure =>
    match ← Driver.tryCall (.resolveCreation request.operation request.owner 2 closure) with
    | .error _ => return .pending .resolutionUncertain
    | .ok _ => publish request

def snapshot (request : CreationRequest) : Driver CreationSnapshot := do
  let snapshot ← Driver.call (.creationSnapshot request.operation request.owner)
  let stored ← liftM snapshot.journal.request.fingerprint
  let given ← liftM request.fingerprint
  liftM (refuseIf (stored ≠ given) (invalid "recovery intent mismatch"))
  -- a backend's own snapshot is validated again
  liftM (CreationSnapshot.new snapshot.journal snapshot.envelope request.owner)

/-- The closure of the exact attempt: recorded already, or asked for again. -/
def recoverClosure (request : CreationRequest) (journal : CreationJournal) :
    Driver (Option A2ClosureClaim) := do
  if journal.phase = .resolved then
    let claim ← liftM (okOr journal.closure (invalid "missing recorded closure"))
    return some claim
  else
    match ← Driver.tryCall (.closeCreation request) with
    | .ok claim => return some claim
    | .error _ => return none

def resumeStaged (request : CreationRequest) : Driver CreationProgress := do
  let snapshot ← snapshot request
  match snapshot.journal.phase with
  | .reserved => return .pending .dispatchAlreadyClaimed
  | .committed =>
    let record ← liftM (okOr snapshot.journal.committedRecord (invalid "missing committed result"))
    return .committed record
  | .staged | .resolved =>
    let bytes ← liftM (okOr snapshot.envelope (invalid "missing recovery envelope"))
    match ← recoverClosure request snapshot.journal with
    | none => return .pending .cleanupUnconfirmed
    -- a recorded claim is verified again
    | some claim => resolveAndPublish request bytes claim

/-- Store what the provider returned, if it returned. -/
def stageGenerated (request : CreationRequest) (generated : Except KeyRackError Bytes) :
    Driver (Except KeyRackError CreationJournal) :=
  match generated with
  | .ok bytes => Driver.tryCall (.stageCreation request.operation request.owner 1 bytes)
  | .error _ => return .error (invalid "generation outcome unknown")

/-- The provider effects of the one granted dispatch. -/
def generate (request : CreationRequest) : Driver CreationProgress := do
  let generated ← Driver.tryCall (.generateAndWrap request)
  let staged ← stageGenerated request generated
  -- cleanup is owed after any possible effect
  match ← Driver.tryCall (.closeCreation request) with
  | .error _ => return .pending .cleanupUnconfirmed
  | .ok closure =>
    match generated, staged with
    | .error _, _ => return .pending .generationUncertain
    -- also when the staging committed and its reply was lost
    | .ok _, .error _ => return .pending .stagingUncertain
    | .ok bytes, .ok _ => resolveAndPublish request bytes closure

def checkDecision (request : CreationRequest) (claimed : CreationJournal) :
    Except KeyRackError Unit := do
  let stored ← claimed.request.fingerprint
  let given ← request.fingerprint
  refuseIf (stored ≠ given ∨ claimed.phase ≠ .reserved ∨ claimed.dispatchStarted = false)
    (invalid "invalid dispatch decision")

/-- Ask for the dispatch of a fresh reservation. -/
def dispatch (request : CreationRequest) : Driver CreationProgress := do
  let _ ← Driver.call (.preflight request)
  match ← Driver.call (.claimCreationDispatch request.operation request.owner) with
  | .existing _ => return .pending .dispatchAlreadyClaimed
  | .started claimed =>
    liftM (checkDecision request claimed)
    generate request

def drive (request : CreationRequest) : Driver CreationProgress := do
  let journal ← Driver.call (.reserveCreation request)
  liftM journal.validate
  let stored ← liftM journal.request.fingerprint
  let given ← liftM request.fingerprint
  liftM (refuseIf (stored ≠ given) (invalid "reservation intent mismatch"))
  match journal.phase with
  | .committed =>
    let record ← liftM (okOr journal.committedRecord (invalid "missing committed creation result"))
    return .committed record
  | .staged | .resolved => resumeStaged request
  | .reserved =>
    if journal.dispatchStarted then
      return .pending .dispatchAlreadyClaimed
    else
      dispatch request

/-! ### Its surroundings -/

/-- The storage operation behind a call, and the form of its reply. -/
inductive DriverCall.Stores : (c : DriverCall) → Op → (c.Value → Sqlite.Reply) → Prop where
  | reserve (request : CreationRequest) :
      Stores (.reserveCreation request) (.reserveCreation request) .creation
  | dispatch (operation : Uuid) (owner : CreationOwner) :
      Stores (.claimCreationDispatch operation owner) (.claimCreationDispatch operation owner)
        .dispatch
  | stage (operation : Uuid) (owner : CreationOwner) (revision : Nat) (envelope : Bytes) :
      Stores (.stageCreation operation owner revision envelope)
        (.stageCreation operation owner revision envelope) .creation
  | resolve (operation : Uuid) (owner : CreationOwner) (revision : Nat)
      (closure : VerifiedA2Closure) :
      Stores (.resolveCreation operation owner revision closure)
        (.resolveCreation operation owner revision closure) .creation
  | publish (operation : Uuid) (owner : CreationOwner) (revision : Nat) :
      Stores (.publishCreation operation owner revision)
        (.publishCreation operation owner revision) .record

/-- Provider calls, answered with anything. -/
def DriverCall.ofProvider : DriverCall → Bool
  | .preflight _ | .generateAndWrap _ | .closeCreation _ | .verify _ _ => true
  | _ => false

inductive DriverCall.Answers (db : Db) : (c : DriverCall) → c.Reply → Db → Prop where
  | storage (c : DriverCall) (op : Op) (form : c.Value → Sqlite.Reply) (reply : c.Reply) (db' : Db)
      (stores : c.Stores op form) (attempt : Attempt op form db reply db') : Answers db c reply db'
  | snapshot (operation : Uuid) (owner : CreationOwner)
      (reply : Except KeyRackError CreationSnapshot)
      (read : ReadAttempt (Sqlite.creationSnapshot db operation owner) reply) :
      Answers db (.creationSnapshot operation owner) reply db
  | provider (c : DriverCall) (reply : c.Reply) (provided : c.ofProvider = true) :
      Answers db c reply db

/-- What others may do meanwhile: anything but record a closure in the operation's
    journal or withdraw it. -/
def Foreign (operation : Uuid) : Op → Prop
  | .resolveCreation other _ _ _ => other ≠ operation
  | .withdrawCreation other => other ≠ operation
  | _ => True

/-- Any number of drivers of one operation over one backend. A driver that stops in
    the middle of a call is one that loses the call's reply and stops afterwards. -/
def driverRules (ι : Type) (operation : Uuid) :
    Rules Db ι DriverCall DriverCall.Reply (Except KeyRackError CreationProgress) Sqlite.Event where
  starts p := ∃ request : CreationRequest, request.operation = operation ∧
    request.validate = .ok () ∧ p = (drive request).run
  answers db _ c reply db' := c.Answers db reply db'
  drops db _ _ db' := db' = db
  environment db event db' := StorageStep db event db' ∧ Foreign operation event.1

end KeyRack.Service
