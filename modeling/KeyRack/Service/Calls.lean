import KeyRack.Core.Pdp
import KeyRack.Lib.Process

/-!
# What the shared parts of the service ask of their surroundings

Request identifiers, policy decisions, the audit sink and the table of HSM
connections. A handler adds calls of its own.
-/
namespace KeyRack.Service

open Process

/-! ### Statuses -/

inductive Code where
  | ok
  | cancelled
  | unknown
  | invalidArgument
  | deadlineExceeded
  | notFound
  | alreadyExists
  | permissionDenied
  | resourceExhausted
  | failedPrecondition
  | aborted
  | outOfRange
  | unimplemented
  | internal
  | unavailable
  | dataLoss
  | unauthenticated
  deriving DecidableEq, Repr

/-- The public error type of the gRPC surface. A message that is the text of an error
    keeps the error instead. -/
structure Status where
  code : Code
  message : String
  cause : Option KeyRackError := none
  deriving DecidableEq

namespace Status

def internal (message : String) : Status := { code := .internal, message }
def invalidArgument (message : String) : Status := { code := .invalidArgument, message }
def permissionDenied (message : String) : Status := { code := .permissionDenied, message }
def failedPrecondition (message : String) : Status := { code := .failedPrecondition, message }
def notFound (message : String) : Status := { code := .notFound, message }

end Status

/-- The code of `error_to_status`. -/
def errorCode : KeyRackError → Code
  | .keyNotFound _ => .notFound
  | .optimisticConcurrencyConflict _ _ _ => .aborted
  | .invalidStateTransition _ _ _ | .keyDestructionFenced _ | .deletionDependencyRefused _ _
  | .wrappingParentDestroyed | .migrationIntentConflict _ | .depthLimitExceeded _
  | .cycleDetected _ => .failedPrecondition
  | .invalidIdentity _ => .invalidArgument
  | .providerUnavailable _ => .unavailable
  | _ => .internal

def errorToStatus (e : KeyRackError) : Status :=
  { code := errorCode e, message := "", cause := some e }

/-! ### Audit events -/

structure Party where
  id : String
  kind : String
  deriving DecidableEq, Repr

/-- An audit event of an operation, without its identity, time and signature. -/
structure OperationEvent where
  eventType : EventType
  action : AuditAction
  principal : Party
  resource : Party
  result : AuditResult
  encryptionContextHash : Option Digest := none
  tenant : Option String := none
  project : Option String := none
  requestId : Option String := none
  metadata : List (String × AuditValue) := []
  deriving DecidableEq

/-! ### Calls -/

/-- A stored HSM connection, which backs the provider of the same name. -/
structure HsmConnection where
  connectionId : String
  scopeOwner : Option String
  deriving DecidableEq, Repr

inductive ServiceCall (Own : Type) where
  | newRequestId
  | evaluate (request : AuthzRequest)
  | emit (event : OperationEvent)
  | getHsmConnection (connectionId : String)
  -- whether a spawned task ran to its end, or the runtime was shut down
  | joinTask
  | own (c : Own)

variable {Own : Type} {OwnReply : Own → Type} {ε α : Type}

@[reducible] def ServiceCall.Reply (OwnReply : Own → Type) : ServiceCall Own → Type
  | .newRequestId => String
  | .evaluate _ => Except KeyRackError AuthzResponse
  | .emit _ => Except KeyRackError Unit
  -- of an error only its text is looked at
  | .getHsmConnection _ => Except String HsmConnection
  | .joinTask => Bool
  | .own c => OwnReply c

abbrev ServiceProg (OwnReply : Own → Type) : Type → Type :=
  Prog (ServiceCall Own) (ServiceCall.Reply OwnReply)

/-- Service code that fails with an error of its own. -/
abbrev Handler (OwnReply : Own → Type) (ε : Type) : Type → Type := ExceptT ε (ServiceProg OwnReply)

/-- Make a call and look at its reply. -/
abbrev Handler.call (c : ServiceCall Own) : Handler OwnReply ε (ServiceCall.Reply OwnReply c) :=
  observe c

/-- A failure to emit is logged and counted only. -/
def emitEvent (event : OperationEvent) : Handler OwnReply ε Unit := do
  let _ ← Handler.call (.emit event)
  return ()

/-- A handler's own part, among the shared calls. -/
def ownPart (p : Prog Own OwnReply α) : ServiceProg OwnReply α := p.embed .own fun _ r => r

end KeyRack.Service
