import KeyRack.Service.Scope

/-!
# The operation executor

The single choke point of authorization and audit: a handler's operation starts
after the policy decision point has permitted every authorization request of its
context, and its outcome is audited when it ends. Migrations have an executor of
their own, with one request for each key that takes part.
-/
namespace KeyRack.Service

open Fallible Process

/-- A pending operation, for authorization and audit. -/
structure OpContext where
  action : AuditAction
  principal : Principal
  resourceId : String
  resourceType : String
  encryptionContextHash : Option Digest
  requestId : String
  reEncryptDestination : Option String
  requestedVersion : Option UInt32
  allowDependentDataLoss : Bool
  -- what the operation has recorded so far
  approvedDeletionEdges : Option (List DestructionDependent)

namespace OpContext

def key (action : AuditAction) (principal : Principal) (keyId requestId : String) : OpContext where
  action
  principal
  resourceId := keyId
  resourceType := "Key"
  encryptionContextHash := none
  requestId
  reEncryptDestination := none
  requestedVersion := none
  allowDependentDataLoss := false
  approvedDeletionEdges := none

def invalidVersionContext : Status := .internal "invalid key-version authorization context"

/-- The request context: the exact version that `GetKeyVersion` asks for. -/
def authorizationContext (ctx : OpContext) : Except Status PdpAttributes :=
  match ctx.requestedVersion with
  | some version => do
    refuseIf (ctx.action ≠ .getKeyVersion ∨ ctx.resourceType ≠ "Key") invalidVersionContext
    refuseIf (version = 0) (.invalidArgument "key version must be positive")
    return SortedMap.empty.insert "key_version" (.integer version.toNat)
  | none => do
    refuseIf (ctx.action = .getKeyVersion) invalidVersionContext
    return .empty

/-- The question about the context's own resource. -/
def request (ctx : OpContext) (context : PdpAttributes) : AuthzRequest where
  pdpApiVersion := pdpApiVersion
  requestId := ctx.requestId
  action := ctx.action
  principal := ctx.principal
  resource := ⟨ctx.resourceId, ctx.resourceType, .empty⟩
  context

/-- The separate permission to lose dependent data. -/
def overrideRequest (ctx : OpContext) (context : PdpAttributes) (requestId : String) :
    AuthzRequest :=
  { ctx.request context with
    action := .scheduleKeyDeletionWithDependentDataLoss
    requestId
    context := (context.insert "operation_request_id" (.string ctx.requestId)).insert
      "allow_dependent_data_loss" (.bool true) }

/-- One leg of a re-encryption. The outer identifier is correlation context only:
    with it a response for one leg would be accepted for the other. -/
def reEncryptLeg (ctx : OpContext) (context : PdpAttributes) (destination role keyId : String)
    (action : AuditAction) (requestId : String) : AuthzRequest :=
  let request := ctx.request context
  { request with
    action
    requestId
    resource := { request.resource with id := keyId }
    context := (((context.insert "operation_request_id" (.string ctx.requestId)).insert
      "re_encrypt_role" (.string role)).insert "source_key_id" (.string ctx.resourceId)).insert
      "destination_key_id" (.string destination) }

end OpContext

section
variable {Own : Type} {OwnReply : Own → Type} {α ε : Type}

/-! ### Authorization -/

def authorizationRequests (ctx : OpContext) : Handler OwnReply Status (List AuthzRequest) := do
  liftM (refuseIf (ctx.action = .rewrapKey) (Status.internal
    "RewrapKey requires the migration executor"))
  let context ← liftM ctx.authorizationContext
  if ctx.allowDependentDataLoss then
    liftM (refuseIf (ctx.action ≠ .scheduleKeyDeletion ∨ ctx.resourceType ≠ "Key")
      (Status.internal "invalid deletion authorization context"))
    let overrideId ← Handler.call .newRequestId
    return [ctx.request context, ctx.overrideRequest context overrideId]
  else
    liftM (refuseIf (ctx.action = .scheduleKeyDeletionWithDependentDataLoss)
      (Status.internal "deletion override requires the schedule executor"))
    if ctx.action = .reEncryptFrom then
      let destination ← liftM (okOr ctx.reEncryptDestination
        (Status.internal "ReEncrypt requires a bound destination authorization"))
      let sourceId ← Handler.call .newRequestId
      let destinationId ← Handler.call .newRequestId
      return [ctx.reEncryptLeg context destination "source" ctx.resourceId .reEncryptFrom sourceId,
        ctx.reEncryptLeg context destination "destination" destination .reEncryptTo destinationId]
    else
      liftM (refuseIf (ctx.reEncryptDestination.isSome ∨ ctx.action = .reEncryptTo)
        (Status.internal "invalid two-key authorization context"))
      return [ctx.request context]

def pdpUnavailable : Status := .internal "authorization service unavailable"

/-- Ask the policy decision point, and enforce its response. -/
def authorizeRequest (request : AuthzRequest) : Handler OwnReply Status Unit := do
  let reply ← Handler.call (.evaluate request)
  let response ← liftM (mapErr reply fun _ => pdpUnavailable)
  let response ← liftM (mapErr (response.intoEnforceable request) fun _ => pdpUnavailable)
  liftM (refuseIf (response.decision ≠ .permit)
    (Status.permissionDenied ("authorization denied: " ++ response.reasonsText)))

def eventTypeForAction : AuditAction → EventType
  | .createKey | .importKeyMaterial => .keyCreated
  | .rotateKey => .keyRotated
  | .rewrapKey | .enableKey | .disableKey | .scheduleKeyDeletion
  | .scheduleKeyDeletionWithDependentDataLoss | .cancelKeyDeletion | .updateKey => .keyStateChanged
  | .reportKeyCompromise => .keyCompromised
  | .getKey | .describeKey | .listKeys | .listKeyVersions | .getKeyVersion | .getKeyDependents
  | .getKeyAncestors | .getKeyRotationStatus | .getKeyRotationHistory | .getKeyRotationPolicy =>
    .keyRead
  | .encrypt | .decrypt | .sign | .verify | .generateMac | .verifyMac | .generateRandom
  | .generateDataKey | .generateDataKeyWithoutPlaintext | .reEncryptFrom | .reEncryptTo =>
    .cryptoOperation
  | .tagResource | .untagResource | .listResourceTags => .tagMutation
  | .createAlias | .deleteAlias | .listAliases => .aliasMutation
  | .createHsmConnection | .deleteHsmConnection | .getHsmConnection | .listHsmConnections
  | .getHsmConnectionStatus => .hsmConnectionMutation
  | .enableKeyRotation | .disableKeyRotation | .setKeyRotationPolicy => .rotationPolicyChanged
  | .listRotationJobs | .acknowledgeRotationJob | .completeRotationJob | .failRotationJob
  | .rotationJobExpired => .rotationJobStateChanged
  | .registerNamespace | .listNamespaces | .describeNamespace => .namespaceOperation
  | .cascadeDisable => .cascadeDisable
  | .keyDestroyed | .providerDestroyKey | .keyDestructionRefused | .keyDestructionRetried
  | .keyDestructionDeferred => .keyDeleted
  | .accessSecret | .getKeyMaterial => .secretAccess
  | .scopeOwnerCheck => .scopeOwnerCheck
  | .makeKeyExportable | .revokeKeyExportability => .keyStateChanged

/-- A principal's attribute, when it is a string. -/
def stringAttribute (principal : Principal) (name : String) : Option String :=
  match principal.attributes.get? name with
  | some (.string text) => some text
  | _ => none

def principalTenant (principal : Principal) : Option String :=
  if principal.attributes.containsKey "tenant_id" then stringAttribute principal "tenant_id"
  else stringAttribute principal "domain_id"

def deletionMetadata (ctx : OpContext) : List (String × AuditValue) :=
  if ctx.action = .scheduleKeyDeletion then
    ("allow_dependent_data_loss", .flag ctx.allowDependentDataLoss) ::
      ctx.approvedDeletionEdges.toList.map fun edges => ("approved_dependents", .dependents edges)
  else []

/-- `format!("{code:?}")`. -/
def codeName : Code → String
  | .ok => "Ok"
  | .cancelled => "Cancelled"
  | .unknown => "Unknown"
  | .invalidArgument => "InvalidArgument"
  | .deadlineExceeded => "DeadlineExceeded"
  | .notFound => "NotFound"
  | .alreadyExists => "AlreadyExists"
  | .permissionDenied => "PermissionDenied"
  | .resourceExhausted => "ResourceExhausted"
  | .failedPrecondition => "FailedPrecondition"
  | .aborted => "Aborted"
  | .outOfRange => "OutOfRange"
  | .unimplemented => "Unimplemented"
  | .internal => "Internal"
  | .unavailable => "Unavailable"
  | .dataLoss => "DataLoss"
  | .unauthenticated => "Unauthenticated"

def authorizationMetadata : Option Code → List (String × AuditValue)
  | some code => [("failure_phase", .text "authorization"),
      ("authorization_status", .text (codeName code))]
  | none => []

def operationEvent (ctx : OpContext) (result : AuditResult) (eventTypeOverride : Option EventType)
    (authorizationStatus : Option Code) : OperationEvent where
  eventType := eventTypeOverride.getD (eventTypeForAction ctx.action)
  action := ctx.action
  principal := ⟨ctx.principal.id, ctx.principal.principalType⟩
  resource := ⟨ctx.resourceId, ctx.resourceType⟩
  result
  encryptionContextHash := ctx.encryptionContextHash
  tenant := principalTenant ctx.principal
  project := stringAttribute ctx.principal "project_id"
  requestId := some ctx.requestId
  metadata := deletionMetadata ctx ++ authorizationMetadata authorizationStatus

def emitOperationAudit (ctx : OpContext) (result : AuditResult)
    (eventTypeOverride : Option EventType) (authorizationStatus : Option Code) :
    Handler OwnReply ε Unit :=
  emitEvent (operationEvent ctx result eventTypeOverride authorizationStatus)

/-- An unavailable decision point or an invalid response is not a policy decision. -/
def emitAuthorizationFailure (ctx : OpContext) (code : Code) : Handler OwnReply ε Unit :=
  if code = .permissionDenied then
    emitOperationAudit ctx .denied (some .authorizationDenied) (some code)
  else emitOperationAudit ctx .error none (some code)

/-- The loop of `authorize`, from the request with the given index. -/
def authorizeFrom (ctx : OpContext) : Nat → List AuthzRequest → Handler OwnReply Status Unit
  | _, [] => return ()
  | index, request :: rest => do
    match ← ExceptT.lift (authorizeRequest request).run with
    | .ok () => authorizeFrom ctx (index + 1) rest
    | .error error =>
      -- name the second permission that was refused
      if index = 1 then
        let unused ← Handler.call .newRequestId
        emitAuthorizationFailure { OpContext.key request.action ctx.principal request.resource.id
          unused with
            requestId := ctx.requestId
            encryptionContextHash := ctx.encryptionContextHash } error.code
        throw error
      else throw error

def authorize (ctx : OpContext) : Handler OwnReply Status Unit := do
  let requests ← authorizationRequests ctx
  authorizeFrom ctx 0 requests

/-! ### Execution -/

/-- How an operation ended. -/
structure Ended (ε α : Type) where
  -- `none`: it panicked
  outcome : Option (Except ε α)
  -- what it left in the context for the audit of its outcome
  approvedDeletionEdges : Option (List DestructionDependent)

/-- Drive an authorized operation to its end and audit the outcome; a failed audit
    fails the operation. -/
def completeWith (operation : ServiceProg OwnReply (Ended ε α)) (failure : ε → AuditResult)
    (audit : Option (List DestructionDependent) → AuditResult → Handler OwnReply ε Unit) :
    ServiceProg OwnReply (Option (Except ε α)) := do
  let ended ← operation
  let result := match ended.outcome with
    | some (.ok _) => .success
    | some (.error e) => failure e
    | none => .error
  let audited ← (audit ended.approvedDeletionEdges result).run
  return match ended.outcome, audited with
    | some outcome, .ok () => some outcome
    | some _, .error e => some (.error e)
    | none, _ => none

def complete (ctx : OpContext) (operation : Prog Own OwnReply (Ended ε α)) :
    ServiceProg OwnReply (Option (Except ε α)) :=
  completeWith (ownPart operation) (fun _ => .error) fun edges result =>
    emitOperationAudit { ctx with approvedDeletionEdges := edges.or ctx.approvedDeletionEdges }
      result none none

def operationFailed : Status := .internal "operation failed"

/-- Report a refused authorization, or go on with the operation. -/
def authorized (ctx : OpContext) (authorization : Handler OwnReply Status Unit)
    (rest : ServiceProg OwnReply (Option (Except Status α))) :
    ServiceProg OwnReply (Except Status α) := do
  match ← authorization.run with
  | .error denied =>
    let _ ← (emitAuthorizationFailure ctx denied.code : Handler OwnReply Status Unit).run
    return .error denied
  | .ok () =>
    let outcome ← rest
    return outcome.getD (.error operationFailed)

/-- The single entry point for authorized and audited operations. -/
def execute (ctx : OpContext) (operation : Prog Own OwnReply (Ended Status α)) :
    ServiceProg OwnReply (Except Status α) :=
  authorized ctx (authorize ctx) (complete ctx operation)

/-- The operation and its audit in a task of their own. -/
def runDetached (ctx : OpContext) (operation : Prog Own OwnReply (Ended ε α)) :
    ServiceProg OwnReply (Option (Except ε α)) := do
  let outcome ← complete ctx operation
  let joined ← ask .joinTask
  return if joined then outcome else none

/-- `execute` for an operation whose effects must not stop halfway. -/
def executeDetached (ctx : OpContext) (operation : Prog Own OwnReply (Ended Status α)) :
    ServiceProg OwnReply (Except Status α) :=
  authorized ctx (authorize ctx) (runDetached ctx operation)

def dedicatedExecutor : Status :=
  .internal "operation requires its dedicated authorization executor"

/-- Authorize with explicit resource attributes: one resource only. -/
def authorizeWithResourceAttrs (ctx : OpContext) (resourceAttrs : PdpAttributes) :
    Handler OwnReply Status Unit := do
  liftM (refuseIf (ctx.action ∈ [AuditAction.reEncryptFrom, .reEncryptTo, .rewrapKey,
      .scheduleKeyDeletionWithDependentDataLoss] ∨ ctx.reEncryptDestination.isSome ∨
      ctx.allowDependentDataLoss) dedicatedExecutor)
  let context ← liftM ctx.authorizationContext
  let request := ctx.request context
  authorizeRequest
    { request with resource := { request.resource with attributes := resourceAttrs } }

def executeWithResourceAttrs (ctx : OpContext) (resourceAttrs : PdpAttributes)
    (operation : Prog Own OwnReply (Ended Status α)) : ServiceProg OwnReply (Except Status α) :=
  authorized ctx (authorizeWithResourceAttrs ctx resourceAttrs) (complete ctx operation)

end

/-! ### Migrations -/

/-- What the migration executor calls, apart from what the service shares. -/
inductive RewrapOpCall where
  | tryAcquireTask
  | prepareMigrationWithConditions (child : Lid) (newParent : Option Lid) (operation : Uuid)
      (conditions : MigrationConditions)
  | getKeyForUse (lid : Lid)
  | rewrapKey (migration : MigrationRequest)
  | getMigration (operation : Uuid)

@[reducible] def RewrapOpCall.Reply : RewrapOpCall → Type
  | .tryAcquireTask => Bool
  | .prepareMigrationWithConditions _ _ _ _ => Except DomainError MigrationRequest
  | .getKeyForUse _ => Except KeyRackError KeyRecord
  | .rewrapKey _ => Except DomainError KeyRecord
  | .getMigration _ => Except KeyRackError (Option MigrationJournal)

abbrev RewrapOp : Type → Type := Handler RewrapOpCall.Reply DomainError

/-- `….await.map_err(DomainError::from)?` -/
def RewrapOp.stored {α : Type} (reply : Except KeyRackError α) : RewrapOp α :=
  liftM (mapErr reply DomainError.core)

structure RewrapOptions where
  oldParentKeyId : String
  expectedChildRevision : Option Nat
  expectedOldParentRevision : Option Nat
  expectedNewParentRevision : Option Nat
  coveredVersions : List Nat

structure RewrapOutcome where
  record : KeyRecord
  result : MigrationResult

/-- An identifier that may be left out. -/
def parseOptionalLid (text message : String) : Except DomainError (Option Lid) :=
  if text.isEmpty then .ok none
  else mapErr ((Lid.parse text).map some) fun _ => .invalidArgument message

def RewrapOptions.conditions (options : RewrapOptions) (expectedOldParent : Option Lid) :
    MigrationConditions where
  expectedChildOcc := options.expectedChildRevision
  expectedOldParentOcc := options.expectedOldParentRevision
  expectedNewParentOcc := options.expectedNewParentRevision
  expectedOldParent
  coveredVersions := if options.coveredVersions.isEmpty then none else some options.coveredVersions

/-- The attributes of a key that takes part: its owner and its tags. -/
def participantAttributes (record : KeyRecord) : PdpAttributes :=
  let owner := record.ownerPrincipalId.toList.map fun owner =>
    ("owner_principal_id", PdpValue.string owner)
  let tags := record.userTags.entries.map fun (name, value) =>
    ("tag:" ++ name, PdpValue.string value)
  .ofList (owner ++ tags)

/-- The question about one key that takes part in a migration. -/
def migrationRequest (ctx : OpContext) (operationId role : String) (current : KeyRecord)
    (requestId : String) : AuthzRequest where
  pdpApiVersion := pdpApiVersion
  requestId
  action := .rewrapKey
  principal := ctx.principal
  resource := ⟨current.lid.display, "Key", participantAttributes current⟩
  context := .ofList [("operation_request_id", .string ctx.requestId),
    ("operation_id", .string operationId), ("migration_role", .string role)]

/-- One round of the loop over the keys that take part. -/
def authorizeParticipant (ctx : OpContext) (operationId role : String) (snapshot : KeyRecord) :
    RewrapOp Unit := do
  let current ← RewrapOp.stored (← Handler.call (.own (.getKeyForUse snapshot.lid)))
  enforceScopeForKeyOp current none (stringAttribute ctx.principal "scope") ctx.principal.id
    .rewrapKey
  let requestId ← Handler.call .newRequestId
  match ← ExceptT.lift
      (authorizeRequest (migrationRequest ctx operationId role current requestId)).run with
  | .ok () => return ()
  | .error error =>
    if error.code = .permissionDenied then
      throw (.permissionDenied (role ++ ": " ++ error.message))
    else throw (.internal (role ++ ": " ++ error.message))

/-- Duplicates are not collapsed: old and new parent are separate grants even when they
    are one logical key. -/
def participants (migration : MigrationRequest) : List (String × KeyRecord) :=
  [("child", migration.child), ("old_parent", migration.oldParent),
    ("new_parent", migration.newParent)]

def authorizeParticipants (ctx : OpContext) (operationId : String) :
    List (String × KeyRecord) → RewrapOp Unit
  | [] => return ()
  | (role, snapshot) :: rest => do
    authorizeParticipant ctx operationId role snapshot
    authorizeParticipants ctx operationId rest

def invalidOperationId : DomainError := .invalidArgument "operation_id must be a non-nil UUID"

def receiptMissing : DomainError := .internal "committed migration receipt missing"

def rewrapAuthorized [UuidText] (ctx : OpContext) (newParentId operationId : String)
    (options : RewrapOptions) : RewrapOp RewrapOutcome := do
  let child ← liftM (mapErr (Lid.parse ctx.resourceId) fun _ =>
    DomainError.invalidArgument "invalid key_id")
  let newParent ← liftM (parseOptionalLid newParentId "invalid new_parent_key_id")
  let operation ← liftM (okOr (UuidText.parse operationId) invalidOperationId)
  liftM (refuseIf operation.isNil invalidOperationId)
  let expectedOldParent ← liftM (parseOptionalLid options.oldParentKeyId
    "invalid old_parent_key_id")
  let migration ← liftM (← Handler.call (.own (.prepareMigrationWithConditions child newParent
    operation (options.conditions expectedOldParent))))
  authorizeParticipants ctx operationId (participants migration)
  let record ← liftM (← Handler.call (.own (.rewrapKey migration)))
  let found ← RewrapOp.stored (← Handler.call (.own (.getMigration operation)))
  let journal ← liftM (okOr found receiptMissing)
  liftM (refuseIf (journal.phase ≠ .committed)
    (DomainError.internal "migration has no committed terminal result"))
  let result ← liftM (okOr journal.result receiptMissing)
  return ⟨record, result⟩

def rewrapEvent (ctx : OpContext) (operationId : String) (result : AuditResult) :
    OperationEvent where
  eventType := .keyStateChanged
  action := .rewrapKey
  principal := ⟨ctx.principal.id, ctx.principal.principalType⟩
  resource := ⟨ctx.resourceId, "Key"⟩
  result
  requestId := some ctx.requestId
  metadata := [("operation_id", .text operationId),
    ("migration_phase", .text (if result = .attempt then "attempt" else "outcome"))]

/-- A migration that cannot be audited fails. -/
def emitRewrapAudit (ctx : OpContext) (operationId : String) (result : AuditResult) :
    RewrapOp Unit := do
  let reply ← Handler.call (.emit (rewrapEvent ctx operationId result))
  liftM (mapErr reply DomainError.auditFailed)

def rewrapFailure : DomainError → AuditResult
  | .permissionDenied _ => .denied
  | _ => .error

/-- A panic ends the task's operation without a result. -/
def caught {α : Type} : Except DomainError α → Ended DomainError α
  | .error (.core .panicked) => ⟨none, none⟩
  | result => ⟨some result, none⟩

def executeRewrapWithOptions [UuidText] (principal : Principal)
    (requestId childId newParentId operationId : String) (options : RewrapOptions) :
    RewrapOp RewrapOutcome := do
  let _ ← Handler.call .newRequestId
  let ctx := OpContext.key .rewrapKey principal childId requestId
  emitRewrapAudit ctx operationId .attempt
  let slot ← Handler.call (.own .tryAcquireTask)
  if slot = false then
    emitRewrapAudit ctx operationId .error
    throw (.providerUnavailable "migration task limit reached; retry the same operation ID")
  else
    let operation : ServiceProg RewrapOpCall.Reply (Ended DomainError RewrapOutcome) := do
      let result ← (rewrapAuthorized ctx newParentId operationId options).run
      return caught result
    let outcome ← ExceptT.lift (completeWith operation rewrapFailure fun _ =>
      emitRewrapAudit ctx operationId)
    let joined ← Handler.call .joinTask
    if joined = false then throw .migrationTaskFailed
    else liftM (outcome.getD (.error (.internal "operation failed")))

end KeyRack.Service
