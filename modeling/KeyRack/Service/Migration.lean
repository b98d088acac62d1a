import KeyRack.Core.Registry
import KeyRack.Lib.Process
import KeyRack.Sqlite.Reads

/-!
# Rewrapping a key

The journaled migration of every version of one key, as a program of storage and
provider calls. A caller executes or recovers its intent under an ownership epoch:
a reserved journal is dispatched, a staged one only committed and a committed one
read. Callers of one process are also serialized per operation, which only takes
interleavings away; the program below is what each of them runs.
-/
namespace KeyRack.Service

open Fallible Process Sqlite

inductive DomainError where
  | invalidArgument (message : String)
  | permissionDenied (message : String)
  | internal (message : String)
  | failedPrecondition (message : String)
  -- `FailedPrecondition` with the text of an error
  | refused (cause : KeyRackError)
  | invalidChild (cause : WrappingError)
  | cannotRewrap (cause : WrappingError)
  -- `FailedPrecondition("provider '…' cannot wrap child keys: …")`
  | cannotWrap (provider : ProviderRef) (cause : KeyRackError)
  | providerUnavailable (message : String)
  -- `PermissionDenied("backend_id '…' is not permitted by the delegate rule (allowed: …)")`
  | notDelegated (backend : String) (allowed : List ProviderRef)
  -- `Internal("migration audit failed: …")`
  | auditFailed (cause : KeyRackError)
  -- `Internal("migration task failed: …")`
  | migrationTaskFailed
  -- `DomainError::from`, whose variant is a function of the error
  | core (e : KeyRackError)
  deriving DecidableEq

/-! ### The deployment -/

/-- The activated wrapping profile of a provider. -/
structure WrappingProfile where
  securityDomain : WrappingIdentifier
  mechanism : WrappingIdentifier
  deriving DecidableEq

/-- What the provider instances declare of themselves. -/
structure Providers where
  wrappingCapabilities : Nat → WrappingCapabilities
  rewrapIsRetrySafe : Nat → Bool

/-- One service instance: its profiles and its provider registry. -/
structure ServiceState where
  wrapping : ProviderRef → Option WrappingProfile
  resolve : ProviderRef → Except KeyRackError ProviderEntry

/-- One version, ready to be rewrapped. -/
structure Prepared where
  provider : Nat
  oldContext : WrappingContext
  newContext : WrappingContext
  oldParent : KeyHandle
  newParent : KeyHandle

def context (record : KeyRecord) (version : KeyVersionRecord) (parent : KeyRecord) :
    Except DomainError WrappingContext :=
  match version.material with
  | .providerResident _ _ => .error (.failedPrecondition "every child version must be wrapped")
  | .parentWrapped material => do
    let child ← mapErr (VersionedKeyId.new record.lid version.versionNumber) .invalidChild
    return {
      version := material.wrappingContextVersion
      child
      parent := material.parent
      parentSpec := parent.keySpec
      childSpec := record.keySpec
      keyFormat := material.keyFormat
      -- whatever the key's own usage is
      purpose := .encryptDecrypt
      providerRef := material.providerRef
      securityDomain := material.securityDomain
      mechanism := material.mechanism
      publicMaterialSha256 := none }

/-- The handle of the parent version that a context names. -/
def parentHandle (parent : KeyRecord) (context : WrappingContext) (message : String) :
    Except DomainError KeyHandle := do
  let version ← okOr (parent.getVersion context.parent.version) (.failedPrecondition message)
  mapErr version.residentHandle .core

section
variable (providers : Providers) (state : ServiceState)

def prepareVersion (request : MigrationRequest) (old new : KeyVersionRecord) :
    Except DomainError Prepared := do
  let oldContext ← context request.child old request.oldParent
  let newContext ← context request.proposed new request.newParent
  let profile ← okOr (state.wrapping oldContext.providerRef)
    (.failedPrecondition "provider has no activated wrapping profile")
  refuseIf (profile.securityDomain ≠ oldContext.securityDomain ∨
      profile.mechanism ≠ oldContext.mechanism)
    (.failedPrecondition "migration security domain or mechanism differs from configured profile")
  let entry ← mapErr (state.resolve oldContext.providerRef) .core
  checkAll [oldContext, newContext] fun context =>
    mapErr ((providers.wrappingCapabilities entry.provider).require
      (.requested context .rewrap .sessionObject)) .cannotRewrap
  let oldParent ← parentHandle request.oldParent oldContext "old parent version missing"
  let newParent ← parentHandle request.newParent newContext "new parent version missing"
  return ⟨entry.provider, oldContext, newContext, oldParent, newParent⟩

/-- Capability and deployment checks of every version, before anything is reserved. -/
def prepare (request : MigrationRequest) : Except DomainError (List Prepared) :=
  (request.child.keyVersions.zip request.proposed.keyVersions).mapM fun (old, new) =>
    prepareVersion providers state request old new

end

variable [UuidText] [Blake3] [IntentEncoding]

/-! ### Calls -/

inductive RewrapCall where
  | getMigration (operation : Uuid)
  | reserveMigration (request : MigrationRequest)
  | claimMigration (operation owner : Uuid) (expectedEpoch : Nat)
  | beginMigrationDispatch (operation : Uuid) (ownership : MigrationOwnership) (retrySafe : Bool)
  | stageMigration (operation : Uuid) (ownership : MigrationOwnership) (envelopes : List Bytes)
  | commitMigration (operation : Uuid) (ownership : MigrationOwnership)
  | readCreationEnvelope (operation : Uuid)
  | readMigrationEnvelope (operation : Uuid) (version : Nat)
  | rewrapWrappedKey (version : Prepared) (envelope : Bytes)
  | newV4

namespace RewrapCall

@[reducible] def Value : RewrapCall → Type
  | .getMigration _ => Option MigrationJournal
  | .reserveMigration _ => MigrationJournal
  | .claimMigration _ _ _ => MigrationJournal
  | .beginMigrationDispatch _ _ _ => MigrationJournal
  | .stageMigration _ _ _ => MigrationJournal
  | .commitMigration _ _ => KeyRecord
  | .readCreationEnvelope _ => Bytes
  | .readMigrationEnvelope _ _ => Bytes
  | .rewrapWrappedKey _ _ => Bytes
  | .newV4 => Uuid

abbrev Reply (c : RewrapCall) : Type := Except KeyRackError c.Value

end RewrapCall

abbrev Rewrap : Type → Type := ExceptT DomainError (Prog RewrapCall RewrapCall.Reply)

abbrev Rewrap.tryCall (c : RewrapCall) : Rewrap c.Reply := observe c

/-- `….await.map_err(DomainError::from)?` -/
def Rewrap.call (c : RewrapCall) : Rewrap c.Value := do
  let reply ← Rewrap.tryCall c
  liftM (mapErr reply DomainError.core)

/-! ### The program -/

def notJournaled : DomainError :=
  .failedPrecondition "wrapped envelope reference is not journaled"

/-- Read exactly the envelope that a stored descriptor names. -/
def readEnvelope (reference : String) : Rewrap Bytes :=
  match (reference.toList.dropPrefix? "creation:".toList).bind
      fun operation => UuidText.parse (String.ofList operation) with
  | some operation => Rewrap.call (.readCreationEnvelope operation)
  | none =>
    match (reference.toList.dropPrefix? "migration:".toList).bind (Text.splitOnce ':') with
    | some (operation, version) =>
      match UuidText.parse (String.ofList operation), Text.parseDecimal u64Max version with
      | some operation, some version => Rewrap.call (.readMigrationEnvelope operation version)
      | _, _ => throw notJournaled
    | none => throw notJournaled

def readEnvelopes : List KeyVersionRecord → Rewrap (List Bytes)
  | [] => return []
  | version :: rest => do
    -- `unreachable!`: the request was validated
    let material ← liftM (okOr version.material.wrapped? (DomainError.core .panicked))
    let envelope ← readEnvelope material.wrappedMaterialRef.asStr
    let envelopes ← readEnvelopes rest
    return envelope :: envelopes

def rewrapVersions : List (Bytes × Prepared) → Rewrap (List Bytes)
  | [] => return []
  | (envelope, version) :: rest => do
    let rewrapped ← Rewrap.call (.rewrapWrappedKey version envelope)
    let envelopes ← rewrapVersions rest
    return rewrapped :: envelopes

/-- Claim the journal for a new owner, against the epoch that was read. -/
def takeOver (operation : Uuid) (epoch : Nat) : Rewrap MigrationJournal := do
  let owner ← Rewrap.call .newV4
  Rewrap.call (.claimMigration operation owner epoch)

section
variable (providers : Providers)

/-- The provider effects of a reserved journal, up to their staging. -/
def dispatchRewrap (request : MigrationRequest) (prepared : List Prepared)
    (ownership : MigrationOwnership) : Rewrap Unit := do
  -- once the marker is stored, even a lost response is an unknown outcome
  let oldEnvelopes ← readEnvelopes request.child.keyVersions
  let retrySafe := prepared.all fun version => providers.rewrapIsRetrySafe version.provider
  let _ ← Rewrap.call (.beginMigrationDispatch request.operation ownership retrySafe)
  let envelopes ← rewrapVersions (oldEnvelopes.zip prepared)
  let _ ← Rewrap.call (.stageMigration request.operation ownership envelopes)
  return ()

variable (state : ServiceState)

/-- Reserve, take over, dispatch and commit. -/
def executeMigration (request : MigrationRequest) : Rewrap KeyRecord := do
  let prepared ← liftM (prepare providers state request)
  let journal ← Rewrap.call (.reserveMigration request)
  if journal.phase = .committed then
    return journal.request.proposed
  else
    let journal ← takeOver request.operation journal.epoch
    let ownership ← liftM (mapErr journal.ownership DomainError.core)
    -- the phase is the one found under the new epoch
    if journal.phase = .reserved then
      dispatchRewrap providers request prepared ownership
      Rewrap.call (.commitMigration request.operation ownership)
    else
      Rewrap.call (.commitMigration request.operation ownership)

def runMigration (request : MigrationRequest) : Rewrap KeyRecord := do
  liftM (mapErr request.validate DomainError.refused)
  match ← Rewrap.call (.getMigration request.operation) with
  | none => executeMigration providers state request
  | some journal =>
    let same ← liftM (mapErr (journal.request.sameIntent request) DomainError.core)
    liftM (refuseIf (same = false) (DomainError.failedPrecondition
      "operation_id already names different migration intent"))
    match journal.phase with
    | .committed => return journal.request.proposed
    | .staged =>
      let owned ← takeOver request.operation journal.epoch
      let ownership ← liftM (mapErr owned.ownership DomainError.core)
      Rewrap.call (.commitMigration request.operation ownership)
    | .reserved => executeMigration providers state request

/-- The first reservation owns the proposal's timestamp. -/
def retimed (request : MigrationRequest) : Option MigrationJournal → MigrationRequest
  | some journal =>
    { request with
      proposed := { request.proposed with updatedAt := journal.request.proposed.updatedAt } }
  | none => request

/-- The journal holds this very intent; an error of the comparison counts as no. -/
def sameIntentOrNot (journal : MigrationJournal) (request : MigrationRequest) : Bool :=
  match journal.request.sameIntent request with
  | .ok same => same
  | .error _ => false

/-- A failed caller may read a committed result, but acts no more. -/
def afterFailure (request : MigrationRequest) (e : DomainError) : Rewrap KeyRecord := do
  match ← Rewrap.tryCall (.getMigration request.operation) with
  | .ok (some journal) =>
    if sameIntentOrNot journal request then
      if journal.phase = .committed then return journal.request.proposed
      else if journal.dispatch.any fun dispatch => !dispatch.retrySafe then
        throw (.providerUnavailable
          "unknown migration provider outcome requires reconciliation; reservation retained")
      else throw (.providerUnavailable "migration remains pending; retry the same operation ID")
    else throw e
  | _ => throw e

def rewrapKey (request : MigrationRequest) : Rewrap KeyRecord := do
  let journal ← Rewrap.call (.getMigration request.operation)
  let request := retimed request journal
  match ← ExceptT.lift (runMigration providers state request).run with
  | .ok record => return record
  | .error e => afterFailure request e

end

/-! ### Its surroundings -/

/-- The storage operation behind a call, and the form of its reply. -/
inductive RewrapCall.Stores : (c : RewrapCall) → Op → (c.Value → Sqlite.Reply) → Prop where
  | reserve (request : MigrationRequest) :
      Stores (.reserveMigration request) (.reserveMigration request) .migration
  | claim (operation owner : Uuid) (expectedEpoch : Nat) :
      Stores (.claimMigration operation owner expectedEpoch)
        (.claimMigration operation owner expectedEpoch) .migration
  | dispatch (operation : Uuid) (ownership : MigrationOwnership) (retrySafe : Bool) :
      Stores (.beginMigrationDispatch operation ownership retrySafe)
        (.beginMigrationDispatch operation ownership retrySafe) .migration
  | stage (operation : Uuid) (ownership : MigrationOwnership) (envelopes : List Bytes) :
      Stores (.stageMigration operation ownership envelopes)
        (.stageMigration operation ownership envelopes) .migration
  | commit (operation : Uuid) (ownership : MigrationOwnership) :
      Stores (.commitMigration operation ownership) (.commitMigration operation ownership) .record

/-- The read behind a call, on the tables as they are. -/
inductive RewrapCall.Reads (db : Db) : (c : RewrapCall) → c.Reply → Prop where
  | migration (operation : Uuid) : Reads db (.getMigration operation) (Migration.load db operation)
  | creationEnvelope (operation : Uuid) :
      Reads db (.readCreationEnvelope operation) (Creation.committedEnvelope db operation)
  | migrationEnvelope (operation : Uuid) (version : Nat) :
      Reads db (.readMigrationEnvelope operation version)
        (Migration.migrationRead db operation version)

inductive RewrapCall.Answers (db : Db) : (c : RewrapCall) → c.Reply → Db → Prop where
  | storage (c : RewrapCall) (op : Op) (form : c.Value → Sqlite.Reply) (reply : c.Reply) (db' : Db)
      (stores : c.Stores op form) (attempt : Attempt op form db reply db') : Answers db c reply db'
  | read (c : RewrapCall) (value reply : c.Reply) (reads : c.Reads db value)
      (attempt : ReadAttempt value reply) : Answers db c reply db
  | provider (version : Prepared) (envelope : Bytes)
      (reply : RewrapCall.Reply (.rewrapWrappedKey version envelope)) :
      Answers db (.rewrapWrappedKey version envelope) reply db
  -- any identifier: nothing below rests on its being fresh
  | owner (owner : Uuid) : Answers db .newV4 (.ok owner) db

/-- Any number of callers with any intents, on any service instances over one
    backend, which others use as well. -/
def rewrapRules (ι : Type) (providers : Providers) :
    Rules Db ι RewrapCall RewrapCall.Reply (Except DomainError KeyRecord) Sqlite.Event where
  starts p := ∃ state request, p = (rewrapKey providers state request).run
  answers db _ c reply db' := c.Answers db reply db'
  drops db _ _ db' := db' = db
  environment db event db' := StorageStep db event db'

end KeyRack.Service
