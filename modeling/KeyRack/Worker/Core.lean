import KeyRack.Core.Evidence
import KeyRack.Lib.Method
import KeyRack.Worker.Delivery

/-!
# The custody engine of a crypto worker

A worker serves one provider and one security domain under the authority that its
supervisor trusts. A signed grant admits one operation on one context: its sequence is
consumed first, then the key becomes resident if it is not, and the output is withheld
if the work has outlasted the permission. All operations take the worker by mutable
reference, so a worker executes one at a time; a failure keeps what was written before.

The clock, the source of the material, random bytes and the cipher are called; the
signature scheme, the hash and the JSON reader are parameters.
-/
namespace KeyRack.CryptoWorker

open Assoc Custody Encoding Fallible Process
open KeyRack.Worker (Authority Error State)

def maxInput : Nat := 16 * 1024

inductive Operation where
  | encrypt
  | decrypt
  deriving DecidableEq, Repr

structure Grant where
  worker : String
  principal : String
  contextSha256 : Digest
  operation : Operation
  inputSha256 : Digest
  generation : Nat
  sequence : Nat
  notBeforeMs : Nat
  expiresMs : Nat
  ancestorExpiresMs : Nat
  residencyUntilMs : Nat
  deriving DecidableEq

structure Fence where
  worker : String
  securityDomain : String
  generation : Nat
  expiresMs : Nat
  deriving DecidableEq

inductive AuthorityMessage where
  | grant (grant : Grant)
  | fence (fence : Fence)
  deriving DecidableEq

structure Signed where
  body : String
  signature : Bytes
  deriving DecidableEq

/-- How the body of a signed message is read. -/
class AuthorityJson where
  fromStr : String → Option AuthorityMessage

def signingDomain : Bytes := utf8 "KeyRack:UNAPPROVED-worker-harness-authority" ++ [0]

/-- Bytes of an exact number. -/
def toVector? (n : Nat) (bytes : Bytes) : Option (Vector UInt8 n) :=
  if size : bytes.length = n then some ⟨bytes.toArray, size⟩ else none

def saturatingAdd (a b : Nat) : Nat := min (a + b) u64Max

/-! ### The worker -/

structure Resident where
  key : Bytes
  lease : LeaseIdentity
  «until» : Nat
  uses : Nat
  deriving DecidableEq

/-- A local observation. -/
structure ResidencyCleanup where
  worker : String
  contextSha256 : Digest
  lease : U64
  event : String
  deriving DecidableEq

structure Limits where
  residentKeys : Nat
  residenceMs : Nat
  usesPerResidency : Nat
  authorityHorizonMs : Nat

/-- Trust at launch; no request changes it. -/
structure TrustConfig where
  authority : EvidenceKey
  initialGeneration : NonZeroU64
  observerIssuer : WrappingIdentifier
  observerKeyId : WrappingIdentifier

/-- What the launcher reserves for a creation. -/
structure CreationPlan where
  operation : Uuid
  attempt : Uuid
  owner : CreationOwner
  envelopeRef : String
  principal : String

inductive AttemptState where
  | ready
  | consumed
  | complete
  deriving DecidableEq, Repr

structure Reservation where
  plan : CreationPlan
  context : CustodyContext
  expected : RequestBinding
  state : AttemptState

structure Worker where
  «instance» : String
  providerRef : ProviderRef
  domain : String
  trust : TrustConfig
  observer : SigningKey
  limits : Limits
  generation : NonZeroU64
  fenced : Bool
  sequence : Nat
  nextLease : Nat
  resident : FiniteMap Digest Resident
  creation : Option Reservation

/-- A new incarnation, with its random identity and its observation key. -/
def newWithTrust (trust : TrustConfig) (providerRef : ProviderRef) (domain : String)
    (limits : Limits) (incarnation : Vector UInt8 32) (observer : SigningKey) :
    Except Error Worker := do
  let _ ← mapErr (WrappingIdentifier.new providerRef.name) fun _ => .context
  let _ ← mapErr (WrappingIdentifier.new domain) fun _ => .context
  refuseIf (limits.residentKeys = 0 ∨ limits.residenceMs = 0 ∨ limits.usesPerResidency = 0 ∨
    limits.authorityHorizonMs = 0 ∨ trust.initialGeneration.get.val = u64Max) .limit
  return {
    «instance» := String.ofList (base64 incarnation.toList), providerRef, domain, trust, observer
    limits, generation := trust.initialGeneration, fenced := false, sequence := 0, nextLease := 0
    resident := ∅, creation := none }

def Worker.executor (w : Worker) : Except Error ExecutorIncarnation := do
  let bytes ← okOr (unbase64 w.instance.toList) .context
  let bytes ← okOr (toVector? 32 bytes) .context
  mapErr (ExecutorIncarnation.new bytes) fun _ => .context

def Worker.creationAllowsUse (w : Worker) : Bool :=
  match w.creation with
  | none => true
  | some r => r.state == .complete

def contextDigest [Sha256] (context : WrappingContext) : Except Error Digest := do
  return Sha256.digest (← mapErr context.canonicalBytes fun _ => .context)

def Worker.verify [Ed25519] [AuthorityJson] (w : Worker) (signed : Signed) :
    Except Error AuthorityMessage := do
  refuseIf (signed.body.utf8ByteSize > 4096) .limit
  let signature ← okOr (toVector? 64 signed.signature) .authority
  refuseIf (Ed25519.verifyStrict w.trust.authority.key (signingDomain ++ utf8 signed.body)
    signature = false) .authority
  okOr (AuthorityJson.fromStr signed.body) .authority

/-- The grant is for this worker, this caller and exactly this request. -/
def Worker.authorizes [Sha256] (w : Worker) (grant : Grant) (principal : String)
    (context : WrappingContext) (operation : Operation) (input : Bytes) (binding : Digest) : Bool :=
  grant.worker == w.instance && grant.principal == principal && !principal.isEmpty &&
    decide (principal.utf8ByteSize ≤ 256) && grant.contextSha256 == binding &&
    grant.operation == operation && grant.inputSha256 == Sha256.digest input &&
    context.providerRef == w.providerRef && context.securityDomain.asStr == w.domain &&
    context.childSpec == .aes256 && context.keyFormat == .rawSecret &&
    context.purpose == .encryptDecrypt

/-- A grant is in time, and does not reach beyond the horizon. -/
def Limits.timely (limits : Limits) (grant : Grant) (now : Nat) : Bool :=
  decide (grant.notBeforeMs ≤ now) && decide (now < grant.expiresMs) &&
    decide (now < grant.ancestorExpiresMs) && decide (now < grant.residencyUntilMs) &&
    decide (grant.expiresMs ≤ saturatingAdd now limits.authorityHorizonMs)

/-! ### Calls -/

/-- What a worker calls. The lock is that of the transport, whose state it guards. -/
inductive WorkerCall where
  | millis
  | openMaterial (context : WrappingContext)
  | nonce
  | encrypt (key nonce message aad : Bytes)
  | decrypt (key nonce message aad : Bytes)
  | lock
  | unlock (state : State)
  | prepareGeneration (context : CustodyContext)
  | generateWrapped (context : CustodyContext) (envelopeRef : WrappingIdentifier)
  | activateGenerated
  | panic

/-- The replies; a panic has none. -/
@[reducible] def WorkerCall.Reply : WorkerCall → Type
  | .millis => Nat
  | .openMaterial _ => Except Error Bytes
  | .nonce => Vector UInt8 12
  | .encrypt _ _ _ _ | .decrypt _ _ _ _ => Option Bytes
  | .lock => State
  | .unlock _ => Unit
  | .prepareGeneration _ => Except Error Unit
  | .generateWrapped _ _ => Except Error CustodyMaterialDescriptor
  | .activateGenerated => Unit
  | .panic => Empty

abbrev WorkerM (α : Type) : Type := Method WorkerCall WorkerCall.Reply Error Worker α

abbrev WorkerCallEvent : Type := Event WorkerCall WorkerCall.Reply

abbrev call (c : WorkerCall) : WorkerM c.Reply := Method.ask c

def checkTime (grant : Grant) : WorkerM Unit := do
  let now ← call .millis
  let w ← get
  Method.check (refuseIf (w.limits.timely grant now = false) .expired)

/-! ### Residencies -/

/-- Drop a residency; the observation comes after the secret is gone. -/
def Worker.remove (w : Worker) (binding : Digest) : Option ResidencyCleanup × Worker :=
  match w.resident.lookup binding with
  | none => (none, w)
  | some resident =>
    (some ⟨w.instance, binding, resident.lease.counter.get, "local_secret_buffer_dropped"⟩,
      { w with resident := w.resident.erase binding })

def Worker.removeAll : List Digest → Worker → List ResidencyCleanup × Worker
  | [], w => ([], w)
  | binding :: bindings, w =>
    let (cleanup, w) := w.remove binding
    let (rest, w) := Worker.removeAll bindings w
    (cleanup.toList ++ rest, w)

/-- The lease must be the one that is resident, so that an old close does not evict a
    reopened entry. -/
def closeResidency (lease : LeaseIdentity) (binding : Digest) : WorkerM ResidencyCleanup := do
  let w ← get
  let executor ← Method.check w.executor
  Method.check (refuseIf (lease.executor ≠ executor ∨
    (w.resident.lookup binding).map (·.lease) ≠ some lease) .replay)
  let (cleanup, w) := w.remove binding
  set w
  Method.check (okOr cleanup .replay)

/-- Drop what is past its deadline. -/
def Worker.expireAt (w : Worker) (now : Nat) : List ResidencyCleanup × Worker :=
  Worker.removeAll ((w.resident.entries.filter fun entry => decide (now ≥ entry.2.until)).map (·.1))
    w

def expire : WorkerM (List ResidencyCleanup) := do
  let now ← call .millis
  let w ← get
  let (cleanups, w) := w.expireAt now
  set w
  return cleanups

/-! ### Execution -/

variable [Sha256] [Ed25519] [AuthorityJson]

def Operation.maxInput : Operation → Nat
  | .encrypt => CryptoWorker.maxInput
  | .decrypt => CryptoWorker.maxInput + 28

/-- The checks before any effect; the sequence is consumed at their end. -/
def accept (signed : Signed) (principal : String) (context : WrappingContext)
    (operation : Operation) (input : Bytes) : WorkerM (Grant × Digest) := do
  Method.check (refuseIf (input.length > operation.maxInput) .limit)
  let w ← get
  let message ← Method.check (w.verify signed)
  match message with
  | .fence _ => throw .authority
  | .grant grant => do
    let binding ← Method.check (contextDigest context)
    Method.check (refuseIf (w.authorizes grant principal context operation input binding = false)
      .authority)
    checkTime grant
    let w ← get
    Method.check (refuseIf (w.creationAllowsUse = false) .material)
    Method.check (refuseIf (w.fenced = true ∨ grant.generation ≠ w.generation.get.val ∨
      grant.sequence ≤ w.sequence) .replay)
    set { w with sequence := grant.sequence }
    return (grant, binding)

/-- Begin a residency, under a lease of its own. -/
def openResidency (grant : Grant) (context : WrappingContext) (binding : Digest) :
    WorkerM Unit := do
  let w ← get
  Method.check (refuseIf (w.resident.size ≥ w.limits.residentKeys) .limit)
  let now ← call .millis
  let opened ← call (.openMaterial context)
  let key ← Method.check opened
  Method.check (refuseIf (key.length ≠ 32) .material)
  checkTime grant
  let w ← get
  let nextLease ← Method.check (okOr (checkedSucc w.nextLease) .limit)
  set { w with nextLease }
  let executor ← Method.check w.executor
  let counter ← Method.check (okOr (NonZeroU64.new (Fin.ofNat (2 ^ 64) nextLease)) .limit)
  let resident : Resident := {
    key, lease := ⟨executor, counter⟩
    «until» := min grant.residencyUntilMs (saturatingAdd now w.limits.residenceMs), uses := 0 }
  set { w with nextLease, resident := w.resident.insert binding resident }

/-- Make the key resident, if it is not. -/
def materialize (grant : Grant) (context : WrappingContext) (binding : Digest) :
    WorkerM Unit := do
  let w ← get
  if (w.resident.lookup binding).isSome = true then return ()
  else openResidency grant context binding

/-- The operation itself, under a key of 32 bytes. -/
def cipher (key aad : Bytes) (operation : Operation) (input : Bytes) : WorkerM Bytes := do
  match operation with
  | .encrypt => do
    let nonce ← call .nonce
    let encrypted ← call (.encrypt key nonce.toList input aad)
    let encrypted ← Method.check (okOr encrypted .crypto)
    return nonce.toList ++ encrypted
  | .decrypt => do
    Method.check (refuseIf (input.length < 28) .crypto)
    let decrypted ← call (.decrypt key (input.take 12) (input.drop 12) aad)
    Method.check (okOr decrypted .crypto)

/-- Count the use, and perform it. -/
def operate (context : WrappingContext) (binding : Digest) (operation : Operation)
    (input : Bytes) : WorkerM Bytes := do
  let w ← get
  let resident ← Method.check (okOr (w.resident.lookup binding) .material)
  let now ← call .millis
  if now ≥ resident.until then do
    let _ ← closeResidency resident.lease binding
    throw .expired
  else do
    Method.check (refuseIf (resident.uses ≥ w.limits.usesPerResidency) .limit)
    let resident := { resident with uses := resident.uses + 1 }
    set { w with resident := w.resident.insert binding resident }
    Method.check (refuseIf (resident.key.length ≠ 32) .crypto)
    let aad ← Method.check (mapErr context.canonicalBytes fun _ => Error.context)
    cipher resident.key aad operation input

/-- `self.resident[&binding]`, which panics if there is no entry. -/
def residentAt (binding : Digest) : WorkerM Resident := do
  let w ← get
  match w.resident.lookup binding with
  | some resident => return resident
  | none => do
    let never ← call .panic
    nomatch never

/-- The permission must not have ended meanwhile. -/
def stillPermitted (grant : Grant) (binding : Digest) : WorkerM Unit := do
  checkTime grant
  let now ← call .millis
  let resident ← residentAt binding
  if now ≥ resident.until then do
    let _ ← closeResidency resident.lease binding
    throw .expired

def execute (signed : Signed) (principal : String) (context : WrappingContext)
    (operation : Operation) (input : Bytes) : WorkerM Bytes := do
  let _ ← expire
  let (grant, binding) ← accept signed principal context operation input
  materialize grant context binding
  let output ← operate context binding operation input
  stillPermitted grant binding
  return output

def executeForDelivery (signed : Signed) (principal : String) (context : WrappingContext)
    (operation : Operation) (input : Bytes) : WorkerM (Authority × Bytes) := do
  let output ← execute signed principal context operation input
  let w ← get
  let message ← Method.check (w.verify signed)
  match message with
  | .fence _ => throw .authority
  | .grant g => do
    let binding ← Method.check (contextDigest context)
    let resident ← Method.check (okOr (w.resident.lookup binding) .expired)
    let expires := min (min (min g.expiresMs g.ancestorExpiresMs) g.residencyUntilMs) resident.until
    return (⟨g.worker, g.generation, g.sequence, Sha256.digest (utf8 signed.body), g.notBeforeMs,
      expires⟩, output)

end KeyRack.CryptoWorker
