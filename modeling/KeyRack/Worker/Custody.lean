import KeyRack.Worker.Core

/-!
# Revocation and creation evidence

A revocation is applied inside the critical section of the transport, so that no result
goes out after it; from then on the incarnation serves nothing. A creation runs under a
reservation that the launcher installs before any request. Its one attempt is consumed
before the source is asked, and its evidence leaves only if the grant still holds after.
-/
namespace KeyRack.CryptoWorker

open Custody Fallible Framing Process
open KeyRack.Worker (Error State)

variable [Sha256] [Ed25519]

/-! ### Revocation -/

def Worker.checkRevocation (w : Worker) (command : RevocationCommand) (now : Nat) :
    Except Error Unit := do
  let securityDomain ← mapErr (WrappingIdentifier.new w.domain) fun _ => .context
  let executor ← w.executor
  refuseIf (command.executor ≠ executor ∨ command.authority.issuer ≠ w.trust.authority.issuer ∨
    command.authority.scope ≠ .securityDomain w.providerRef securityDomain) .authority
  mapErr (command.validity.checkAt ⟨.executorMonotonicMilliseconds executor, now⟩)
    fun _ => .expired
  refuseIf (command.validity.notAfter.val > saturatingAdd now w.limits.authorityHorizonMs) .expired
  refuseIf (w.fenced = true ∨ command.authority.generation.get ≤ w.generation.get) .replay

/-- The leases that a receipt names: a bounded sample in the order of their counters. -/
def Worker.observedLeases (w : Worker) : List LeaseIdentity :=
  ((w.resident.values.map (·.lease)).mergeSort
    fun a b => decide (a.counter.get ≤ b.counter.get)).take maxReceiptLeases

/-- What the transport applies under its lock. All residencies go, not only the sample. -/
def applyRevocation (command : RevocationCommand) (now : Nat) :
    EStateM Error Worker (List LeaseIdentity) := do
  let w ← get
  Stateful.check (w.checkRevocation command now)
  set { w with generation := command.authority.generation, fenced := true, resident := ∅ }
  return w.observedLeases

/-- The key under which a worker signs its observations. -/
def Worker.observationKey (w : Worker) : EvidenceKey :=
  ⟨w.trust.observerIssuer, w.trust.observerKeyId, Ed25519.verifyingKey w.observer⟩

/-- Sign claims as this worker's observation. -/
def Worker.observe {α : Type} [EvidenceClaims α] (w : Worker) (claims : α) :
    Except Error (Evidence α) := do
  let signer := w.observationKey
  let unsigned : Evidence α := ⟨signer.issuer, signer.keyId, claims, Vector.replicate 64 0⟩
  let bytes ← mapErr unsigned.signingBytes fun _ => .material
  return { unsigned with signature := Ed25519.sign w.observer bytes }

/-- Read and authenticate a message of the authority. -/
def Worker.authenticated {α : Type} [EvidenceClaims α] (w : Worker) (bytes : Bytes) :
    Except Error (Evidence α × α) := do
  let evidence : Evidence α ← mapErr (fromCanonicalBytes bytes) fun _ => .authority
  let claims ← mapErr (evidence.authenticate w.trust.authority) fun _ => .authority
  return (evidence, claims)

def revoke (bytes : Bytes) : WorkerM (Evidence RevocationResult) := do
  let w ← get
  let (_, command) ← Method.check (w.authenticated (α := RevocationCommand) bytes)
  let s ← call .lock
  -- the closure reads the clock under the lock, if it comes to that
  let now ← call .millis
  match KeyRack.Worker.fence w.instance command.authority.generation.get.val
    (applyRevocation command now) (w, s) with
  | .error e (w, s) => do
    set w
    call (.unlock s)
    throw e
  | .ok (observedLeases, inFlight) (w, s) => do
    set w
    call (.unlock s)
    let executor ← Method.check w.executor
    let commandSha256 ← Method.check (mapErr (sha256 command) fun _ => Error.authority)
    let claims : RevocationResult :=
      ⟨command.fence, executor, command.authority, commandSha256, inFlight, observedLeases⟩
    Method.check (mapErr (claims.checkCommand command) fun _ => Error.material)
    Method.check (w.observe claims)

/-! ### Creation -/

/-- The fixed development context. -/
def fixtureContext : WrappingContext where
  version := .v1
  child := ⟨⟨Vector.replicate 32 1⟩, 1, Nat.one_ne_zero⟩
  parent := ⟨⟨Vector.replicate 32 2⟩, 1, Nat.one_ne_zero⟩
  parentSpec := .aes256
  childSpec := .aes256
  keyFormat := .rawSecret
  purpose := .encryptDecrypt
  providerRef := ⟨"worker-development-fixture"⟩
  securityDomain := ⟨"development-only", by decide +kernel⟩
  mechanism := ⟨"unapproved-worker-test-adapter", by decide +kernel⟩
  publicMaterialSha256 := none

def fixtureProfile : CustodyProfile :=
  ⟨.trustedHostWorkerMemory, "UNQUALIFIED-vault-derived-worker-fixture-v1", by decide +kernel⟩

/-- The transcript of a request, behind a domain of its own. -/
def CreationPlan.binding (plan : CreationPlan) (executor : ExecutorIncarnation)
    (context : CustodyContext) : Except Error RequestBinding := do
  refuseIf (plan.operation.isNil = true ∨ plan.attempt.isNil = true ∨
    plan.owner.instance.isNil = true ∨ plan.owner.generation = 0) .context
  let _ ← mapErr (WrappingIdentifier.new plan.envelopeRef) fun _ => .context
  let _ ← mapErr (WrappingIdentifier.new plan.principal) fun _ => .context
  let contextSha256 ← mapErr (sha256 context) fun _ => .context
  let bytes := utf8 "KeyRack:PROPOSED-worker-generate-request-v1" ++ [0] ++
    contextSha256.toList ++ Custody.Uuid.asBytes plan.operation ++
    Custody.Uuid.asBytes plan.attempt ++ Custody.Uuid.asBytes plan.owner.instance ++
    bigEndian 8 plan.owner.generation ++
    bigEndian 4 plan.envelopeRef.utf8ByteSize ++ utf8 plan.envelopeRef ++
    bigEndian 4 plan.principal.utf8ByteSize ++ utf8 plan.principal ++ bigEndian 2 256
  return ⟨plan.operation, plan.attempt, executor, contextSha256, Sha256.digest bytes⟩

/-- One reservation for each incarnation, before any request. -/
def reserveCreation (plan : CreationPlan) (context : CustodyContext) : WorkerM Unit := do
  let w ← get
  Method.check (refuseIf (w.creation.isSome = true ∨ w.sequence ≠ 0 ∨ w.fenced = true) .replay)
  Method.check (mapErr (context.requireProfile [fixtureProfile]) fun _ => Error.context)
  Method.check (refuseIf (context.wrapping ≠ fixtureContext ∨
    context.wrapping.providerRef ≠ w.providerRef ∨
    context.wrapping.securityDomain.asStr ≠ w.domain) .context)
  let executor ← Method.check w.executor
  let expected ← Method.check (plan.binding executor context)
  set { w with creation := some ⟨plan, context, expected, .ready⟩ }

/-- The grant is for the reserved request and holds at the first reading; the second one
    bounds how far it reaches. -/
def Worker.creationGranted (w : Worker) (grant : AuthorityGrant) (now now' : Nat) :
    Except Error Unit := do
  let r ← okOr w.creation .context
  let authority : AuthorityIdentity := ⟨w.trust.authority.issuer,
    .securityDomain r.context.wrapping.providerRef r.context.wrapping.securityDomain, w.generation⟩
  refuseIf (grant.authority ≠ authority) .authority
  let principal ← mapErr (WrappingIdentifier.new r.plan.principal) fun _ => .context
  mapErr (grant.checkRequest r.expected r.context principal .generateWrapped
    ⟨.executorMonotonicMilliseconds r.expected.executor, now⟩) fun _ => .authority
  refuseIf (grant.validity.notAfter.val > saturatingAdd now' w.limits.authorityHorizonMs) .expired
  refuseIf (w.fenced = true) .replay

/-- The clock is read as the checks come to it, which nothing else depends on. -/
def checkCreation (grant : AuthorityGrant) : WorkerM Unit := do
  let now ← call .millis
  let now' ← call .millis
  let w ← get
  Method.check (w.creationGranted grant now now')

structure CreationEvidence where
  grant : Evidence AuthorityGrant
  result : Evidence CreationResult
  material : CustodyMaterialDescriptor

/-- The observation of a creation that the source has performed. -/
def Worker.creationResult (w : Worker) (r : Reservation) (material : CustodyMaterialDescriptor) :
    Except Error (Evidence CreationResult) := do
  refuseIf (material.context ≠ r.context ∨ material.envelopeRef.asStr ≠ r.plan.envelopeRef)
    .material
  let materialSha256 ← mapErr (sha256 material) fun _ => .material
  let claims : CreationResult :=
    ⟨r.expected, r.plan.owner, materialSha256, .nativeWrappedOnlyGenerated⟩
  mapErr (claims.checkAttempt r.expected r.plan.owner material) fun _ => .material
  w.observe claims

def generate (bytes : Bytes) : WorkerM CreationEvidence := do
  let w ← get
  let (evidence, grant) ← Method.check (w.authenticated (α := AuthorityGrant) bytes)
  checkCreation grant
  let w ← get
  let r ← Method.check (okOr w.creation .context)
  Method.check (refuseIf (r.state ≠ .ready ∨ grant.sequence.get.val ≤ w.sequence) .replay)
  -- consumed before even the metadata is read
  set { w with creation := some { r with state := .consumed }, sequence := grant.sequence.get.val }
  let envelopeRef ← Method.check
    (mapErr (WrappingIdentifier.new r.plan.envelopeRef) fun _ => Error.context)
  let prepared ← call (.prepareGeneration r.context)
  Method.check prepared
  checkCreation grant
  let generated ← call (.generateWrapped r.context envelopeRef)
  let material ← Method.check generated
  checkCreation grant
  let w ← get
  let r ← Method.check (okOr w.creation .context)
  let result ← Method.check (w.creationResult r material)
  checkCreation grant
  let w ← get
  let r ← Method.check (okOr w.creation .context)
  set { w with creation := some { r with state := .complete } }
  call .activateGenerated
  return ⟨evidence, result, material⟩

end KeyRack.CryptoWorker
