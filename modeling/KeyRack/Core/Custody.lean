import KeyRack.Core.Creation

/-!
# The custody contract

The claims that a coordinator, its authority and an executor exchange, and their one
strict encoding. Every message carries a domain, a version and its kind; reading a
message encodes the result again, so that an accepted byte string has no alternative.
The hash is a parameter.
-/
namespace KeyRack

/-- A `u64`. -/
abbrev U64 : Type := Fin (2 ^ 64)

instance U64.neZero : NeZero (2 ^ 64) := ⟨by decide⟩

structure NonZeroU64 where
  get : U64
  nonzero : get ≠ 0
  deriving DecidableEq

def NonZeroU64.new (n : U64) : Option NonZeroU64 :=
  if nonzero : n ≠ 0 then some ⟨n, nonzero⟩ else none

class Sha256 where
  digest : Bytes → Digest

/-- What a fence found of the work in flight. -/
inductive InFlightDisposition where
  | drained
  | furtherReleaseBlocked
  deriving DecidableEq, Repr

namespace Custody

open Fallible Framing

def maxContractBytes : Nat := 65536

def maxReceiptLeases : Nat := 128

inductive ContractError where
  | encoding (cause : String)
  | binding (cause : String)
  | authentication
  | wrapping (e : WrappingError)
  deriving DecidableEq, Repr

/-! ### Claims -/

/-- Where the execution is placed; not an order of strength. -/
inductive ExecutionBoundary where
  | providerSessionObject
  | providerJournaledTemporaryObject
  | trustedHostWorkerMemory
  deriving DecidableEq, Repr

structure CustodyProfile where
  boundary : ExecutionBoundary
  id : WrappingIdentifier
  deriving DecidableEq

structure CustodyContext where
  wrapping : WrappingContext
  profile : CustodyProfile
  deriving DecidableEq

def CustodyContext.validate (context : CustodyContext) : Except ContractError Unit := do
  let _ ← mapErr context.wrapping.canonicalBytes .wrapping
  refuseIf (context.wrapping.child.lid = context.wrapping.parent.lid) (.binding "self parent")

/-- An exact allowlist, without any fallback. -/
def CustodyContext.requireProfile (context : CustodyContext) (qualified : List CustodyProfile) :
    Except ContractError Unit := do
  context.validate
  refuseIf (context.profile ∉ qualified) (.binding "unqualified custody profile")

/-- What names the wrapped material; the hash of its envelope is outside the context. -/
structure CustodyMaterialDescriptor where
  context : CustodyContext
  envelopeRef : WrappingIdentifier
  envelopeSha256 : Digest
  deriving DecidableEq

/-- The identity of one boot of an executor. -/
structure ExecutorIncarnation where
  bytes : Digest
  nonzero : bytes ≠ Vector.replicate 32 0
  deriving DecidableEq

def ExecutorIncarnation.new (bytes : Digest) : Except ContractError ExecutorIncarnation :=
  if nonzero : bytes ≠ Vector.replicate 32 0 then .ok ⟨bytes, nonzero⟩
  else .error (.binding "zero executor incarnation")

/-- An exact attempt and the executor it is meant for. -/
structure RequestBinding where
  operation : Uuid
  attempt : Uuid
  executor : ExecutorIncarnation
  contextSha256 : Digest
  requestSha256 : Digest
  deriving DecidableEq

def RequestBinding.validate (request : RequestBinding) : Except ContractError Unit :=
  refuseIf (request.operation.isNil = true ∨ request.attempt.isNil = true)
    (.binding "nil request identity")

inductive AuthorityScope where
  | context (digest : Digest)
  | securityDomain (providerRef : ProviderRef) (domain : WrappingIdentifier)
  deriving DecidableEq

/-- The scope is a context, and not this one. -/
def AuthorityScope.excludes (scope : AuthorityScope) (contextSha256 : Digest) : Bool :=
  match scope with
  | .context digest => digest != contextSha256
  | .securityDomain _ _ => false

structure AuthorityIdentity where
  issuer : WrappingIdentifier
  scope : AuthorityScope
  generation : NonZeroU64
  deriving DecidableEq

inductive CryptoOperation where
  | generateWrapped
  | encrypt
  | decrypt
  deriving DecidableEq, Repr

inductive ClockDomain where
  | unixMilliseconds
  | executorMonotonicMilliseconds (executor : ExecutorIncarnation)
  deriving DecidableEq

structure ClockReading where
  domain : ClockDomain
  milliseconds : Nat

/-- The half-open interval from `notBefore` to `notAfter`. -/
structure Validity where
  clock : ClockDomain
  notBefore : U64
  notAfter : U64
  deriving DecidableEq

def Validity.validate (validity : Validity) : Except ContractError Unit :=
  refuseIf (validity.notBefore ≥ validity.notAfter) (.binding "empty validity interval")

def Validity.checkAt (validity : Validity) (now : ClockReading) : Except ContractError Unit := do
  validity.validate
  refuseIf (validity.clock ≠ now.domain ∨ now.milliseconds < validity.notBefore.val ∨
    now.milliseconds ≥ validity.notAfter.val) (.binding "clock or validity mismatch")

def Validity.checkExecutor (validity : Validity) (executor : ExecutorIncarnation) :
    Except ContractError Unit := do
  validity.validate
  match validity.clock with
  | .executorMonotonicMilliseconds id =>
    refuseIf (id ≠ executor) (.binding "clock belongs to another incarnation")
  | .unixMilliseconds => .ok ()

structure AuthorityGrant where
  authority : AuthorityIdentity
  request : RequestBinding
  principal : WrappingIdentifier
  operation : CryptoOperation
  sequence : NonZeroU64
  validity : Validity
  ancestorNotAfter : U64
  deriving DecidableEq

def AuthorityGrant.validate (grant : AuthorityGrant) : Except ContractError Unit := do
  grant.request.validate
  grant.validity.checkExecutor grant.request.executor
  refuseIf (grant.authority.scope.excludes grant.request.contextSha256 = true)
    (.binding "grant scope/context mismatch")
  refuseIf (grant.ancestorNotAfter ≤ grant.validity.notBefore)
    (.binding "empty ancestor authority interval")

/-- The counter is unique within one incarnation. -/
structure LeaseIdentity where
  executor : ExecutorIncarnation
  counter : NonZeroU64
  deriving DecidableEq

structure LeaseRecord where
  lease : LeaseIdentity
  contextSha256 : Digest
  authority : AuthorityIdentity
  residency : Validity
  deriving DecidableEq

inductive CreationOutcome where
  | providerSessionClosed (session : WrappingIdentifier)
  | providerTemporaryObjectDestroyed (object : WrappingIdentifier)
  | nativeWrappedOnlyGenerated
  deriving DecidableEq

structure CreationResult where
  request : RequestBinding
  owner : CreationOwner
  materialSha256 : Digest
  outcome : CreationOutcome
  deriving DecidableEq

inductive LeaseCleanupReason where
  | released
  | residencyExpired
  | authorityFenced
  deriving DecidableEq, Repr

structure LeaseCleanupResult where
  record : LeaseRecord
  reason : LeaseCleanupReason
  deriving DecidableEq

structure RevocationCommand where
  fence : Uuid
  executor : ExecutorIncarnation
  authority : AuthorityIdentity
  validity : Validity
  deriving DecidableEq

structure RevocationResult where
  fence : Uuid
  executor : ExecutorIncarnation
  authority : AuthorityIdentity
  commandSha256 : Digest
  inFlight : InFlightDisposition
  observedLeases : List LeaseIdentity
  deriving DecidableEq

/-! ### Writing -/

def writeId (id : WrappingIdentifier) : Bytes := appendIdentifier id.asStr

def writeU64 (n : U64) : Bytes := bigEndian 8 n.val

def Uuid.asBytes (id : Uuid) : Bytes := bigEndian 16 id.bits.toNat

def writeUuid (id : Uuid) : Except ContractError Bytes := do
  refuseIf (id.isNil = true) (.binding "nil identity")
  return Uuid.asBytes id

def writeBlob (bytes : Bytes) : Except ContractError Bytes := do
  refuseIf (bytes.length > maxContractBytes) (.encoding "nested message too large")
  return bigEndian 4 bytes.length ++ bytes

def writeExecutor (id : ExecutorIncarnation) : Bytes := id.bytes.toList

def ClockDomain.write : ClockDomain → Bytes
  | .unixMilliseconds => [1]
  | .executorMonotonicMilliseconds id => 2 :: writeExecutor id

def Validity.write (validity : Validity) : Except ContractError Bytes := do
  validity.validate
  return validity.clock.write ++ writeU64 validity.notBefore ++ writeU64 validity.notAfter

/-! ### Reading -/

abbrev Reader (α : Type) : Type := StateT Bytes (Except ContractError) α

def Reader.check {α : Type} (x : Except ContractError α) : Reader α := liftM x

def take (n : Nat) : Reader Bytes := do
  let bytes ← get
  if n > bytes.length then throw (.encoding "truncated field")
  set (bytes.drop n)
  return bytes.take n

def literal (value : Bytes) : Reader Unit := do
  if (← take value.length) ≠ value then throw (.encoding "wrong domain")

def fixed (n : Nat) : Reader (Vector UInt8 n) := do
  let bytes ← take n
  if size : bytes.length = n then return ⟨bytes.toArray, size⟩
  else throw (.encoding "wrong field size")

/-- The number that octets stand for, most significant first. -/
def fromBigEndian (bytes : Bytes) : Nat := bytes.foldl (fun n byte => n * 256 + byte.toNat) 0

def readU8 : Reader UInt8 := do
  return (← fixed 1).head

def readNat (width : Nat) : Reader Nat := do
  return fromBigEndian (← fixed width).toList

def readU64 : Reader U64 := do
  return Fin.ofNat (2 ^ 64) (← readNat 8)

def readNonzero : Reader NonZeroU64 := do
  Reader.check (okOr (NonZeroU64.new (← readU64)) (.encoding "zero counter or generation"))

def readId : Reader WrappingIdentifier := do
  let n ← readNat 2
  if n = 0 ∨ n > 256 then throw (.encoding "identifier length")
  let bytes ← take n
  let text ← Reader.check
    (okOr (String.fromUTF8? ⟨bytes.toArray⟩) (.encoding "identifier not ASCII"))
  Reader.check (mapErr (WrappingIdentifier.new text) .wrapping)

def readUuid : Reader Uuid := do
  let id : Uuid := ⟨BitVec.ofNat 128 (← readNat 16)⟩
  if id.isNil then throw (.encoding "nil identity")
  return id

def readBlob : Reader Bytes := do
  let n ← readNat 4
  if n > maxContractBytes then throw (.encoding "nested message too large")
  take n

def readExecutor : Reader ExecutorIncarnation := do
  Reader.check (ExecutorIncarnation.new (← fixed 32))

def readClock : Reader ClockDomain := do
  match ← readU8 with
  | 1 => return .unixMilliseconds
  | 2 => return .executorMonotonicMilliseconds (← readExecutor)
  | _ => throw (.encoding "unknown clock")

def readValidity : Reader Validity := do
  let clock ← readClock
  let notBefore ← readU64
  let notAfter ← readU64
  let value : Validity := ⟨clock, notBefore, notAfter⟩
  Reader.check value.validate
  return value

def unknown : ContractError := .encoding "unknown enum tag"

/-! ### Messages -/

def domain : Bytes := utf8 "KeyRack:CustodyContract" ++ [0]

class Wire (α : Type) where
  kind : UInt8
  write : α → Except ContractError Bytes
  read : Reader α

section
variable {α : Type} [Wire α]

def canonicalBytes (value : α) : Except ContractError Bytes := do
  let bytes := domain ++ bigEndian 2 1 ++ [Wire.kind α] ++ (← Wire.write value)
  refuseIf (bytes.length > maxContractBytes) (.encoding "message too large")
  return bytes

def readMessage : Reader α := do
  literal domain
  if (← readNat 2) ≠ 1 then throw (.encoding "unknown version or wrong message kind")
  if (← readU8) ≠ Wire.kind α then throw (.encoding "unknown version or wrong message kind")
  Wire.read

def fromCanonicalBytes (bytes : Bytes) : Except ContractError α := do
  refuseIf (bytes.length > maxContractBytes) (.encoding "message too large")
  let (value, rest) ← (readMessage : Reader α).run bytes
  refuseIf (rest ≠ []) (.encoding "trailing bytes")
  let again ← canonicalBytes value
  refuseIf (again ≠ bytes) (.encoding "noncanonical message")
  return value

def sha256 [Sha256] (value : α) : Except ContractError Digest := do
  return Sha256.digest (← canonicalBytes value)

/-- A message inside another one. -/
def writeMessage (value : α) : Except ContractError Bytes := do
  writeBlob (← canonicalBytes value)

def readNested : Reader α := do
  Reader.check (fromCanonicalBytes (← readBlob))

end

def ExecutionBoundary.tag : ExecutionBoundary → UInt8
  | .providerSessionObject => 1
  | .providerJournaledTemporaryObject => 2
  | .trustedHostWorkerMemory => 3

instance : Wire CustodyProfile where
  kind := 1
  write profile := return profile.boundary.tag :: writeId profile.id
  read := do
    let boundary ← match ← readU8 with
      | 1 => pure .providerSessionObject
      | 2 => pure .providerJournaledTemporaryObject
      | 3 => pure .trustedHostWorkerMemory
      | _ => throw unknown
    return ⟨boundary, ← readId⟩

/-! The frozen bytes of a wrapping context are read strictly. -/

def readKey : Reader VersionedKeyId := do
  let lid ← fixed 32
  let version ← readNat 8
  Reader.check (mapErr (VersionedKeyId.new ⟨lid⟩ version) .wrapping)

def readSpec : Reader KeySpec := do
  match ← readU8 with
  | 1 => return .aes256
  | 2 => return .aes128
  | 3 => return .ed25519
  | 4 => return .rsaPkcs1v15Sha256 (← readNat 4)
  | 5 => return .rsaPssSha256 (← readNat 4)
  | 6 => return .ecdsaP256Sha256
  | 7 => return .ecdsaP384
  | 8 => return .hmac256
  | _ => throw unknown

def readFormat : Reader WrappedKeyFormat := do
  match ← readU8 with
  | 1 => return .rawSecret
  | 2 => return .pkcs8Der
  | 3 => return .providerNative (← readId)
  | _ => throw unknown

def readPurpose : Reader WrappingKeyPurpose := do
  match ← readU8 with
  | 1 => return .encryptDecrypt
  | 2 => return .signVerify
  | 3 => return .generateVerifyMac
  | 4 => return .wrapUnwrap
  | _ => throw unknown

def readPublicMaterial : Reader (Option Digest) := do
  match ← readU8 with
  | 0 => return none
  | 1 => return some (← fixed 32)
  | _ => throw unknown

def readContext : Reader WrappingContext := do
  literal contextDomain
  let version ← readNat 2
  if version ≠ 1 then throw (.wrapping (.unsupportedContextVersion version))
  let child ← readKey
  let parent ← readKey
  let parentSpec ← readSpec
  let childSpec ← readSpec
  let keyFormat ← readFormat
  let purpose ← readPurpose
  let providerRef ← readId
  let securityDomain ← readId
  let mechanism ← readId
  let publicMaterialSha256 ← readPublicMaterial
  return {
    version := .v1, child, parent, parentSpec, childSpec, keyFormat, purpose
    providerRef := ⟨providerRef.asStr⟩, securityDomain, mechanism, publicMaterialSha256 }

def readV1 (bytes : Bytes) : Except ContractError WrappingContext := do
  let (context, rest) ← readContext.run bytes
  refuseIf (rest ≠ []) (.encoding "noncanonical V1 context")
  let again ← mapErr context.canonicalBytes .wrapping
  refuseIf (again ≠ bytes) (.encoding "noncanonical V1 context")
  return context

instance : Wire CustodyContext where
  kind := 2
  write context := do
    context.validate
    let wrapping ← writeBlob (← mapErr context.wrapping.canonicalBytes .wrapping)
    return wrapping ++ (← writeMessage context.profile)
  read := do
    let wrapping ← Reader.check (readV1 (← readBlob))
    return ⟨wrapping, ← readNested⟩

instance : Wire CustodyMaterialDescriptor where
  kind := 3
  write descriptor := do
    let context ← writeMessage descriptor.context
    return context ++ writeId descriptor.envelopeRef ++ descriptor.envelopeSha256.toList
  read := return ⟨← readNested, ← readId, ← fixed 32⟩

instance : Wire RequestBinding where
  kind := 4
  write request := do
    request.validate
    let operation ← writeUuid request.operation
    let attempt ← writeUuid request.attempt
    return operation ++ attempt ++ writeExecutor request.executor ++
      request.contextSha256.toList ++ request.requestSha256.toList
  read := return ⟨← readUuid, ← readUuid, ← readExecutor, ← fixed 32, ← fixed 32⟩

def AuthorityScope.write : AuthorityScope → Except ContractError Bytes
  | .context digest => return 1 :: digest.toList
  | .securityDomain providerRef domain => do
    let provider ← mapErr (WrappingIdentifier.new providerRef.name) .wrapping
    return 2 :: writeId provider ++ writeId domain

def readScope : Reader AuthorityScope := do
  match ← readU8 with
  | 1 => return .context (← fixed 32)
  | 2 =>
    let providerRef ← readId
    return .securityDomain ⟨providerRef.asStr⟩ (← readId)
  | _ => throw unknown

instance : Wire AuthorityIdentity where
  kind := 5
  write authority := do
    let scope ← authority.scope.write
    return writeId authority.issuer ++ scope ++ writeU64 authority.generation.get
  read := return ⟨← readId, ← readScope, ← readNonzero⟩

def CryptoOperation.tag : CryptoOperation → UInt8
  | .generateWrapped => 1
  | .encrypt => 2
  | .decrypt => 3

def readOperation : Reader CryptoOperation := do
  match ← readU8 with
  | 1 => return .generateWrapped
  | 2 => return .encrypt
  | 3 => return .decrypt
  | _ => throw unknown

instance : Wire AuthorityGrant where
  kind := 6
  write grant := do
    grant.validate
    let authority ← writeMessage grant.authority
    let request ← writeMessage grant.request
    let validity ← grant.validity.write
    return authority ++ request ++ writeId grant.principal ++ [grant.operation.tag] ++
      writeU64 grant.sequence.get ++ validity ++ writeU64 grant.ancestorNotAfter
  read := return ⟨← readNested, ← readNested, ← readId, ← readOperation, ← readNonzero,
    ← readValidity, ← readU64⟩

instance : Wire LeaseIdentity where
  kind := 7
  write lease := return writeExecutor lease.executor ++ writeU64 lease.counter.get
  read := return ⟨← readExecutor, ← readNonzero⟩

instance : Wire LeaseRecord where
  kind := 8
  write record := do
    record.residency.checkExecutor record.lease.executor
    refuseIf (record.authority.scope.excludes record.contextSha256 = true)
      (.binding "lease scope/context mismatch")
    let lease ← writeMessage record.lease
    let authority ← writeMessage record.authority
    let residency ← record.residency.write
    return lease ++ record.contextSha256.toList ++ authority ++ residency
  read := return ⟨← readNested, ← fixed 32, ← readNested, ← readValidity⟩

def CreationOutcome.write : CreationOutcome → Bytes
  | .providerSessionClosed session => 1 :: writeId session
  | .providerTemporaryObjectDestroyed object => 2 :: writeId object
  | .nativeWrappedOnlyGenerated => [3]

def readOutcome : Reader CreationOutcome := do
  match ← readU8 with
  | 1 => return .providerSessionClosed (← readId)
  | 2 => return .providerTemporaryObjectDestroyed (← readId)
  | 3 => return .nativeWrappedOnlyGenerated
  | _ => throw unknown

instance : Wire CreationResult where
  kind := 9
  write result := do
    let request ← writeMessage result.request
    let owner ← writeUuid result.owner.instance
    refuseIf (result.owner.generation = 0) (.binding "zero creation owner generation")
    return request ++ owner ++ bigEndian 8 result.owner.generation ++
      result.materialSha256.toList ++ result.outcome.write
  read := do
    let request ← readNested
    let owner ← readUuid
    let generation ← readNonzero
    return ⟨request, ⟨owner, generation.get.val⟩, ← fixed 32, ← readOutcome⟩

def LeaseCleanupReason.tag : LeaseCleanupReason → UInt8
  | .released => 1
  | .residencyExpired => 2
  | .authorityFenced => 3

instance : Wire LeaseCleanupResult where
  kind := 10
  write result := return (← writeMessage result.record) ++ [result.reason.tag]
  read := do
    let record ← readNested
    match ← readU8 with
    | 1 => return ⟨record, .released⟩
    | 2 => return ⟨record, .residencyExpired⟩
    | 3 => return ⟨record, .authorityFenced⟩
    | _ => throw unknown

instance : Wire RevocationCommand where
  kind := 11
  write command := do
    command.validity.checkExecutor command.executor
    let fence ← writeUuid command.fence
    let authority ← writeMessage command.authority
    let validity ← command.validity.write
    return fence ++ writeExecutor command.executor ++ authority ++ validity
  read := return ⟨← readUuid, ← readExecutor, ← readNested, ← readValidity⟩

def dispositionTag : InFlightDisposition → UInt8
  | .drained => 1
  | .furtherReleaseBlocked => 2

def readDisposition : Reader InFlightDisposition := do
  match ← readU8 with
  | 1 => return .drained
  | 2 => return .furtherReleaseBlocked
  | _ => throw unknown

/-- Leases of one executor in the strict order of their counters. -/
def writeLeases (executor : ExecutorIncarnation) : Nat → List LeaseIdentity →
    Except ContractError Bytes
  | _, [] => return []
  | previous, lease :: leases => do
    refuseIf (lease.executor ≠ executor ∨ lease.counter.get.val ≤ previous)
      (.binding "leases must be unique, sorted and local")
    let first ← writeMessage lease
    return first ++ (← writeLeases executor lease.counter.get.val leases)

def readLeases : Nat → Reader (List LeaseIdentity)
  | 0 => return []
  | n + 1 => return (← readNested) :: (← readLeases n)

instance : Wire RevocationResult where
  kind := 12
  write result := do
    let fence ← writeUuid result.fence
    let authority ← writeMessage result.authority
    refuseIf (result.observedLeases.length > maxReceiptLeases)
      (.binding "too many observed leases")
    let leases ← writeLeases result.executor 0 result.observedLeases
    return fence ++ writeExecutor result.executor ++ authority ++ result.commandSha256.toList ++
      [dispositionTag result.inFlight] ++ bigEndian 2 result.observedLeases.length ++ leases
  read := do
    let fence ← readUuid
    let executor ← readExecutor
    let authority ← readNested
    let commandSha256 ← fixed 32
    let inFlight ← readDisposition
    let n ← readNat 2
    if n > maxReceiptLeases then throw (.encoding "too many observed leases")
    return ⟨fence, executor, authority, commandSha256, inFlight, ← readLeases n⟩

end Custody
end KeyRack
