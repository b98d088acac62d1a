import KeyRack.Core.Lid

/-!
# Typed wrapping context

Identifiers with their bounds, exact key versions and the canonical bytes of a
wrapping context. A value of these types is structurally valid by construction.
-/
namespace KeyRack

open Fallible Framing

inductive KeySpec where
  | aes256
  | aes128
  | ed25519
  | rsaPkcs1v15Sha256 (keySize : Nat)
  | rsaPssSha256 (keySize : Nat)
  | ecdsaP256Sha256
  | ecdsaP384
  | hmac256
  deriving DecidableEq, Repr

def KeySpec.isAes : KeySpec → Bool
  | .aes256 | .aes128 => true
  | _ => false

/-- Name of a configured crypto provider, used as a routing key. -/
structure ProviderRef where
  name : String
  deriving DecidableEq, Repr

inductive WrappingError where
  | invalidIdentifier
  | zeroKeyVersion
  | invalidParentSpec
  | invalidKeySpec
  | invalidPurpose
  | invalidKeyFormat
  | invalidPublicMaterialDigest
  | unsupportedContextVersion (version : Nat)
  | unsupportedCapability
  deriving DecidableEq, Repr

def maxWrappingIdentifierBytes : Nat := 256

/-- 1 to 256 printable ASCII bytes without whitespace. -/
def validIdentifier (value : String) : Bool :=
  !value.isEmpty && decide (value.utf8ByteSize ≤ maxWrappingIdentifierBytes) &&
    (utf8 value).all fun byte => decide (0x21 ≤ byte) && decide (byte ≤ 0x7e)

def validateIdentifier (value : String) : Except WrappingError Unit :=
  refuseIf (validIdentifier value = false) .invalidIdentifier

/-- A bounded opaque identifier, compared byte for byte. -/
structure WrappingIdentifier where
  asStr : String
  valid : validIdentifier asStr = true
  deriving DecidableEq, Repr

def WrappingIdentifier.new (value : String) : Except WrappingError WrappingIdentifier :=
  if valid : validIdentifier value = true then .ok ⟨value, valid⟩ else .error .invalidIdentifier

theorem WrappingIdentifier.new_eq_ok {value : String} {id : WrappingIdentifier} :
    WrappingIdentifier.new value = .ok id ↔ id.asStr = value := by
  unfold WrappingIdentifier.new
  split
  next =>
    cases id
    simp [eq_comm]
  next invalid =>
    simp only [reduceCtorEq, false_iff]
    rintro rfl
    exact invalid id.valid

/-- An exact logical key version. -/
structure VersionedKeyId where
  lid : Lid
  version : Nat
  nonzero : version ≠ 0
  deriving DecidableEq, Repr

def VersionedKeyId.new (lid : Lid) (version : Nat) : Except WrappingError VersionedKeyId :=
  if nonzero : version ≠ 0 then .ok ⟨lid, version, nonzero⟩ else .error .zeroKeyVersion

theorem VersionedKeyId.new_eq_ok {lid : Lid} {version : Nat} {id : VersionedKeyId} :
    VersionedKeyId.new lid version = .ok id ↔ id.lid = lid ∧ id.version = version := by
  unfold VersionedKeyId.new
  split
  next =>
    cases id
    simp [eq_comm]
  next zero =>
    simp only [reduceCtorEq, false_iff, not_and]
    rintro _ rfl
    exact zero id.nonzero

inductive WrappingContextVersion where
  | v1
  deriving DecidableEq, Repr

inductive WrappedKeyFormat where
  | rawSecret
  | pkcs8Der
  | providerNative (name : WrappingIdentifier)
  deriving DecidableEq, Repr

inductive WrappingKeyPurpose where
  | encryptDecrypt
  | signVerify
  | generateVerifyMac
  | wrapUnwrap
  deriving DecidableEq, Repr

/-- Binding inputs supplied by a caller that has resolved exact key versions. -/
structure WrappingContext where
  version : WrappingContextVersion
  child : VersionedKeyId
  parent : VersionedKeyId
  parentSpec : KeySpec
  childSpec : KeySpec
  keyFormat : WrappedKeyFormat
  purpose : WrappingKeyPurpose
  providerRef : ProviderRef
  securityDomain : WrappingIdentifier
  mechanism : WrappingIdentifier
  publicMaterialSha256 : Option Digest
  deriving DecidableEq

def isAsymmetric : KeySpec → Bool
  | .aes256 | .aes128 | .hmac256 => false
  | _ => true

def validRsaSize : KeySpec → Bool
  | .rsaPkcs1v15Sha256 keySize | .rsaPssSha256 keySize =>
    keySize == 2048 || keySize == 3072 || keySize == 4096
  | _ => true

def validPurpose (child : KeySpec) (purpose : WrappingKeyPurpose) : Bool :=
  match child with
  | .aes256 | .aes128 => purpose == .encryptDecrypt || purpose == .wrapUnwrap
  | .hmac256 => purpose == .generateVerifyMac
  | _ => purpose == .signVerify

def validateProfile (parent child : KeySpec) (format : WrappedKeyFormat)
    (purpose : WrappingKeyPurpose) : Except WrappingError Unit := do
  refuseIf (parent.isAes = false) .invalidParentSpec
  refuseIf (validRsaSize child = false) .invalidKeySpec
  refuseIf (validPurpose child purpose = false) .invalidPurpose
  match format with
  | .rawSecret => refuseIf (isAsymmetric child) .invalidKeyFormat
  | .pkcs8Der => refuseIf (isAsymmetric child = false) .invalidKeyFormat
  | .providerNative _ => .ok ()

def WrappingContext.validate (context : WrappingContext) : Except WrappingError Unit := do
  validateIdentifier context.providerRef.name
  validateProfile context.parentSpec context.childSpec context.keyFormat context.purpose
  refuseIf (isAsymmetric context.childSpec ≠ context.publicMaterialSha256.isSome)
    .invalidPublicMaterialDigest

def contextDomain : Bytes := utf8 "KeyRack:ParentWrappedContext" ++ [0]

def appendKeyId (id : VersionedKeyId) : Bytes := id.lid.bytes.toList ++ bigEndian 8 id.version

def appendIdentifier (value : String) : Bytes := bigEndian 2 value.utf8ByteSize ++ utf8 value

def appendSpec : KeySpec → Bytes
  | .aes256 => [1]
  | .aes128 => [2]
  | .ed25519 => [3]
  | .rsaPkcs1v15Sha256 keySize => 4 :: bigEndian 4 keySize
  | .rsaPssSha256 keySize => 5 :: bigEndian 4 keySize
  | .ecdsaP256Sha256 => [6]
  | .ecdsaP384 => [7]
  | .hmac256 => [8]

def appendFormat : WrappedKeyFormat → Bytes
  | .rawSecret => [1]
  | .pkcs8Der => [2]
  | .providerNative name => 3 :: appendIdentifier name.asStr

def WrappingKeyPurpose.tag : WrappingKeyPurpose → UInt8
  | .encryptDecrypt => 1
  | .signVerify => 2
  | .generateVerifyMac => 3
  | .wrapUnwrap => 4

/-- Encode structurally valid context without authenticating it. -/
def WrappingContext.canonicalBytes (context : WrappingContext) : Except WrappingError Bytes := do
  context.validate
  -- the version tag is a `u16`, of which only 1 is assigned
  return contextDomain ++ bigEndian 2 1 ++ appendKeyId context.child ++
    appendKeyId context.parent ++ appendSpec context.parentSpec ++
    appendSpec context.childSpec ++ appendFormat context.keyFormat ++ [context.purpose.tag] ++
    appendIdentifier context.providerRef.name ++ appendIdentifier context.securityDomain.asStr ++
    appendIdentifier context.mechanism.asStr ++
    match context.publicMaterialSha256 with
    | none => [0]
    | some digest => 1 :: digest.toList

/-! ### Provider capabilities -/

/-- Hierarchy operations, apart from the ordinary data-key operations. -/
inductive WrappingOperation where
  | generate
  | openKey
  | close
  | rewrap
  deriving DecidableEq, Repr

inductive WrappedKeyLifecycle where
  | sessionObject
  | journaledTemporaryObject
  deriving DecidableEq, Repr

/-- One exact supported profile; no field is a wildcard. -/
structure WrappingCapability where
  parentSpec : KeySpec
  childSpec : KeySpec
  keyFormat : WrappedKeyFormat
  purpose : WrappingKeyPurpose
  mechanism : WrappingIdentifier
  contextVersion : WrappingContextVersion
  operation : WrappingOperation
  lifecycle : WrappedKeyLifecycle
  deriving DecidableEq

/-- The tuple a context asks for. -/
def WrappingCapability.requested (context : WrappingContext) (operation : WrappingOperation)
    (lifecycle : WrappedKeyLifecycle) : WrappingCapability where
  parentSpec := context.parentSpec
  childSpec := context.childSpec
  keyFormat := context.keyFormat
  purpose := context.purpose
  mechanism := context.mechanism
  contextVersion := context.version
  operation
  lifecycle

def WrappingCapability.validate (capability : WrappingCapability) : Except WrappingError Unit :=
  validateProfile capability.parentSpec capability.childSpec capability.keyFormat
    capability.purpose

/-- A declaration of structurally valid profiles. -/
structure WrappingCapabilities where
  tuples : List WrappingCapability
  valid : ∀ tuple ∈ tuples, tuple.validate = .ok ()

/-- Match every field exactly. -/
def WrappingCapabilities.require (capabilities : WrappingCapabilities)
    (requested : WrappingCapability) : Except WrappingError Unit := do
  requested.validate
  refuseIf (requested ∉ capabilities.tuples) .unsupportedCapability

end KeyRack
