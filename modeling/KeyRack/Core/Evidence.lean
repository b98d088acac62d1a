import KeyRack.Core.Custody

/-!
# Custody evidence

What a consumer checks of a claim, and claims under a signature. A signature covers the
domain, the names of the signer and the whole canonical claim; no key is taken from the
message. The signature scheme is a parameter.
-/
namespace KeyRack

abbrev VerifyingKey : Type := Vector UInt8 32

abbrev SigningKey : Type := Vector UInt8 32

abbrev Signature : Type := Vector UInt8 64

class Ed25519 where
  verifyingKey : SigningKey → VerifyingKey
  sign : SigningKey → Bytes → Signature
  verifyStrict : VerifyingKey → Bytes → Signature → Bool

namespace Custody

open Fallible Framing

/-! ### Checks -/

section
variable [Sha256]

def AuthorityScope.covers (scope : AuthorityScope) (context : CustodyContext) :
    Except ContractError Bool := do
  context.validate
  match scope with
  | .context digest => return digest == (← sha256 context)
  | .securityDomain providerRef domain =>
    return providerRef == context.wrapping.providerRef && domain == context.wrapping.securityDomain

/-- The structure of a grant and its time; what is expected comes from trusted local
    resolution. -/
def AuthorityGrant.checkRequest (grant : AuthorityGrant) (expected : RequestBinding)
    (context : CustodyContext) (principal : WrappingIdentifier) (operation : CryptoOperation)
    (now : ClockReading) : Except ContractError Unit := do
  grant.validate
  refuseIf (operation ≠ .generateWrapped ∧ context.wrapping.purpose ≠ .encryptDecrypt)
    (.binding "operation forbidden by key purpose")
  let mismatch : ContractError := .binding "authority request mismatch"
  refuseIf (grant.request ≠ expected ∨ grant.principal ≠ principal ∨ grant.operation ≠ operation)
    mismatch
  refuseIf (grant.request.contextSha256 ≠ (← sha256 context)) mismatch
  refuseIf ((← grant.authority.scope.covers context) = false) mismatch
  grant.validity.checkAt now
  refuseIf (now.milliseconds ≥ grant.ancestorNotAfter.val) (.binding "ancestor authority expired")

def CreationOutcome.fits : CreationOutcome → ExecutionBoundary → Bool
  | .providerSessionClosed _, .providerSessionObject => true
  | .providerTemporaryObjectDestroyed _, .providerJournaledTemporaryObject => true
  | .nativeWrappedOnlyGenerated, .trustedHostWorkerMemory => true
  | _, _ => false

def CreationResult.checkMaterial (result : CreationResult)
    (material : CustodyMaterialDescriptor) : Except ContractError Unit := do
  let _ ← canonicalBytes result
  let mismatch : ContractError := .binding "creation material mismatch"
  refuseIf (result.request.contextSha256 ≠ (← sha256 material.context)) mismatch
  refuseIf (result.materialSha256 ≠ (← sha256 material)) mismatch
  refuseIf (result.outcome.fits material.context.profile.boundary = false)
    (.binding "creation outcome/profile mismatch")

def CreationResult.checkAttempt (result : CreationResult) (request : RequestBinding)
    (owner : CreationOwner) (material : CustodyMaterialDescriptor) :
    Except ContractError Unit := do
  refuseIf (result.request ≠ request ∨ result.owner ≠ owner)
    (.binding "creation attempt/owner mismatch")
  result.checkMaterial material

def RevocationResult.checkCommand (result : RevocationResult) (command : RevocationCommand) :
    Except ContractError Unit := do
  let _ ← canonicalBytes result
  let mismatch : ContractError := .binding "fence command mismatch"
  refuseIf (result.fence ≠ command.fence ∨ result.executor ≠ command.executor ∨
    result.authority ≠ command.authority) mismatch
  refuseIf (result.commandSha256 ≠ (← sha256 command)) mismatch

end

/-! ### Signed claims -/

/-- The families of claims that may be signed. Claims of an authority name their issuer. -/
class EvidenceClaims (α : Type) extends Wire α where
  authorityIssuer : α → Option WrappingIdentifier

instance : EvidenceClaims AuthorityGrant := ⟨fun grant => some grant.authority.issuer⟩

instance : EvidenceClaims RevocationCommand := ⟨fun command => some command.authority.issuer⟩

instance : EvidenceClaims CreationResult := ⟨fun _ => none⟩

instance : EvidenceClaims LeaseCleanupResult := ⟨fun _ => none⟩

instance : EvidenceClaims RevocationResult := ⟨fun _ => none⟩

/-- An untrusted signed claim. -/
structure Evidence (α : Type) where
  issuer : WrappingIdentifier
  keyId : WrappingIdentifier
  claims : α
  signature : Signature
  deriving DecidableEq

/-- A signer from trusted configuration. -/
structure EvidenceKey where
  issuer : WrappingIdentifier
  keyId : WrappingIdentifier
  key : VerifyingKey

def signatureDomain : Bytes := utf8 "KeyRack:CustodyEvidenceSignature" ++ [0]

variable {α : Type} [EvidenceClaims α]

def Evidence.signingBytes (evidence : Evidence α) : Except ContractError Bytes := do
  match EvidenceClaims.authorityIssuer evidence.claims with
  | some issuer =>
    refuseIf (issuer ≠ evidence.issuer) (.binding "authority issuer/evidence signer mismatch")
  | none => .ok ()
  let claims ← writeMessage evidence.claims
  let bytes := signatureDomain ++ bigEndian 2 1 ++ [1] ++ writeId evidence.issuer ++
    writeId evidence.keyId ++ claims
  refuseIf (bytes.length > maxContractBytes) (.encoding "signature transcript too large")
  return bytes

/-- The claim, if it is signed under the configured names and key. -/
def Evidence.authenticate [Ed25519] (evidence : Evidence α) (trusted : EvidenceKey) :
    Except ContractError α := do
  refuseIf (evidence.issuer ≠ trusted.issuer ∨ evidence.keyId ≠ trusted.keyId) .authentication
  let bytes ← evidence.signingBytes
  refuseIf (Ed25519.verifyStrict trusted.key bytes evidence.signature = false) .authentication
  return evidence.claims

instance : Wire (Evidence α) where
  kind := 13
  write evidence := do
    let _ ← evidence.signingBytes
    let claims ← writeMessage evidence.claims
    return 1 :: writeId evidence.issuer ++ writeId evidence.keyId ++ claims ++
      evidence.signature.toList
  read := do
    if (← readU8) ≠ 1 then throw (.encoding "unknown signature algorithm")
    return ⟨← readId, ← readId, ← readNested, ← fixed 64⟩

end Custody
end KeyRack
