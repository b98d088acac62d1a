import KeyRack.Core.AuditChain
import KeyRack.Core.Pdp

/-!
# Authentication

A chain of authenticators: each one recognises a credential, leaves the request to the next
one or refuses it. Two of them are modelled, the forwarded identity of a trusted mTLS peer and
the JWT bearer token; what `x509_cert` reads in a certificate, and `jsonwebtoken` in a token, is
given to them.
-/
namespace KeyRack

open Fallible

structure RequestMetadata where
  headers : SortedMap String String
  peerCertificates : List Bytes

structure AuthnResult where
  principal : Principal
  method : String

inductive AuthnError where
  | noCredential
  | invalidCredential (reason : String)
  | internal (reason : String)
  deriving DecidableEq

abbrev Authenticator : Type := RequestMetadata → Except AuthnError (Option AuthnResult)

/-- The first authenticator that recognises a credential decides. -/
def AuthenticatorChain.authenticate (metadata : RequestMetadata) :
    List Authenticator → Except AuthnError AuthnResult
  | [] => .error .noCredential
  | authn :: rest => do
    match ← authn metadata with
    | some result => return result
    | none => authenticate metadata rest

/-- Development only: everybody is anonymous. -/
def insecureAuthenticator : Authenticator := fun _ =>
  .ok (some ⟨⟨"keyrack:anonymous", "Service", .empty⟩, "insecure"⟩)

/-! ### Trusted mTLS peers -/

structure TrustedPeer where
  authentication : AuthnResult
  matchedSan : Option String

inductive GeneralName where
  | uniformResourceIdentifier (uri : String)
  | dnsName (dns : String)
  | other

/-- A value of the subject, under the string types that are read. -/
inductive DirectoryString where
  | utf8 (text : String)
  | printable (text : String)
  | ia5 (text : String)
  | other

inductive SubjectAttribute where
  | cn (value : DirectoryString)
  | ou (value : DirectoryString)
  | other

structure Certificate where
  -- the DER text of the issuer, if it has one
  issuer : Option Bytes
  serialNumber : Bytes
  subject : List SubjectAttribute
  -- the SAN extensions that can be read
  subjectAltNames : List (List GeneralName)

/-- Reading a certificate. -/
class X509 where
  fromDer : Bytes → Option Certificate

/-- The first CN, if it is a text. -/
def extractCn (cert : Certificate) : Option String :=
  (cert.subject.findSome? fun
    | .cn value => some value
    | _ => none).bind fun
    | .utf8 text | .printable text | .ia5 text => some text
    | .other => none

structure TrustedMtlsPeerAuthenticator where
  trustedCaSubjectDer : Bytes
  requiredSans : Option (List String)
  requiredOu : Option String

inductive SanRequirement where
  | unrestricted
  | matched (san : String)
  | unmatched

/-- The certificate has the value as a DNS name or a URI. -/
def carriesSan (leaf : Certificate) (value : String) : Bool :=
  leaf.subjectAltNames.any fun san => san.any fun
    | .uniformResourceIdentifier name | .dnsName name => name = value
    | .other => false

def carriesOu (leaf : Certificate) (value : String) : Bool :=
  leaf.subject.any fun
    | .ou (.utf8 text) | .ou (.printable text) => text = value
    | _ => false

namespace TrustedMtlsPeerAuthenticator

variable (self : TrustedMtlsPeerAuthenticator)

def checkIssuerMatches (leaf : Certificate) : Bool :=
  leaf.issuer = some self.trustedCaSubjectDer

def matchSanRequirement (leaf : Certificate) : SanRequirement :=
  match self.requiredSans with
  | none => .unrestricted
  | some required =>
    -- configuration order, not certificate order, selects among allowed peers
    match required.find? (carriesSan leaf) with
    | some value => .matched value
    | none => .unmatched

def checkOuRequirement (leaf : Certificate) : Bool :=
  self.requiredOu.all (carriesOu leaf)

end TrustedMtlsPeerAuthenticator

/-- The first SPIFFE id of an extension; a later extension replaces it. -/
def spiffeId (leaf : Certificate) : Option String :=
  (leaf.subjectAltNames.filterMap fun san => san.findSome? fun
    | .uniformResourceIdentifier uri => if uri.startsWith "spiffe://" then some uri else none
    | _ => none).getLast?

/-- The principal of a confirmed peer. -/
def trustedPeer (leaf : Certificate) (matchedSan : Option String) :
    Except AuthnError (Option TrustedPeer) := do
  let principalId ← okOr ((spiffeId leaf).or (extractCn leaf))
    (.invalidCredential "trusted peer certificate has neither a CN nor a SPIFFE SAN")
  let attributes := [("scope", some "platform"),
    ("serial_number", some (Audit.hexEncode leaf.serialNumber)), ("cn", extractCn leaf),
    ("spiffe_id", spiffeId leaf)].filterMap fun (key, text) => text.map (key, .string ·)
  return some ⟨⟨⟨principalId, "TrustedPlatformPeer", .ofList attributes⟩, "trusted_mtls_peer"⟩,
    matchedSan⟩

def TrustedMtlsPeerAuthenticator.authenticatePeer [X509] (self : TrustedMtlsPeerAuthenticator)
    (peerCertificates : List Bytes) : Except AuthnError (Option TrustedPeer) :=
  match peerCertificates.head?.bind X509.fromDer with
  | none => return none
  | some leaf =>
    match self.checkIssuerMatches leaf, self.matchSanRequirement leaf,
      self.checkOuRequirement leaf with
    | true, .unrestricted, true => trustedPeer leaf none
    | true, .matched san, true => trustedPeer leaf san
    | _, _, _ => return none

/-! ### Forwarded identities -/

def forwardedIdentityHeaders : List String :=
  ["x-keyrack-principal-id", "x-keyrack-tenant-id", "x-keyrack-project-id", "x-keyrack-domain-id"]

def forwardedHeader (metadata : RequestMetadata) (name : String) : Option String :=
  (metadata.headers.get? name).filter fun value => !value.isEmpty

def hasForwardedIdentityHeaders (metadata : RequestMetadata) : Bool :=
  forwardedIdentityHeaders.any metadata.headers.containsKey

/-- An attribute for a header that is there. -/
def forwardedAttribute (metadata : RequestMetadata) (name key : String) :
    List (String × PdpValue) :=
  ((forwardedHeader metadata name).map fun value => (key, .string value)).toList

/-- `MtlsBoundForwardedIdentityAuthenticator::authenticate`, over what the trusted peer
    authenticator makes of the certificates. -/
def authenticateForwarded (authenticatePeer : List Bytes → Except AuthnError (Option TrustedPeer)) :
    Authenticator := fun metadata => do
  match ← authenticatePeer metadata.peerCertificates with
  | none =>
    refuseIf (hasForwardedIdentityHeaders metadata)
      (.invalidCredential "forwarded identity is not bound to the configured mTLS peer")
    return none
  | some peer =>
    if !hasForwardedIdentityHeaders metadata then return none
    let principalId ← okOr (forwardedHeader metadata "x-keyrack-principal-id")
      (.invalidCredential "x-keyrack-principal-id header is required")
    let tenantId ← okOr (forwardedHeader metadata "x-keyrack-tenant-id")
      (.invalidCredential "x-keyrack-tenant-id header is required")
    refuseIf (tenantId.toList.any fun c => c = ':' || Text.isWhiteSpace c)
      (.invalidCredential "x-keyrack-tenant-id must be a non-empty scope component")
    let attributes := [("tenant_id", .string tenantId), ("scope", .string ("tenant:" ++ tenantId)),
      ("delegating_peer_id", .string (peer.matchedSan.getD peer.authentication.principal.id))] ++
      forwardedAttribute metadata "x-keyrack-project-id" "project_id" ++
      forwardedAttribute metadata "x-keyrack-domain-id" "domain_id"
    return some ⟨⟨principalId, "DelegatedIdentity", .ofList attributes⟩,
      "mtls_bound_forwarded_identity"⟩

/-- A gRPC request: its ASCII metadata in order, with repetitions, and the certificates of
    its peer. -/
structure GrpcRequest where
  metadata : List (String × Bytes)
  peerCertificates : List Bytes

/-- `to_str`: a value is a text if all its bytes are visible ASCII or tabs. -/
def headerText (value : Bytes) : Option String :=
  if value.all fun byte => (32 ≤ byte && byte < 127) || byte = 9 then
    some (String.ofList (value.map fun byte => Char.ofNat byte.toNat))
  else none

def insertHeader (headers : SortedMap String String) (entry : String × Bytes) :
    SortedMap String String :=
  match headerText entry.2 with
  | some text => headers.insert entry.1 text
  | none => headers

def GrpcRequest.toMetadata (request : GrpcRequest) : RequestMetadata where
  headers := request.metadata.foldl insertHeader .empty
  peerCertificates := request.peerCertificates

/-- `extract_principal_grpc`; an error becomes `unauthenticated`. -/
def extractPrincipalGrpc (chain : List Authenticator) (request : GrpcRequest) :
    Except AuthnError Principal := do
  let result ← AuthenticatorChain.authenticate request.toMetadata chain
  return result.principal

end KeyRack
