import KeyRack.Core.Authn

/-!
# JWT bearer tokens

A token is verified with the key that its header names, under an algorithm that the key
declares, the header gives or the type of the key implies.
-/
namespace KeyRack.Jwt

open Fallible Audit

inductive Algorithm where
  | hs256 | hs384 | hs512 | es256 | es384 | rs256 | rs384 | rs512 | ps256 | ps384 | ps512 | edDsa
  deriving DecidableEq, Repr

/-- What a key can declare; the others are not for signatures. -/
inductive KeyAlgorithm where
  | signature (algorithm : Algorithm)
  | other (name : String)

inductive EllipticCurve where
  | p256
  | p384
  | other (name : String)

inductive AlgorithmParameters where
  | rsa
  | ellipticCurve (curve : EllipticCurve)
  | octetKeyPair
  | octetKey

structure Jwk where
  keyId : Option String
  keyAlgorithm : Option KeyAlgorithm
  algorithm : AlgorithmParameters
  material : Bytes

structure Header where
  alg : Algorithm
  kid : Option String

def get (claims : Json) (name : String) : Option Json :=
  match claims with
  | .object fields => SortedMap.lookup name fields
  | _ => none

def asStr : Json → Option String
  | .string value => some value
  | _ => none

/-- What `jsonwebtoken` does: it reads the parts of a token, makes the key of a JWK, verifies
    the signature with a key and an algorithm, and checks the times and the issuer in the
    claims. -/
class Jsonwebtoken where
  Key : Type
  decodeHeader : String → Except String Header
  payload : String → Except String Json
  fromJwk : Jwk → Except String Key
  verify : String → Key → Algorithm → Except String Unit
  checkTimes : Json → Except String Unit
  checkIssuer : Option String → Json → Except String Unit
  -- a configured issuer is compared with an issuer claim that is a text, and only with a
  -- claim that is there
  checkIssuer_text : ∀ issuer claims text, checkIssuer (some issuer) claims = .ok () →
    get claims "iss" = some (.string text) → text = issuer
  checkIssuer_absent : ∀ issuer claims, get claims "iss" = none → checkIssuer issuer claims = .ok ()

def supported : List Algorithm := [.rs256, .rs384, .rs512, .es256, .es384, .edDsa]

def algorithmFromJwk : AlgorithmParameters → Except AuthnError Algorithm
  | .rsa => .ok .rs256
  | .ellipticCurve .p256 => .ok .es256
  | .ellipticCurve .p384 => .ok .es384
  | .ellipticCurve (.other name) => .error (.invalidCredential ("unsupported EC curve: " ++ name))
  | .octetKeyPair => .ok .edDsa
  | .octetKey => .error (.invalidCredential "unsupported JWK algorithm type")

/-- The name of the algorithm in an error. -/
def Algorithm.name : Algorithm → String
  | .hs256 => "HS256" | .hs384 => "HS384" | .hs512 => "HS512" | .es256 => "ES256"
  | .es384 => "ES384" | .rs256 => "RS256" | .rs384 => "RS384" | .rs512 => "RS512"
  | .ps256 => "PS256" | .ps384 => "PS384" | .ps512 => "PS512" | .edDsa => "EdDSA"

def resolveAlgorithm (header : Header) (jwk : Jwk) : Except AuthnError Algorithm :=
  match jwk.keyAlgorithm with
  | some (.signature algorithm) =>
    if algorithm ∈ supported then .ok algorithm
    else .error (.invalidCredential ("unsupported key algorithm: " ++ algorithm.name))
  | some (.other name) => .error (.invalidCredential ("unsupported key algorithm: " ++ name))
  -- `hs256` is the default of the header's type
  | none => if header.alg ≠ .hs256 then .ok header.alg else algorithmFromJwk jwk.algorithm

section
variable [Jsonwebtoken]

def decode (token : String) (key : Jsonwebtoken.Key) (algorithm : Algorithm)
    (requiredIssuer : Option String) : Except String Json := do
  Jsonwebtoken.verify token key algorithm
  let claims ← Jsonwebtoken.payload token
  Jsonwebtoken.checkTimes claims
  Jsonwebtoken.checkIssuer requiredIssuer claims
  return claims

def decodeHeader (token : String) : Except AuthnError Header :=
  mapErr (Jsonwebtoken.decodeHeader token) fun e =>
    .invalidCredential ("malformed JWT header: " ++ e)

def validateAndDecode (token : String) (jwk : Jwk) (requiredIssuer : Option String) :
    Except AuthnError Json := do
  let header ← decodeHeader token
  let algorithm ← resolveAlgorithm header jwk
  let key ← mapErr (Jsonwebtoken.fromJwk jwk) fun e =>
    .invalidCredential ("cannot build decoding key from JWK: " ++ e)
  mapErr (decode token key algorithm requiredIssuer) fun e =>
    .invalidCredential ("JWT validation failed: " ++ e)

end

/-- The attribute of a claim of the namespace. A minus zero is not an integer. -/
def attributeValue : Json → Option PdpValue
  | .string value => some (.string value)
  | .bool value => some (.bool value)
  | .number text => if text = "-0" then none else
    (text.toInt?.filter fun n => -2 ^ 63 ≤ n ∧ n < 2 ^ 63).map .integer
  | _ => none

/-- A claim of the configured namespace. -/
def customClaim (ns : String) (field : String × Json) : Option (String × PdpValue) := do
  let suffix ← field.1.toList.dropPrefix? ns.toList
  if suffix = [] then none else
  let value ← attributeValue field.2
  return (String.ofList suffix, value)

def textClaim (claims : Json) (name : String) : List (String × PdpValue) :=
  match get claims name with
  | some (.string value) => [(name, .string value)]
  | _ => []

def audienceClaim (claims : Json) : List (String × PdpValue) :=
  match get claims "aud" with
  | some (.string value) => [("aud", .string value)]
  | some (.array items) =>
    let list := items.filterMap asStr
    if list = [] then [] else [("aud", .stringList list)]
  | _ => []

def registeredClaims (claims : Json) : List (String × PdpValue) :=
  textClaim claims "iss" ++ audienceClaim claims ++ textClaim claims "email"

def customClaims (claims : Json) (ns : Option String) : List (String × PdpValue) :=
  match claims, ns with
  | .object fields, some ns => fields.filterMap (customClaim ns)
  | _, _ => []

def extractAttributes (claims : Json) (ns : Option String) : PdpAttributes :=
  .ofList (registeredClaims claims ++ customClaims claims ns)

/-- The authenticator: its key set, and what the endpoint answers when the set is refreshed. -/
structure JwtAuthenticator where
  jwks : List Jwk
  fetchJwks : Except AuthnError (List Jwk)
  requiredIssuer : Option String
  claimsNamespace : Option String

def find (jwks : List Jwk) (kid : String) : Option Jwk :=
  jwks.find? fun jwk => jwk.keyId = some kid

/-- The key of the cached set, or of a refreshed one. -/
def JwtAuthenticator.findJwk (self : JwtAuthenticator) (header : Header) :
    Except AuthnError Jwk := do
  let kid ← okOr header.kid (.invalidCredential "JWT header missing \x60kid\x60")
  match find self.jwks kid with
  | some jwk => return jwk
  | none =>
    let jwks ← self.fetchJwks
    okOr (find jwks kid)
      (.invalidCredential ("no JWK found for kid \x60" ++ kid ++ "\x60 after refresh"))

def bearerToken (metadata : RequestMetadata) : Option String := do
  let header ← metadata.headers.get? "authorization"
  let token ← header.toList.dropPrefix? "Bearer ".toList
  return String.ofList token

def JwtAuthenticator.authenticate [Jsonwebtoken] (self : JwtAuthenticator) : Authenticator :=
  fun metadata =>
    match bearerToken metadata with
    | none => .ok none
    | some token => do
      let header ← decodeHeader token
      let jwk ← self.findJwk header
      let claims ← validateAndDecode token jwk self.requiredIssuer
      let sub ← okOr ((get claims "sub").bind asStr)
        (.invalidCredential "JWT missing \x60sub\x60 claim")
      return some ⟨⟨sub, "jwt", extractAttributes claims self.claimsNamespace⟩, "jwt"⟩

end KeyRack.Jwt
