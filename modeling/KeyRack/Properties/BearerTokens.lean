import KeyRack.Core.Jwt

/-!
# What a bearer token proves

A key that declares no algorithm is used with the one that the token asks for, and a required
issuer is compared only with a claim that is there. The listed algorithms and the issuer are
kept exactly where neither gap is open.
-/
namespace KeyRack.Jwt

open Fallible Audit Jsonwebtoken SortedMap

section
variable [Jsonwebtoken] {self : JwtAuthenticator} {metadata : RequestMetadata} {token : String}
  {header : Header} {jwk : Jwk} {algorithm : Algorithm} {claims : Json}

/-- A listed algorithm verified the signature, the required issuer is the `iss` claim and the
    id is the `sub` claim. -/
def Vouched (self : JwtAuthenticator) (token id : String) : Prop :=
  ∃ header jwk algorithm key claims, decodeHeader token = .ok header ∧
    self.findJwk header = .ok jwk ∧ resolveAlgorithm header jwk = .ok algorithm ∧
    fromJwk jwk = .ok key ∧ verify token key algorithm = .ok () ∧
    algorithm ∈ supported ∧ payload token = .ok claims ∧
    (∀ issuer, self.requiredIssuer = some issuer → get claims "iss" = some (.string issuer)) ∧
    get claims "sub" = some (.string id)

/-- The key declares its algorithm, or the header gives a listed one or the default; and the
    token names an issuer in a text if one is required. -/
def Declares (self : JwtAuthenticator) (token : String) : Prop :=
  ∃ header jwk claims, decodeHeader token = .ok header ∧ self.findJwk header = .ok jwk ∧
    payload token = .ok claims ∧
    (jwk.keyAlgorithm.isSome = true ∨ header.alg = .hs256 ∨ header.alg ∈ supported) ∧
    (self.requiredIssuer.isSome = true → ∃ text, get claims "iss" = some (.string text))

omit [Jsonwebtoken] in
theorem resolveAlgorithm_supported (resolved : resolveAlgorithm header jwk = .ok algorithm) :
    algorithm ∈ supported ↔
      jwk.keyAlgorithm.isSome = true ∨ header.alg = .hs256 ∨ header.alg ∈ supported := by
  unfold resolveAlgorithm at resolved
  split at resolved
  next declared =>
    split_ifs at resolved with listed
    cases resolved
    simp [declared, listed]
  next => cases resolved
  next undeclared =>
    split_ifs at resolved with named
    · cases resolved
      simp [undeclared, named]
    · have implied : algorithm ∈ supported := by
        unfold algorithmFromJwk at resolved
        split at resolved <;> cases resolved <;> decide
      simp [not_not.mp named, implied]

omit [Jsonwebtoken] in
theorem asStr_eq_some {text : String} : asStr value = some text ↔ value = .string text := by
  cases value <;> simp [asStr]

/-- What `decode` has checked of the claims it returns. -/
theorem decode_eq_ok {requiredIssuer : Option String}
    (decoded : decode token key algorithm requiredIssuer = .ok claims) :
    verify token key algorithm = .ok () ∧ payload token = .ok claims ∧
      ∀ issuer text, requiredIssuer = some issuer → get claims "iss" = some (.string text) →
        text = issuer := by
  obtain ⟨_, verified, decoded⟩ := bind_eq_ok.mp decoded
  obtain ⟨_, read, decoded⟩ := bind_eq_ok.mp decoded
  obtain ⟨_, _, decoded⟩ := bind_eq_ok.mp decoded
  obtain ⟨_, compared, decoded⟩ := bind_eq_ok.mp decoded
  cases decoded
  refine ⟨verified, read, fun _ _ required named => ?_⟩
  rw [required] at compared
  exact checkIssuer_text _ _ _ compared named

/-- An accepted token meets all of it exactly if neither gap is open. -/
theorem vouched_iff_declares {result : AuthnResult} (bearer : bearerToken metadata = some token)
    (accepted : self.authenticate metadata = .ok (some result)) :
    Vouched self token result.principal.id ↔ Declares self token := by
  constructor
  · rintro ⟨_, _, _, _, _, read, found, resolved, _, _, listed, payload, issued, _⟩
    refine ⟨_, _, _, read, found, payload, (resolveAlgorithm_supported resolved).mp listed,
      fun required => ?_⟩
    obtain ⟨issuer, required⟩ := Option.isSome_iff_exists.mp required
    exact ⟨issuer, issued issuer required⟩
  · rintro ⟨_, _, _, read, found, payload, declared, named⟩
    simp only [JwtAuthenticator.authenticate, bearer, read, found, validateAndDecode, eq_ok,
      Except.ok.injEq, exists_eq_left'] at accepted
    obtain ⟨_, ⟨_, resolved, _, made, decoded⟩, _, subject, same⟩ := accepted
    obtain ⟨verified, payload', issued⟩ := decode_eq_ok decoded
    cases payload.symm.trans payload'
    cases same
    obtain ⟨_, found', text⟩ := Option.bind_eq_some_iff.mp subject
    rw [asStr_eq_some.mp text] at found'
    refine ⟨_, _, _, _, _, read, found, resolved, made, verified,
      (resolveAlgorithm_supported resolved).mpr declared, payload, fun issuer required => ?_,
      found'⟩
    obtain ⟨text, there⟩ := named (by rw [required]; rfl)
    rw [there, issued issuer text required there]

end

/-- Every token verifies; it is the name of its algorithm, and one that names an issuer. -/
abbrev sampleJsonwebtoken : Jsonwebtoken where
  Key := Unit
  decodeHeader token := .ok ⟨if token = "PS256" then .ps256 else .rs256, some "k"⟩
  payload token := .ok (.object (("sub", .string "alice") ::
    if token = "RS256" then [("iss", .string "issuer")] else []))
  fromJwk _ := .ok ()
  verify _ _ _ := .ok ()
  checkTimes _ := .ok ()
  checkIssuer issuer claims := match issuer, get claims "iss" with
    | some issuer, some (.string text) => refuseIf (text ≠ issuer) "InvalidIssuer"
    | _, _ => .ok ()
  checkIssuer_text issuer claims text compared named := by
    simpa only [named, refuseIf_eq_ok, not_not] using compared
  checkIssuer_absent issuer claims absent := by
    cases issuer <;> simp only [absent]

def sampleAuthenticator : JwtAuthenticator :=
  ⟨[⟨some "k", none, .rsa, []⟩], .ok [], some "issuer", none⟩

def bearing (token : String) : RequestMetadata :=
  ⟨.ofList [("authorization", "Bearer " ++ token)], []⟩

attribute [local instance] sampleJsonwebtoken

theorem vouched_declaring_token : Vouched sampleAuthenticator "RS256" "alice" :=
  (@vouched_iff_declares _ sampleAuthenticator (bearing "RS256") "RS256"
    ⟨⟨"alice", "jwt", .ofList [("iss", .string "issuer")]⟩, "jwt"⟩ (by decide +kernel) rfl).mpr
    ⟨_, _, _, rfl, rfl, rfl, .inr (.inr (by decide)), fun _ => ⟨_, rfl⟩⟩

/-- A token is accepted under an algorithm that is not listed, and without the issuer. -/
theorem unlisted_algorithm_without_issuer :
    ((sampleAuthenticator.authenticate (bearing "PS256")).toOption.bind id).map
      (·.principal.id) = some "alice" ∧
    resolveAlgorithm ⟨.ps256, some "k"⟩ ⟨some "k", none, .rsa, []⟩ = .ok .ps256 ∧
    Algorithm.ps256 ∉ supported ∧
    (payload "PS256").toOption.bind (get · "iss") = none := by
  refine ⟨by decide +kernel, rfl, by decide, rfl⟩

/-! ### Registered claims -/

def registeredNames : List String := ["iss", "aud", "email"]

/-- What the token's own claim of a name says: a text, or the texts of an audience list. -/
def ownAttribute (claims : Json) (name : String) : Option PdpValue :=
  match get claims name with
  | some (.string text) => some (.string text)
  | some (.array items) =>
    let texts := items.filterMap asStr
    if name = "aud" ∧ texts ≠ [] then some (.stringList texts) else none
  | _ => none

/-- The attributes are those of the token's own `iss`, `aud` and `email` claims. -/
def Registered (claims : Json) (ns : Option String) : Prop :=
  ∀ name ∈ registeredNames, (extractAttributes claims ns).get? name = ownAttribute claims name

/-- The last claim whose name is this one behind the namespace and that has the value of an
    attribute. -/
def namespaced (claims : Json) (ns : Option String) (name : String) : Option PdpValue :=
  match claims, ns with
  | .object fields, some ns => fields.reverse.findSome? fun field =>
    if field.1 = ns ++ name then attributeValue field.2 else none
  | _, _ => none

theorem customClaim_eq_some {field : String × Json} {name : String} (named : name ≠ "") :
    customClaim ns field = some (name, value) ↔
      field.1 = ns ++ name ∧ attributeValue field.2 = some value := by
  have texts : field.1 = ns ++ name ↔ field.1.toList = ns.toList ++ name.toList := by
    rw [← String.toList_inj, String.toList_append]
  rw [texts]
  constructor
  · intro claimed
    obtain ⟨suffix, stripped, claimed⟩ := Option.bind_eq_some_iff.mp claimed
    split_ifs at claimed
    obtain ⟨_, read, claimed⟩ := Option.bind_eq_some_iff.mp claimed
    cases claimed
    obtain ⟨front, whole, same⟩ := List.dropPrefix?_eq_some_iff.mp stripped
    rw [whole, eq_of_beq same, String.toList_ofList]
    exact ⟨rfl, read⟩
  · rintro ⟨whole, read⟩
    have stripped : field.1.toList.dropPrefix? ns.toList = some name.toList :=
      List.dropPrefix?_eq_some_iff.mpr ⟨_, whole, beq_self_eq_true _⟩
    simp [customClaim, stripped, read, named]

theorem lookup_customClaims (claims : Json) (ns : Option String) {name : String}
    (named : name ≠ "") :
    lookup name (customClaims claims ns).reverse = namespaced claims ns name := by
  cases ns with
  | none => cases claims <;> rfl
  | some ns =>
    cases claims with
    | object fields =>
      simp only [customClaims, namespaced, ← List.filterMap_reverse]
      induction fields.reverse with
      | nil => rfl
      | cons field rest ih =>
        have mine (value : PdpValue) := @customClaim_eq_some ns value field name named
        grind [lookup_cons]
    | _ => rfl

theorem lookup_textClaim (claims : Json) {claimed : String} (other : claimed ≠ "aud") :
    lookup name (textClaim claims claimed).reverse =
      if claimed = name then ownAttribute claims name else none := by
  unfold textClaim ownAttribute
  by_cases same : claimed = name
  · subst same
    rcases get claims claimed with _ | _ | _ | _ | _ | _ | _ <;> simp [lookup, other]
  · split <;> simp [lookup, same]

theorem lookup_audienceClaim (claims : Json) :
    lookup name (audienceClaim claims).reverse =
      if "aud" = name then ownAttribute claims name else none := by
  unfold audienceClaim ownAttribute
  by_cases same : "aud" = name
  · subst same
    rcases get claims "aud" with _ | _ | _ | _ | _ | items | _
    case some.array =>
      dsimp only
      cases items.filterMap asStr <;> simp [lookup]
    all_goals simp [lookup]
  · split
    case h_2 items _ => cases items.filterMap asStr <;> simp [lookup, same]
    all_goals simp [lookup, same]

theorem lookup_registeredClaims (claims : Json) (member : name ∈ registeredNames) :
    lookup name (registeredClaims claims).reverse = ownAttribute claims name := by
  simp only [registeredNames, List.mem_cons, List.not_mem_nil, or_false] at member
  simp only [registeredClaims, List.reverse_append, lookup_append, lookup_audienceClaim,
    lookup_textClaim claims (by decide : "iss" ≠ "aud"),
    lookup_textClaim claims (by decide : "email" ≠ "aud")]
  rcases member with rfl | rfl | rfl <;> simp

/-- The claims of the namespace come last. -/
theorem get?_extractAttributes (claims : Json) (ns : Option String)
    (member : name ∈ registeredNames) :
    (extractAttributes claims ns).get? name =
      (namespaced claims ns name).or (ownAttribute claims name) := by
  rw [extractAttributes, get?_ofList, List.reverse_append, lookup_append,
    lookup_customClaims claims ns (by rintro rfl; exact absurd member (by decide)),
    lookup_registeredClaims claims member]

/-- The attributes are those of the token's own claims exactly if no claim of the namespace
    gives one of their names another value. -/
theorem registered_iff_not_shadowed (claims : Json) (ns : Option String) :
    Registered claims ns ↔ ∀ name ∈ registeredNames, ∀ value,
      namespaced claims ns name = some value → ownAttribute claims name = some value := by
  refine forall₂_congr fun name member => ?_
  rw [get?_extractAttributes claims ns member]
  cases namespaced claims ns name with
  | none => simp
  | some value => simp [eq_comm]

/-- A claim of the namespace becomes the issuer. -/
theorem namespaced_claim_shadows_issuer :
    (extractAttributes (.object [("https://app/iss", .string "b"), ("iss", .string "a")])
      (some "https://app/")).get? "iss" = some (.string "b") ∧
    ownAttribute (.object [("https://app/iss", .string "b"), ("iss", .string "a")]) "iss" =
      some (.string "a") :=
  ⟨rfl, rfl⟩

end KeyRack.Jwt
