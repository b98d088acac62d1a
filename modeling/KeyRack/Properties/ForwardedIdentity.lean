import KeyRack.Core.Authn

/-!
# Where a forwarded identity goes

Headers whose values are no text never reach the authenticators. A request with a reserved
header is kept from the later members of a chain exactly if one of its reserved headers has
a value that is a text. A request without one is passed on, unless its peer is trusted and has
no name of its own; a principal comes from the reserved headers and the first certificate only.
-/
namespace KeyRack

open Fallible AuthenticatorChain SortedMap TrustedMtlsPeerAuthenticator

/-- The text values are the ones that reach the authenticators. -/
theorem containsKey_toMetadata (request : GrpcRequest) (name : String) :
    request.toMetadata.headers.containsKey name = true ↔
      ∃ entry ∈ request.metadata, entry.1 = name ∧ (headerText entry.2).isSome = true := by
  have collected (start : SortedMap String String) (entries : List (String × Bytes)) :
      (entries.foldl insertHeader start).containsKey name = true ↔
        start.containsKey name = true ∨
          ∃ entry ∈ entries, entry.1 = name ∧ (headerText entry.2).isSome = true := by
    induction entries generalizing start with
    | nil => simp
    | cons entry _ ih =>
      rw [List.foldl_cons, ih, List.exists_mem_cons_iff, insertHeader]
      cases text : headerText entry.2 with
      | none => simp
      | some value =>
        have inserted : (start.insert entry.1 value).containsKey name = true ↔
            entry.1 = name ∨ start.containsKey name = true :=
          hasKey_insertEntry entry.1 name value start.entries
        simp [inserted, or_assoc, or_left_comm]
  have empty : (empty : SortedMap String String).containsKey name = false := rfl
  rw [GrpcRequest.toMetadata, collected, empty]
  simp

/-- A reserved header has a value that is a text. -/
def ForwardsText (request : GrpcRequest) : Prop :=
  ∃ entry ∈ request.metadata, entry.1 ∈ forwardedIdentityHeaders ∧
    (headerText entry.2).isSome = true

theorem hasForwardedIdentityHeaders_iff (request : GrpcRequest) :
    hasForwardedIdentityHeaders request.toMetadata = true ↔ ForwardsText request := by
  simp only [hasForwardedIdentityHeaders, List.any_eq_true, containsKey_toMetadata, ForwardsText]
  constructor
  · rintro ⟨_, reserved, entry, member, rfl, text⟩
    exact ⟨entry, member, reserved, text⟩
  · rintro ⟨entry, member, reserved, text⟩
    exact ⟨entry.1, reserved, entry, member, rfl, text⟩

/-- With a reserved header the authenticator refuses the request or makes the principal. -/
theorem authenticateForwarded_decides
    {authenticatePeer : List Bytes → Except AuthnError (Option TrustedPeer)}
    (forwards : hasForwardedIdentityHeaders metadata = true)
    (returned : authenticateForwarded authenticatePeer metadata = .ok made) :
    ∃ result, made = some result ∧ result.principal.principalType = "DelegatedIdentity" := by
  obtain ⟨peer, _, returned⟩ := bind_eq_ok.mp returned
  cases peer with
  | none =>
    obtain ⟨_, refused, _⟩ := bind_eq_ok.mp returned
    exact absurd forwards (refuseIf_eq_ok.mp refused)
  | some =>
    simp only [forwards, Bool.not_true, Bool.false_eq_true, if_false, eq_ok]
      at returned
    obtain ⟨_, _, _, _, _, _, rfl⟩ := returned
    exact ⟨_, rfl, rfl⟩

/-- The request is refused or gets a delegated identity from the first member. -/
def Delegated (authenticatePeer : List Bytes → Except AuthnError (Option TrustedPeer))
    (later : List Authenticator) (request : GrpcRequest) : Prop :=
  ∀ principal, extractPrincipalGrpc (authenticateForwarded authenticatePeer :: later) request =
    .ok principal → ∃ result, authenticateForwarded authenticatePeer request.toMetadata =
      .ok (some result) ∧ result.principal = principal ∧
      principal.principalType = "DelegatedIdentity"

/-- Whatever the peer and the later members are, the first member decides exactly if a reserved
    header has a value that is a text. -/
theorem delegated_iff_forwardsText (request : GrpcRequest) :
    (∀ authenticatePeer later, Delegated authenticatePeer later request) ↔
      ForwardsText request := by
  rw [← hasForwardedIdentityHeaders_iff]
  constructor
  · intro delegated
    by_contra unseen
    -- an unknown peer goes on to the next member, here one that takes everybody
    have passed : authenticateForwarded (fun _ => .ok none) request.toMetadata = .ok none := by
      simp [authenticateForwarded, unseen, refuseIf, bind, Except.bind, pure, Except.pure]
    have anonymous : extractPrincipalGrpc [authenticateForwarded fun _ => .ok none,
        insecureAuthenticator] request = .ok ⟨"keyrack:anonymous", "Service", .empty⟩ := by
      simp [extractPrincipalGrpc, authenticate, passed, insecureAuthenticator,
        bind, Except.bind, pure, Except.pure]
    obtain ⟨_, made, _⟩ := delegated _ _ _ anonymous
    rw [passed] at made
    cases made
  · intro forwards _ _ _ extracted
    obtain ⟨_, authenticated, rest⟩ := bind_eq_ok.mp extracted
    obtain ⟨_, first, chosen⟩ := bind_eq_ok.mp authenticated
    obtain ⟨_, rfl, delegatedType⟩ := authenticateForwarded_decides forwards first
    cases chosen
    cases rest
    exact ⟨_, first, rfl, delegatedType⟩

/-- A principal id that is no text is not seen, and a later member authenticates the caller. -/
theorem unreadable_header_is_dropped :
    let request : GrpcRequest := ⟨[("x-keyrack-principal-id", [0xE9])], []⟩
    (∃ entry ∈ request.metadata, entry.1 ∈ forwardedIdentityHeaders) ∧
      (extractPrincipalGrpc [authenticateForwarded fun _ => .ok none, insecureAuthenticator]
        request).toOption.map (·.id) = some "keyrack:anonymous" := by
  decide +kernel

/-! ### The trusted peer -/

variable (trust : TrustedMtlsPeerAuthenticator)

/-- The first certificate passes the checks. -/
structure Confirms [X509] (certificates : List Bytes) (leaf : Certificate) : Prop where
  parsed : certificates.head?.bind X509.fromDer = some leaf
  issued : trust.checkIssuerMatches leaf = true
  named : trust.matchSanRequirement leaf ≠ .unmatched
  unit : trust.checkOuRequirement leaf = true

theorem authenticatePeer_cases [X509] (certificates : List Bytes) :
    (∀ leaf, ¬Confirms trust certificates leaf) ∧ trust.authenticatePeer certificates = .ok none ∨
      ∃ leaf, Confirms trust certificates leaf ∧ trust.authenticatePeer certificates =
        trustedPeer leaf (trust.requiredSans.bind (·.find? (carriesSan leaf))) := by
  unfold authenticatePeer
  cases parsed : certificates.head?.bind X509.fromDer with
  | none =>
    refine .inl ⟨?_, rfl⟩
    intro _ confirms
    cases parsed.symm.trans confirms.parsed
  | some leaf =>
    dsimp only
    split
    case h_1 issued requirement unit | h_2 issued requirement unit =>
      refine .inr ⟨leaf, ⟨parsed, issued, by simp [requirement], unit⟩, ?_⟩
      unfold matchSanRequirement at requirement
      grind
    case h_3 unrestricted matched =>
      refine .inl ⟨?_, rfl⟩
      rintro _ ⟨same, issued, named, unit⟩
      cases parsed.symm.trans same
      cases requirement : trust.matchSanRequirement leaf with
      | unrestricted => exact unrestricted issued requirement unit
      | matched san => exact matched san issued requirement unit
      | unmatched => exact named requirement

/-- A confirmed certificate that names nobody. -/
def Nameless [X509] (metadata : RequestMetadata) : Prop :=
  ∃ leaf, Confirms trust metadata.peerCertificates leaf ∧ spiffeId leaf = none ∧
    extractCn leaf = none

def namelessPeer : AuthnError :=
  .invalidCredential "trusted peer certificate has neither a CN nor a SPIFFE SAN"

variable {metadata : RequestMetadata}

theorem authenticateForwarded_cases [X509]
    (unforwarded : hasForwardedIdentityHeaders metadata = false) :
    Nameless trust metadata ∧
        authenticateForwarded trust.authenticatePeer metadata = .error namelessPeer ∨
      ¬Nameless trust metadata ∧
        authenticateForwarded trust.authenticatePeer metadata = .ok none := by
  obtain ⟨unconfirmed, passed⟩ | ⟨leaf, confirms, passed⟩ :=
    authenticatePeer_cases trust metadata.peerCertificates
  · refine .inr ⟨fun nameless => unconfirmed _ nameless.choose_spec.1, ?_⟩
    simp [authenticateForwarded, passed, unforwarded, refuseIf, bind, Except.bind, pure,
      Except.pure]
  · cases id : (spiffeId leaf).or (extractCn leaf) with
    | none =>
      refine .inl ⟨⟨leaf, confirms, Option.or_eq_none_iff.mp id⟩, ?_⟩
      simp [authenticateForwarded, passed, trustedPeer, id, okOr, bind, Except.bind, namelessPeer]
    | some =>
      refine .inr ⟨?_, ?_⟩
      · rintro ⟨_, same, spiffe, cn⟩
        cases confirms.parsed.symm.trans same.parsed
        simp [spiffe, cn] at id
      · simp [authenticateForwarded, passed, trustedPeer, id, okOr, unforwarded, bind,
          Except.bind, pure, Except.pure]

open Classical in
theorem authenticate_append (before rest : List Authenticator) :
    authenticate metadata (before ++ rest) =
      if ∀ member ∈ before, member metadata = .ok none then authenticate metadata rest
      else authenticate metadata before := by
  induction before with
  | nil => simp
  | cons member before ih =>
    simp only [List.cons_append, authenticate, ih, List.forall_mem_cons]
    cases member metadata with
    | error => simp [bind, Except.bind]
    | ok result => cases result <;> simp [bind, Except.bind]

/-- Without reserved headers the authenticator can be left out of a chain exactly if an
    earlier member decides, the peer is not a confirmed one without a CN and a SPIFFE id, or
    the later members refuse it for that, too. -/
theorem transparent_iff_identified [X509] (before after : List Authenticator)
    (unforwarded : hasForwardedIdentityHeaders metadata = false) :
    authenticate metadata (before ++ authenticateForwarded trust.authenticatePeer :: after) =
        authenticate metadata (before ++ after) ↔
      (∃ member ∈ before, member metadata ≠ .ok none) ∨ ¬Nameless trust metadata ∨
        authenticate metadata after = .error namelessPeer := by
  rw [authenticate_append, authenticate_append]
  by_cases passed : ∀ member ∈ before, member metadata = .ok none
  · rw [if_pos passed, if_pos passed, authenticate]
    rcases authenticateForwarded_cases trust unforwarded with ⟨nameless, refused⟩ | ⟨named, skipped⟩
    · rw [refused]
      have undecided : ¬∃ member ∈ before, member metadata ≠ .ok none := by simpa using passed
      simp [undecided, nameless, bind, Except.bind, eq_comm]
    · rw [skipped]
      exact iff_of_true rfl (.inr (.inl named))
  · rw [if_neg passed, if_neg passed]
    exact iff_of_true rfl (.inl (by simpa using passed))

/-- A certificate for every text. -/
abbrev sampleX509 (subject : List SubjectAttribute) : X509 :=
  ⟨fun _ => some ⟨some [48, 0], [1], subject, [[.dnsName "edge"]]⟩⟩

theorem transparent_with_cn :
    let _ := sampleX509 [.cn (.utf8 "edge")]
    ∀ before after, authenticate ⟨.empty, [[]]⟩ (before ++
        authenticateForwarded (authenticatePeer ⟨[48, 0], some ["edge"], none⟩) :: after) =
      authenticate ⟨.empty, [[]]⟩ (before ++ after) := by
  intro _ before after
  refine (transparent_iff_identified _ before after rfl).mpr (.inr (.inl ?_))
  rintro ⟨_, ⟨⟨⟩⟩, _, ⟨⟩⟩

/-- A trusted peer without a CN and a SPIFFE id is refused, though it forwards nobody. -/
theorem nameless_peer_is_refused :
    let _ := sampleX509 []
    let methods (chain : List Authenticator) : Option String :=
      (authenticate ⟨.empty, [[]]⟩ chain).toOption.map (·.method)
    hasForwardedIdentityHeaders ⟨.empty, [[]]⟩ = false ∧
      methods [authenticateForwarded (authenticatePeer ⟨[48, 0], some ["edge"], none⟩),
        insecureAuthenticator] = none ∧
      methods [insecureAuthenticator] = some "insecure" := by
  decide +kernel

/-- The same first certificate and reserved headers. -/
def Agree (one other : RequestMetadata) : Prop :=
  one.peerCertificates.head? = other.peerCertificates.head? ∧
    ∀ name ∈ forwardedIdentityHeaders, one.headers.get? name = other.headers.get? name

theorem authenticateForwarded_congr [X509]
    (agree : Agree one other) : authenticateForwarded trust.authenticatePeer one =
      authenticateForwarded trust.authenticatePeer other := by
  have contained (metadata : RequestMetadata) (name : String) :
      metadata.headers.containsKey name = (metadata.headers.get? name).isSome := by
    rw [Bool.eq_iff_iff]
    simp [containsKey, hasKey, get?, lookup]
  simp only [Agree, forwardedIdentityHeaders, List.forall_mem_cons] at agree
  obtain ⟨first, principal, tenant, project, domain, _⟩ := agree
  simp only [authenticateForwarded, authenticatePeer, hasForwardedIdentityHeaders,
    forwardedIdentityHeaders, List.any_cons, contained, forwardedAttribute, forwardedHeader, first,
    principal, tenant, project, domain, List.any_nil]

theorem lookup_forwardedAttribute (other : key ≠ name)
    (metadata : RequestMetadata) (header : String) :
    lookup name (forwardedAttribute metadata header key).reverse = none := by
  cases value : forwardedHeader metadata header <;> simp [forwardedAttribute, value, lookup, other]

/-- A returned principal is a tenant's, delegated by a peer with the required names. -/
theorem returned_principal_is_bound [X509] {metadata : RequestMetadata} {result : AuthnResult}
    (returned : authenticateForwarded trust.authenticatePeer metadata = .ok (some result)) :
    (∃ leaf, metadata.peerCertificates.head?.bind X509.fromDer = some leaf ∧
      leaf.issuer = some trust.trustedCaSubjectDer ∧
      (∀ ou, trust.requiredOu = some ou → carriesOu leaf ou = true) ∧
      ∀ required, trust.requiredSans = some required →
        ∃ san, required.find? (carriesSan leaf) = some san ∧
          result.principal.attributes.get? "delegating_peer_id" = some (.string san)) ∧
    metadata.headers.get? "x-keyrack-principal-id" = some result.principal.id ∧
    result.principal.id ≠ "" ∧
    (∃ tenant, metadata.headers.get? "x-keyrack-tenant-id" = some tenant ∧ tenant ≠ "" ∧
      (∀ c ∈ tenant.toList, c ≠ ':' ∧ Text.isWhiteSpace c = false) ∧
      result.principal.attributes.get? "scope" = some (.string ("tenant:" ++ tenant))) ∧
    ∀ one other, Agree one other → authenticateForwarded trust.authenticatePeer one =
      authenticateForwarded trust.authenticatePeer other := by
  obtain ⟨peer, authenticated, rest⟩ := bind_eq_ok.mp returned
  obtain ⟨_, passed⟩ | ⟨leaf, ⟨parsed, issued, named, unit⟩, passed⟩ :=
    authenticatePeer_cases trust metadata.peerCertificates
  · cases passed.symm.trans authenticated
    obtain ⟨_, _, ⟨⟩⟩ := bind_eq_ok.mp rest
  · obtain ⟨_, _, ⟨⟩⟩ := bind_eq_ok.mp (passed.symm.trans authenticated)
    dsimp only at rest
    split at rest
    · cases rest
    simp only [eq_ok, forwardedHeader, Option.filter_eq_some_iff] at rest
    obtain ⟨_, ⟨principal, nonempty⟩, _, ⟨tenant, owned⟩, _, clean, ⟨⟩⟩ := rest
    refine ⟨⟨leaf, parsed, of_decide_eq_true issued, ?_, ?_⟩, principal, by simpa using nonempty,
      ⟨_, tenant, by simpa using owned, by simpa using clean, ?_⟩,
      fun _ _ => authenticateForwarded_congr trust⟩
    · intro ou configured
      simpa [checkOuRequirement, configured] using unit
    · intro required configured
      cases found : required.find? (carriesSan leaf) with
      | none => simp [matchSanRequirement, configured, found] at named
      | some san =>
        refine ⟨san, rfl, ?_⟩
        simp [get?_ofList, lookup_append, lookup_forwardedAttribute, lookup_cons, configured, found]
    · simp [get?_ofList, lookup_append, lookup_forwardedAttribute, lookup_cons]

theorem bound_principal_of_edge :
    let _ := sampleX509 [.cn (.utf8 "edge")]
    let metadata : RequestMetadata :=
      ⟨.ofList [("x-keyrack-principal-id", "alice"), ("x-keyrack-tenant-id", "acme")], [[]]⟩
    ∃ result, authenticateForwarded (authenticatePeer ⟨[48, 0], some ["edge"], none⟩) metadata =
      .ok (some result) ∧ result.principal.id ≠ "" := by
  intro _ metadata
  have returned : authenticateForwarded (authenticatePeer ⟨[48, 0], some ["edge"], none⟩) metadata =
    .ok (some _) := rfl
  exact ⟨_, returned, (returned_principal_is_bound _ returned).2.2.1⟩

end KeyRack
