import KeyRack.Service.Routing
import KeyRack.Properties.CreationJournal

/-!
# Which provider serves a key

The provider of a new key is the one that the first matching rule pins, delegates or
leaves to the default, and every selector that the caller gives agrees with it. For
an existing key, the scope check and the registry choose the provider independently;
they agree except where the check does not look at a connection that is there.
-/
namespace KeyRack

open Fallible Process Service

/-! ### New keys -/

/-- What the routing outcome says of the provider, given the caller's selection. -/
inductive Routes (router : ProviderRouter) (providers : ProviderRegistry) :
    RouteOutcome → Option String → ProviderRef → Prop where
  | pinned (r : ProviderRef) (backend : Option String)
      (agrees : ∀ callerId, backend = some callerId → callerId = r.name) :
      Routes router providers (.pinned r) backend r
  | delegated (allowedSet : List ProviderRef) (r : ProviderRef)
      (known : providers.contains r = true) (member : r ∈ allowedSet) :
      Routes router providers (.delegated allowedSet) (some r.name) r
  | delegatedAny (r : ProviderRef) (known : providers.contains r = true) :
      Routes router providers .delegatedAny (some r.name) r
  | unselected (allowedSet : List ProviderRef) :
      Routes router providers (.delegated allowedSet) none router.default
  | unselectedAny : Routes router providers .delegatedAny none router.default
  | denied (defaultProvider : ProviderRef) (known : providers.contains defaultProvider = true) :
      Routes router providers (.default defaultProvider) (some defaultProvider.name) defaultProvider
  | free (defaultProvider r : ProviderRef) (known : providers.contains r = true)
      (ruleless : router.hasRules = false) :
      Routes router providers (.default defaultProvider) (some r.name) r
  | default (defaultProvider : ProviderRef) :
      Routes router providers (.default defaultProvider) none defaultProvider

variable {providers : ProviderRegistry}

theorem registered_eq_ok :
    registered providers callerId = .ok r ↔ providers.contains r = true ∧ r = ⟨callerId⟩ := by
  simp only [registered, eq_ok, Bool.not_eq_false]
  constructor
  · rintro ⟨_, known, rfl⟩
    exact ⟨known, rfl⟩
  · rintro ⟨known, rfl⟩
    exact ⟨(), known, rfl⟩

variable {router : ProviderRouter}

theorem routed_ok (resolved : routed router providers outcome backend = .ok r) :
    Routes router providers outcome backend r := by
  cases outcome with
  | pinned =>
    cases backend with
    | none =>
      cases pure_eq_ok.mp resolved
      exact .pinned _ _ nofun
    | some =>
      simp only [routed, eq_ok, not_not] at resolved
      obtain ⟨_, same, rfl⟩ := resolved
      apply Routes.pinned
      rintro _ ⟨⟩
      exact same
  | delegated allowedSet =>
    cases backend with
    | none =>
      cases pure_eq_ok.mp resolved
      exact .unselected _
    | some callerId =>
      simp only [routed, eq_ok, registered_eq_ok, not_not] at resolved
      obtain ⟨_, ⟨known, rfl⟩, _, member, rfl⟩ := resolved
      exact .delegated allowedSet ⟨callerId⟩ known member
  | delegatedAny =>
    cases backend with
    | none =>
      cases pure_eq_ok.mp resolved
      exact .unselectedAny
    | some callerId =>
      obtain ⟨known, rfl⟩ := registered_eq_ok.mp resolved
      exact .delegatedAny ⟨callerId⟩ known
  | default defaultProvider =>
    cases backend with
    | none =>
      cases pure_eq_ok.mp resolved
      exact .default _
    | some callerId =>
      simp only [routed, eq_ok, registered_eq_ok, not_and, not_not] at resolved
      obtain ⟨_, ⟨known, rfl⟩, _, denied, rfl⟩ := resolved
      cases rules : router.hasRules with
      | false => exact .free defaultProvider ⟨callerId⟩ known rules
      | true =>
        cases denied rules
        exact .denied _ known

theorem Routes.backend_eq (routes : Routes router providers outcome backend r)
    (selected : backend = some callerId) : callerId = r.name := by
  cases routes with
  | pinned _ _ agrees => exact agrees callerId selected
  | unselected | unselectedAny | default => cases selected
  | delegated | delegatedAny | denied | free =>
    cases selected
    rfl

theorem effectiveBackend_ok
    (reconciled : effectiveBackend backendId hsmConnectionId = .ok backend) :
    (∀ selector ∈ [backendId, hsmConnectionId], ∀ text, selection selector = some text →
      backend = some text) ∧
    (backend = none → selection backendId = none ∧ selection hsmConnectionId = none) := by
  unfold effectiveBackend at reconciled
  split at reconciled
  next backendSelected hsmSelected =>
    simp only [eq_ok, not_not] at reconciled
    obtain ⟨_, rfl, rfl⟩ := reconciled
    simp [backendSelected, hsmSelected]
  next backendSelected hsmSelected =>
    cases pure_eq_ok.mp reconciled
    simp [backendSelected, hsmSelected]
  next backendSelected =>
    cases pure_eq_ok.mp reconciled
    simp [backendSelected]

section
variable [UnicodeNormalization]

/-- Everything that a successful resolution can be. -/
theorem resolveCreateProvider_ok
    (resolved : resolveCreateProvider router providers tags requestedProvider hsmConnectionId
      backendId = .ok r) :
    ∃ backend, effectiveBackend backendId hsmConnectionId = .ok backend ∧
      Routes router providers (router.evaluate tags) backend r ∧
      ∀ text, selection requestedProvider = some text → text = r.name := by
  simp only [resolveCreateProvider, eq_ok, checkAll_eq_ok, not_not] at resolved
  obtain ⟨backend, reconciled, _, route, _, asserted, rfl⟩ := resolved
  refine ⟨backend, reconciled, routed_ok route, fun text selected => asserted text ?_⟩
  simp [selected]

/-- All match tags of the rule are there. -/
def ProviderRoutingRule.matchesTags (rule : ProviderRoutingRule) (tags : FlatAttrs) : Bool :=
  rule.matchTags.entries.all fun (key, value) => IdentityTags.get tags key == some value

def ProviderRouter.firstMatch (router : ProviderRouter) (tags : FlatAttrs) :
    Option ProviderRoutingRule := router.rules.find? (·.matchesTags tags)

theorem evaluate_eq (router : ProviderRouter) (tags : FlatAttrs) :
    router.evaluate tags = match router.firstMatch tags with
      | some rule => match rule.action with
        | .route provider => .pinned provider
        | .delegate providers => .delegated providers
        | .delegateAny => .delegatedAny
      | none => .default router.default := rfl

section
variable
  {r : ProviderRef}
  (resolved : resolveCreateProvider router providers tags requestedProvider hsmConnectionId
    backendId = .ok r)

include resolved

theorem resolved_selectors : ∀ selector ∈ [backendId, hsmConnectionId, requestedProvider],
    ∀ text, selector = some text → text ≠ "" → text = r.name := by
  obtain ⟨_, reconciled, routes, asserted⟩ := resolveCreateProvider_ok resolved
  have agree := (effectiveBackend_ok reconciled).1
  intro selector member text given nonempty
  have selected : selection selector = some text := by simp [selection, given, nonempty]
  simp only [List.mem_cons, List.not_mem_nil, or_false] at member
  rcases member with rfl | rfl | rfl
  · exact routes.backend_eq (agree _ (by simp) text selected)
  · exact routes.backend_eq (agree _ (by simp) text selected)
  · exact asserted text selected

theorem resolved_pinned (first : router.firstMatch tags = some rule)
    (pins : rule.action = .route p) : r = p := by
  obtain ⟨_, _, routes, _⟩ := resolveCreateProvider_ok resolved
  simp only [evaluate_eq, first, pins] at routes
  cases routes
  rfl

theorem resolved_delegated (first : router.firstMatch tags = some rule)
    (delegates : rule.action = .delegate allowedSet) :
    (r ∈ allowedSet ∧ providers.contains r = true) ∨
      (selection backendId = none ∧ selection hsmConnectionId = none ∧ r = router.default) := by
  obtain ⟨_, reconciled, routes, _⟩ := resolveCreateProvider_ok resolved
  simp only [evaluate_eq, first, delegates] at routes
  cases routes with
  | delegated _ _ known member => exact Or.inl ⟨member, known⟩
  | unselected =>
    obtain ⟨backendAbsent, hsmAbsent⟩ := (effectiveBackend_ok reconciled).2 rfl
    exact Or.inr ⟨backendAbsent, hsmAbsent, rfl⟩

theorem resolved_default (ruled : router.rules ≠ []) (unmatched : router.firstMatch tags = none) :
    r = router.default := by
  obtain ⟨_, _, routes, _⟩ := resolveCreateProvider_ok resolved
  simp only [evaluate_eq, unmatched] at routes
  cases routes with
  | denied | default => rfl
  | free _ _ _ ruleless => simp [ProviderRouter.hasRules, ruled] at ruleless

end

/-- The provider of a successful resolution agrees with every selector; it is the one that
    the first matching rule pins, one that the rule delegates, or the default; and it
    depends on the selectors only where a rule delegates or there are no rules. -/
theorem resolved_provider (router : ProviderRouter) (providers : ProviderRegistry)
    (tags : FlatAttrs) (requestedProvider hsmConnectionId backendId : Option String)
    (r : ProviderRef)
    (resolved : resolveCreateProvider router providers tags requestedProvider hsmConnectionId
      backendId = .ok r) :
    (∀ selector ∈ [backendId, hsmConnectionId, requestedProvider], ∀ text,
      selector = some text → text ≠ "" → text = r.name) ∧
    (∀ rule, router.firstMatch tags = some rule →
      (∀ p, rule.action = .route p → r = p) ∧
      (∀ allowedSet, rule.action = .delegate allowedSet →
        (r ∈ allowedSet ∧ providers.contains r = true) ∨
          (selection backendId = none ∧ selection hsmConnectionId = none ∧ r = router.default))) ∧
    (router.rules ≠ [] → router.firstMatch tags = none → r = router.default) ∧
    (∀ requestedProvider' hsmConnectionId' backendId' r',
      resolveCreateProvider router providers tags requestedProvider' hsmConnectionId' backendId' =
        .ok r' →
      r' = r ∨ router.rules = [] ∨ ∃ rule, router.firstMatch tags = some rule ∧
        ((∃ allowedSet, rule.action = .delegate allowedSet) ∨ rule.action = .delegateAny)) := by
  refine ⟨resolved_selectors resolved, ?_, resolved_default resolved, ?_⟩
  · intro rule first
    exact ⟨fun p => resolved_pinned resolved first, fun _ => resolved_delegated resolved first⟩
  · intro _ _ _ _ resolved'
    by_cases ruleless : router.rules = []
    · exact Or.inr (Or.inl ruleless)
    cases first : router.firstMatch tags with
    | none =>
      have default := resolved_default resolved ruleless first
      have default' := resolved_default resolved' ruleless first
      simp [default, default']
    | some rule =>
      cases act : rule.action with
      | route =>
        have pinned := resolved_pinned resolved first act
        have pinned' := resolved_pinned resolved' first act
        simp [pinned, pinned']
      | delegate allowedSet | delegateAny => simp [act]

end

section
attribute [local instance] asciiNormalization

/-- A registry of two providers. -/
def pairRegistry : ProviderRegistry where
  resolve name :=
    if name = ⟨"shared"⟩ then .ok ⟨0, .software⟩
    else if name = ⟨"tenant-hsm"⟩ then .ok ⟨1, .pkcs11⟩
    else .error (.other "unknown provider")
  defaultRef := ⟨"shared"⟩
  defaultEntry := ⟨0, .software⟩
  default_resolves := rfl

def tenantRule : ProviderRoutingRule :=
  ⟨.ofList [("tenant", "acme")], .delegate [⟨"tenant-hsm"⟩]⟩

def tenantRouter : ProviderRouter := ⟨[tenantRule], ⟨"shared"⟩⟩

/-- A delegated selection with all three selectors. -/
theorem resolved_provider_delegated :
    (⟨"tenant-hsm"⟩ : ProviderRef) ∈ [(⟨"tenant-hsm"⟩ : ProviderRef)] ∧
      pairRegistry.contains ⟨"tenant-hsm"⟩ = true := by
  have resolved := resolved_provider tenantRouter pairRegistry (.ofList [("tenant", "acme")])
    (some "tenant-hsm") (some "tenant-hsm") (some "tenant-hsm") ⟨"tenant-hsm"⟩ (by decide +kernel)
  rcases (resolved.2.1 tenantRule rfl).2 _ rfl with member | ⟨absent, _⟩
  · exact member
  · exact absurd absent (by decide +kernel)

end

/-! ### Existing keys -/

variable {Own : Type} {OwnReply : Own → Type}

/-- The name under which the registry serves a version of a key. -/
def ProviderRegistry.selectedRef (registry : ProviderRegistry) (record : KeyRecord)
    (versionNumber : Nat) : ProviderRef :=
  (record.effectiveProviderRef versionNumber).getD registry.defaultRef

/-- The version an operation is about: the given one, or the primary one. -/
def operationVersion (record : KeyRecord) (versionNumber : Option Nat) : Nat :=
  versionNumber.getD record.currentKeyVersion

theorem checkedRef_eq (record : KeyRecord) (versionNumber : Option Nat) :
    checkedRef record versionNumber =
      record.effectiveProviderRef (operationVersion record versionNumber) := by
  cases versionNumber <;> rfl

/-- No connection of this name belongs to a scope other than the principal's. -/
def ScopeAllows (connections : String → Option HsmConnection) (scope : Option String)
    (name : ProviderRef) : Prop :=
  ∀ connection owner, connections name.name = some connection →
    connection.scopeOwner = some owner → scope = some owner

/-- The check passes on a reply that is taken for an absent connection, and on a
    connection whose scope is no obstacle. -/
theorem checkScopeOwner_result
    (answer : (c : ServiceCall Own) → ServiceCall.Reply OwnReply c) (name : ProviderRef)
    (scope : Option String) (principalId : String) (action : AuditAction) :
    (checkScopeOwner name scope principalId action : Handler OwnReply DomainError
      Unit).run.resultWith answer = .ok () ↔
      (∃ message, answer (.getHsmConnection name.name) = .error message ∧
        containsText message "not found" = true) ∨
      ∃ connection, answer (.getHsmConnection name.name) = .ok connection ∧
        ∀ owner, connection.scopeOwner = some owner → scope = some owner := by
  simp only [checkScopeOwner, resultWith_try, resultWith_observe]
  cases answer (.getHsmConnection name.name) with
  | error message =>
    cases absent : containsText message "not found" with
    | true => simp [absent]
    | false =>
      simp only [absent]
      change Except.error _ = Except.ok _ ↔ _
      simp [absent]
  | ok connection =>
    cases owned : connection.scopeOwner with
    | none => simp [owned]
    | some owner =>
      cases scope with
      | none =>
        simp only [owned, scopeRefusal]
        change Except.error _ = Except.ok _ ↔ _
        simp [owned]
      | some scope =>
        by_cases same : scope = owner
        · simp only [owned, scopeRefusal, same, if_true]
          change Except.ok _ = Except.ok _ ↔ _
          simp [owned]
        · simp only [owned, scopeRefusal, same, if_false]
          change Except.error _ = Except.ok _ ↔ _
          simp [owned, same]

/-- A passed check means that no connection which serves the version belongs to another
    scope, exactly when such a connection is bound to the key explicitly and its lookup
    does not fail with a text that is taken for absence. -/
theorem scope_enforced_iff
    (answer : (c : ServiceCall Own) → ServiceCall.Reply OwnReply c)
    (connections : String → Option HsmConnection)
    (stored : ∀ id connection, answer (.getHsmConnection id) = .ok connection →
      connections id = some connection)
    (registry : ProviderRegistry) (record : KeyRecord) (versionNumber : Option Nat)
    (scope : Option String) (principalId : String) (action : AuditAction) :
    ((enforceScopeForKeyOp record versionNumber scope principalId action :
        Handler OwnReply DomainError Unit).run.resultWith answer = .ok () →
      ∀ entry, registry.resolveForVersion record (operationVersion record versionNumber) =
          .ok entry →
        ScopeAllows connections scope
          (registry.selectedRef record (operationVersion record versionNumber))) ↔
    (∀ entry, registry.resolveForVersion record (operationVersion record versionNumber) =
        .ok entry →
      ¬ScopeAllows connections scope
        (registry.selectedRef record (operationVersion record versionNumber)) →
      ∃ name, record.effectiveProviderRef (operationVersion record versionNumber) = some name ∧
        ∀ message, answer (.getHsmConnection name.name) = .error message →
          containsText message "not found" = false) := by
  unfold enforceScopeForKeyOp ProviderRegistry.selectedRef
  rw [checkedRef_eq]
  cases bound : record.effectiveProviderRef (operationVersion record versionNumber) with
  | none =>
    simp only [ExceptT.run_pure, resultWith_pure, Option.getD_none, true_imp_iff, reduceCtorEq,
      false_and, exists_false, imp_false, not_not]
  | some =>
    simp only [checkScopeOwner_result, Option.getD_some, Option.some.injEq, exists_eq_left']
    constructor
    · intro allows entry served conflict message replied
      by_contra absent
      apply conflict
      apply allows _ entry served
      exact Or.inl ⟨message, replied, by simpa using absent⟩
    · rintro misread (⟨message, replied, absent⟩ | ⟨_, replied, agrees⟩) entry served
      · by_contra conflict
        have present := misread entry served conflict message replied
        simp [absent] at present
      · intro _ owner row owned
        cases (stored _ _ replied).symm.trans row
        exact agrees owner owned

/-! Two ways past the check. -/

/-- Surroundings in which a connection lookup gets this reply. -/
def lookingUp (reply : Except String HsmConnection) :
    (c : ServiceCall Empty) → ServiceCall.Reply (fun _ => Unit) c
  | .newRequestId => ""
  | .evaluate _ => .error (.other "no decision point")
  | .emit _ => .ok ()
  | .getHsmConnection _ => reply
  | .joinTask => true
  | .own c => c.elim

/-- Both providers are connections of tenants. -/
def tenantConnections (id : String) : Option HsmConnection :=
  if id = "tenant-hsm" then some ⟨id, some "tenant:acme"⟩
  else if id = "shared" then some ⟨id, some "tenant:operator"⟩
  else none

/-- A key of the connection `tenant-hsm`. -/
def tenantKey : KeyRecord :=
  { residentRecord (sampleLid 1) with
    providerRef := some ⟨"tenant-hsm"⟩
    keyVersions := [⟨1, .providerResident ⟨"object", .aes256⟩ (some ⟨"tenant-hsm"⟩), 0, true⟩] }

/-- A key that names no provider. -/
def unboundKey : KeyRecord :=
  { residentRecord (sampleLid 2) with
    providerRef := none
    keyVersions := [⟨1, .providerResident ⟨"object", .aes256⟩ none, 0, true⟩] }

/-- A principal of tenant `beta` passes the check for a key of tenant `acme` when the lookup
    fails with a text that speaks of something else not found, and for a key that names no
    provider although the default one is the operator's connection. -/
theorem scope_check_passes_other_tenant :
    ((enforceScopeForKeyOp tenantKey none (some "tenant:beta") "mallory" .decrypt :
        Handler _ DomainError Unit).run.resultWith
          (lookingUp (.error "storage error: replica not found")) = .ok () ∧
      pairRegistry.resolveForVersion tenantKey 1 = .ok ⟨1, .pkcs11⟩ ∧
      ¬ScopeAllows tenantConnections (some "tenant:beta")
        (pairRegistry.selectedRef tenantKey 1)) ∧
    (enforceScopeForKeyOp unboundKey none (some "tenant:beta") "mallory" .decrypt :
        Handler _ DomainError Unit).run.resultWith
          (lookingUp (.ok ⟨"shared", some "tenant:operator"⟩)) = .ok () ∧
      pairRegistry.resolveForVersion unboundKey 1 = .ok ⟨0, .software⟩ ∧
      ¬ScopeAllows tenantConnections (some "tenant:beta")
        (pairRegistry.selectedRef unboundKey 1) := by
  refine ⟨⟨by decide +kernel, rfl, ?_⟩, by decide +kernel, rfl, ?_⟩
  · intro allows
    have same := allows ⟨"tenant-hsm", some "tenant:acme"⟩ _ rfl rfl
    simp at same
  · intro allows
    have same := allows ⟨"shared", some "tenant:operator"⟩ _ rfl rfl
    simp at same

/-- A bound key whose connection is found. -/
theorem scope_enforced_iff_bound :
    (enforceScopeForKeyOp tenantKey none (some "tenant:acme") "alice" .decrypt :
        Handler _ DomainError Unit).run.resultWith
          (lookingUp (.ok ⟨"tenant-hsm", some "tenant:acme"⟩)) = .ok () ∧
      ScopeAllows tenantConnections (some "tenant:acme")
        (pairRegistry.selectedRef tenantKey 1) := by
  have enforced := scope_enforced_iff (lookingUp (.ok ⟨"tenant-hsm", some "tenant:acme"⟩))
    (fun _ => some ⟨"tenant-hsm", some "tenant:acme"⟩)
    (fun _ _ replied => by cases replied; rfl) pairRegistry tenantKey none
    (some "tenant:acme") "alice" .decrypt
  have passes : (enforceScopeForKeyOp tenantKey none (some "tenant:acme") "alice" .decrypt :
      Handler _ DomainError Unit).run.resultWith
        (lookingUp (.ok ⟨"tenant-hsm", some "tenant:acme"⟩)) = .ok () := by decide +kernel
  refine ⟨passes, ?_⟩
  have allows := enforced.mpr ?_ passes _ rfl
  · intro _ owner row owned
    cases row
    exact allows _ owner rfl owned
  · intro _ _ _
    exact ⟨⟨"tenant-hsm"⟩, rfl, nofun⟩

end KeyRack
