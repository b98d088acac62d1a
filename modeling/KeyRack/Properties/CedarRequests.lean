import KeyRack.Cedar.Engine

/-!
# What Cedar is asked

An id that Cedar accepts is the printed form of the id that it authorizes, so different ids
stay different, but only an id without a backslash is authorized as it is. The attributes
and the context never reach Cedar, so every policy decides as it should exactly if there
are none.
-/
namespace KeyRack.Cedar

open Fallible Encoding CedarPolicy List

/-! ### Ids -/

theorem format_inj {entityType entityType' : EntityType} {id id' : String}
    (same : entityType.format id = entityType'.format id') :
    entityType = entityType' ∧ id = id' := by
  have types : entityType = entityType' := by
    have tenth := congrArg (fun text => text.toList[9]?) same
    simp only [EntityType.format, String.toList_append] at tenth
    cases entityType <;> cases entityType' <;> first | rfl | skip
    all_goals
      rw [getElem?_append_left (by decide), getElem?_append_left (by decide)] at tenth
      revert tenth
      decide
  subst types
  exact ⟨rfl, by simpa [EntityType.format] using same⟩

section
variable [CedarPolicy]

/-- The text that was parsed is the printed form of the entity. -/
theorem parseUid_escaped {id : String} (parses : parseUid entityType id = some uid) :
    uid.entityType = entityType ∧ escaped uid.id = id :=
  format_inj (normal _ _ parses)

/-- Without a backslash. -/
def Plain (id : String) : Prop := backslash ∉ id.toList

theorem parseUid_id_iff {id : String} (parses : parseUid entityType id = some uid) :
    uid.id = id ↔ Plain id := by
  obtain ⟨-, printed⟩ := parseUid_escaped parses
  constructor
  · rintro rfl marked
    exact escaped_backslash _ marked printed
  · intro plain
    rw [← printed] at plain ⊢
    exact (escaped_plain _ plain).symm

/-! ### Requests -/

variable {schema : Option (Request → Except String Unit)} {req : AuthzRequest} {request : Request}

theorem request_eq_ok (asked : CedarEngine.request schema req = .ok request) :
    ∃ principal resource, parseUid .principal req.principal.id = some principal ∧
      parseUid .resource req.resource.id = some resource ∧
      request = ⟨principal, req.action, resource, .empty⟩ := by
  obtain ⟨principal, principalRead, asked⟩ := bind_eq_ok.mp asked
  obtain ⟨resource, resourceRead, asked⟩ := bind_eq_ok.mp asked
  refine ⟨principal, resource, okOr_eq_ok.mp principalRead, okOr_eq_ok.mp resourceRead, ?_⟩
  cases schema with
  | none => exact (Except.ok.inj asked).symm
  | some =>
    obtain ⟨_, _, asked⟩ := bind_eq_ok.mp asked
    exact (Except.ok.inj asked).symm

/-- The entities are those of the request's ids. -/
def Carries (req : AuthzRequest) (request : Request) : Prop :=
  request.principal.id = req.principal.id ∧ request.resource.id = req.resource.id

theorem carries_iff (asked : CedarEngine.request schema req = .ok request) :
    Carries req request ↔ Plain req.principal.id ∧ Plain req.resource.id := by
  obtain ⟨_, _, principalRead, resourceRead, rfl⟩ := request_eq_ok asked
  exact and_congr (parseUid_id_iff principalRead) (parseUid_id_iff resourceRead)

/-- The entities say which ids were asked for. -/
theorem request_escaped (asked : CedarEngine.request schema req = .ok request) :
    escaped request.principal.id = req.principal.id ∧
      escaped request.resource.id = req.resource.id := by
  obtain ⟨_, _, principalRead, resourceRead, rfl⟩ := request_eq_ok asked
  exact ⟨(parseUid_escaped principalRead).2, (parseUid_escaped resourceRead).2⟩

/-- Two requests reach Cedar with their own ids exactly if the ids have no backslashes;
    different ids stay different in any case. -/
theorem entities_carry_ids_iff {req' : AuthzRequest} {request' : Request}
    (asked : CedarEngine.request schema req = .ok request)
    (asked' : CedarEngine.request schema req' = .ok request') :
    ((Carries req request ∧ Carries req' request') ↔
      (Plain req.principal.id ∧ Plain req.resource.id) ∧
        Plain req'.principal.id ∧ Plain req'.resource.id) ∧
    (req.principal.id ≠ req'.principal.id → request.principal ≠ request'.principal) ∧
    (req.resource.id ≠ req'.resource.id → request.resource ≠ request'.resource) := by
  obtain ⟨principal, resource⟩ := request_escaped asked
  obtain ⟨principal', resource'⟩ := request_escaped asked'
  refine ⟨and_congr (carries_iff asked) (carries_iff asked'), fun different same => different ?_,
    fun different same => different ?_⟩
  · rw [← principal, ← principal', same]
  · rw [← resource, ← resource', same]

end

/-! ### A sample of Cedar -/

/-- Quotes and backslashes are escaped; the escapes of other characters are left out. -/
def sampleEscape (c : Char) : List Char :=
  if c = quote ∨ c = backslash then [backslash, c] else [c]

def sampleEscaped (id : String) : String := String.ofList (id.toList.flatMap sampleEscape)

theorem flatMap_sampleEscape {id : List Char} (plain : backslash ∉ id.flatMap sampleEscape) :
    id.flatMap sampleEscape = id := by
  induction id with
  | nil => rfl
  | cons c rest ih =>
    rw [flatMap_cons, mem_append, not_or] at plain
    have unmarked : ¬(c = quote ∨ c = backslash) := by
      intro marked
      exact plain.1 (by simp [sampleEscape, marked])
    rw [flatMap_cons, ih plain.2, sampleEscape, if_neg unmarked]
    rfl

theorem length_flatMap_sampleEscape (id : List Char) :
    id.length + id.count backslash ≤ (id.flatMap sampleEscape).length := by
  induction id with
  | nil => exact Nat.le_refl 0
  | cons c rest ih =>
    rw [flatMap_cons, length_append, length_cons, count_cons, sampleEscape]
    by_cases marked : c = backslash
    · simp only [marked, or_true, if_true, beq_self_eq_true, length_cons, length_nil]
      omega
    · rw [if_neg (by simpa using marked)]
      split <;> simp only [length_cons, length_nil] <;> omega

abbrev sampleCedar : CedarPolicy where
  escaped := sampleEscaped
  -- four entities are known
  fromStr text := [⟨.principal, "alice"⟩, ⟨.principal, "bob"⟩, ⟨.principal, "a\"b"⟩,
    ⟨.resource, "key-1"⟩].find? fun uid => uid.entityType.format (sampleEscaped uid.id) = text
  isAuthorized request policies entities :=
    let forbids := satisfied policies .forbid request entities
    let permits := satisfied policies .permit request entities
    if forbids ≠ [] then (.deny, forbids)
    else (if permits ≠ [] then .allow else .deny, permits)
  normal text uid parses := by simpa using find?_some parses
  escaped_plain id plain := by
    unfold sampleEscaped at plain ⊢
    rw [String.toList_ofList] at plain
    rw [flatMap_sampleEscape plain, String.ofList_toList]
  escaped_backslash id marked same := by
    have lengths := length_flatMap_sampleEscape id.toList
    have texts := congrArg String.toList same
    rw [sampleEscaped, String.toList_ofList] at texts
    have positive := count_pos_iff.mpr marked
    rw [texts] at lengths
    omega
  decides request policies entities := by
    by_cases forbids : satisfied policies .forbid request entities = [] <;>
      by_cases permits : satisfied policies .permit request entities = [] <;>
        simp [forbids, permits]

section
attribute [local instance] sampleCedar

/-- A request of a principal for a key, with these attributes of the key. -/
def encryptRequest (principal : String) (attributes : PdpAttributes) : AuthzRequest :=
  ⟨pdpApiVersion, "request-1", .encrypt, ⟨principal, "user", .empty⟩, ⟨"key-1", "key", attributes⟩,
    .empty⟩

/-- The request that Cedar sees for it. -/
def askedFor (principal : String) : Request :=
  ⟨⟨.principal, principal⟩, .encrypt, ⟨.resource, "key-1"⟩, .empty⟩

theorem entities_carry_ids_alice_bob :
    askedFor "alice" ≠ askedFor "bob" ∧
      Carries (encryptRequest "alice" .empty) (askedFor "alice") := by
  have carry := @entities_carry_ids_iff _ none (encryptRequest "alice" .empty) (askedFor "alice")
    (encryptRequest "bob" .empty) (askedFor "bob") rfl rfl
  refine ⟨fun same => carry.2.1 (by decide +kernel) (congrArg Request.principal same), ?_⟩
  exact (carry.1.mpr (by unfold Plain; decide +kernel)).1

/-- An id with an escaped quote is authorized as another id. -/
theorem escaped_quote_is_not_carried :
    CedarEngine.request none (encryptRequest "a\\\"b" .empty) = .ok (askedFor "a\"b") ∧
      ¬Carries (encryptRequest "a\\\"b" .empty) (askedFor "a\"b") := by
  refine ⟨rfl, ?_⟩
  unfold Carries
  decide +kernel

end

/-! ### Attributes -/

theorem eq_empty_of_containsKey {attributes : PdpAttributes}
    (absent : ∀ key, attributes.containsKey key = false) : attributes = .empty := by
  apply SortedMap.ext
  cases entries : attributes.entries with
  | nil => rfl
  | cons entry =>
    have present : attributes.containsKey entry.1 = true := by
      simp [SortedMap.containsKey, SortedMap.hasKey, entries]
    rw [absent] at present
    cases present

section
variable [CedarPolicy]

/-- The entities of a request with their attributes. -/
def entitiesOf (req : AuthzRequest) (request : Request) : Entities := fun uid =>
  if uid = request.principal then req.principal.attributes
  else if uid = request.resource then req.resource.attributes
  else .empty

/-- What Cedar decides where it is given the attributes and the context. -/
def attributedDecision (policies : List Policy) (req : AuthzRequest) (request : Request) :
    Decision :=
  (isAuthorized { request with context := req.context } policies
    (entitiesOf req request)).1.toDecision

def Bare (req : AuthzRequest) : Prop :=
  req.principal.attributes = .empty ∧ req.resource.attributes = .empty ∧ req.context = .empty

theorem evaluate_decision (policies : List Policy)
    (asked : CedarEngine.request schema req = .ok request) :
    ∃ response, CedarEngine.evaluate ⟨policies, schema⟩ req = .ok response ∧
      response.decision = (isAuthorized request policies fun _ => .empty).1.toDecision := by
  unfold CedarEngine.evaluate
  rw [asked]
  exact ⟨_, rfl, rfl⟩

def permitAll : Policy := ⟨"permit-all", .permit, fun _ _ => some true⟩

def forbidWhen (condition : Request → Entities → Bool) : Policy :=
  ⟨"forbid-when", .forbid, fun request entities => some (condition request entities)⟩

theorem isAuthorized_forbidWhen (condition : Request → Entities → Bool) (entities : Entities) :
    (isAuthorized request [permitAll, forbidWhen condition] entities).1.toDecision =
      bif condition request entities then .forbid else .permit := by
  have rule := decides request [permitAll, forbidWhen condition] entities
  cases holds : condition request entities <;>
    cases decided : (isAuthorized request [permitAll, forbidWhen condition] entities).1 <;>
      rw [decided] at rule <;>
        simp [holds, satisfied, permitAll, forbidWhen, CedarDecision.toDecision] at rule ⊢

/-- Every policy set is decided as it is over the attributes and the context of the request
    exactly if the request has none. -/
theorem decisions_agree_iff_bare (asked : CedarEngine.request schema req = .ok request) :
    (∀ policies response, CedarEngine.evaluate ⟨policies, schema⟩ req = .ok response →
      response.decision = attributedDecision policies req request) ↔ Bare req := by
  obtain ⟨_, _, principalRead, resourceRead, same⟩ := request_eq_ok asked
  constructor
  · intro agree
    -- a forbid on any condition tells the two apart
    have blind (condition : Request → Entities → Bool) :
        condition request (fun _ => .empty) =
          condition { request with context := req.context } (entitiesOf req request) := by
      obtain ⟨response, evaluated, decided⟩ :=
        evaluate_decision [permitAll, forbidWhen condition] asked
      have agreed := agree _ response evaluated
      rw [decided, attributedDecision, isAuthorized_forbidWhen, isAuthorized_forbidWhen] at agreed
      have faithful : Function.Injective fun b => bif b then Decision.forbid else .permit := by
        rintro (_ | _) (_ | _) <;> decide
      exact faithful agreed
    have apart : request.resource ≠ request.principal := by
      intro equal
      have types := congrArg EntityUid.entityType equal
      rw [same, (parseUid_escaped principalRead).1, (parseUid_escaped resourceRead).1] at types
      cases types
    refine ⟨eq_empty_of_containsKey fun key => ?_, eq_empty_of_containsKey fun key => ?_,
      eq_empty_of_containsKey fun key => ?_⟩
    · have hidden := blind fun r e => (e r.principal).containsKey key
      rw [entitiesOf, if_pos rfl] at hidden
      exact hidden.symm
    · have hidden := blind fun r e => (e r.resource).containsKey key
      rw [entitiesOf, if_neg apart, if_pos rfl] at hidden
      exact hidden.symm
    · have hidden := blind fun r _ => r.context.containsKey key
      rw [same] at hidden
      exact hidden.symm
  · rintro ⟨principalBare, resourceBare, contextBare⟩ policies _ evaluated
    obtain ⟨_, evaluated', decided⟩ := evaluate_decision policies asked
    rw [evaluated'] at evaluated
    cases evaluated
    have entities : entitiesOf req request = fun _ => .empty := by
      funext uid
      simp [entitiesOf, principalBare, resourceBare]
    rw [decided, attributedDecision, entities, contextBare, same]

end

section
attribute [local instance] sampleCedar

theorem decisions_agree_without_attributes :
    Bare (encryptRequest "alice" .empty) ∧
      ∀ policies response, CedarEngine.evaluate ⟨policies, none⟩ (encryptRequest "alice" .empty) =
        .ok response → response.decision =
          attributedDecision policies (encryptRequest "alice" .empty) (askedFor "alice") :=
  have bare : Bare (encryptRequest "alice" .empty) := ⟨rfl, rfl, rfl⟩
  ⟨bare, (decisions_agree_iff_bare rfl).mpr bare⟩

/-- `forbid (…) when { resource has exportable && resource.exportable }`. -/
def forbidExportable : Policy :=
  forbidWhen fun request entities =>
    match (entities request.resource).get? "exportable" with
    | some (.bool value) => value
    | _ => false

/-- The request satisfies the forbid, and is permitted. -/
theorem exportable_forbid_skipped :
    (CedarEngine.evaluate ⟨[permitAll, forbidExportable], none⟩
      (encryptRequest "alice" (.ofList [("exportable", .bool true)]))).toOption.map (·.decision) =
        some .permit ∧
    attributedDecision [permitAll, forbidExportable]
      (encryptRequest "alice" (.ofList [("exportable", .bool true)])) (askedFor "alice") =
        .forbid := by
  decide +kernel

end

end KeyRack.Cedar
