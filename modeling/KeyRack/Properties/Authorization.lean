import KeyRack.Properties.CreationJournal
import KeyRack.Service.Export

/-!
# Authorization before effect

Whatever the policy decision point answers, an operation starts only after every
authorization request of its context was answered by an enforceable response to
that very request, and a migration only after the requests for the child, the old
parent and the new parent were. The second gate of a key that is born exportable
looks at the decision alone.
-/
namespace KeyRack

open Process Fallible Service List

variable {Own : Type} {OwnReply : Own → Type} {α : Type}

abbrev ServiceEvent (OwnReply : Own → Type) : Type :=
  Event (ServiceCall Own) (ServiceCall.Reply OwnReply)

/-- A request was answered by an enforceable response to it. -/
def Permitted (past : List (ServiceEvent OwnReply)) (request : AuthzRequest) : Prop :=
  ∃ response, ⟨.evaluate request, .ok response⟩ ∈ past ∧ Enforceable request response

/-- The identifiers drawn so far. -/
def drawn (past : List (ServiceEvent OwnReply)) : List String :=
  past.filterMap fun event => match event with
    | ⟨.newRequestId, id⟩ => some id
    | _ => none

/-- What must be permitted before the operation of a context: actions on resources. -/
def OpContext.Asks (ctx : OpContext) (questions : List (AuditAction × String)) : Prop :=
  if ctx.allowDependentDataLoss then
    questions = [(.scheduleKeyDeletion, ctx.resourceId),
      (.scheduleKeyDeletionWithDependentDataLoss, ctx.resourceId)]
  else if ctx.action = .reEncryptFrom then
    ∃ destination, ctx.reEncryptDestination = some destination ∧
      questions = [(.reEncryptFrom, ctx.resourceId), (.reEncryptTo, destination)]
  else questions = [(ctx.action, ctx.resourceId)]

/-- The requests of a context, whatever they are answered. Each has an identifier of its
    own, the caller's or one drawn for it. -/
structure Asked (ctx : OpContext) (past : List (ServiceEvent OwnReply))
    (requests : List AuthzRequest) : Prop where
  questions : OpContext.Asks ctx (requests.map fun request => (request.action, request.resource.id))
  parties : ∀ request ∈ requests,
    request.principal = ctx.principal ∧ request.resource.resourceType = ctx.resourceType
  distinct : (ctx.requestId :: drawn past).Nodup → (requests.map (·.requestId)).Nodup

/-- Every request of a context was answered by an enforceable response to it. -/
def Authorized (ctx : OpContext) (past : List (ServiceEvent OwnReply)) : Prop :=
  ∃ requests, Asked ctx past requests ∧ ∀ request ∈ requests, Permitted past request

/-! ### Histories only grow -/

variable {past : List (ServiceEvent OwnReply)}

theorem Permitted.extend (permitted : Permitted past request)
    (grows : past <+: later) : Permitted later request := by
  obtain ⟨response, answered, enforceable⟩ := permitted
  exact ⟨response, grows.subset answered, enforceable⟩

theorem drawn_extend (grows : past <+: later) : (drawn past).Sublist (drawn later) :=
  grows.sublist.filterMap _

variable {ctx : OpContext}

theorem Asked.extend (asked : Asked ctx past requests)
    (grows : past <+: later) : Asked ctx later requests := by
  apply Asked.mk asked.questions asked.parties
  intro fresh
  exact asked.distinct (fresh.sublist ((drawn_extend grows).cons_cons _))

theorem Authorized.extend (authorized : Authorized ctx past) (grows : past <+: later) :
    Authorized ctx later := by
  obtain ⟨requests, asked, permitted⟩ := authorized
  use requests
  constructor
  · exact asked.extend grows
  · intro request member
    exact (permitted request member).extend grows

/-! ### The executor's own calls -/

/-- The calls of the executor are free, those of the handler guarded. -/
def Guarded (guard : List (ServiceEvent OwnReply) → Own → Prop)
    (past : List (ServiceEvent OwnReply)) : ServiceCall Own → Prop
  | .own c => guard past c
  | _ => True

variable {guard : List (ServiceEvent OwnReply) → Own → Prop} {past : List (ServiceEvent OwnReply)}

theorem emitEvent_obeys {ε : Type} (event : OperationEvent) :
    Obeys (Guarded guard) (fun _ (_ : Except ε Unit) => True) past
      (emitEvent event : Handler OwnReply ε Unit).run :=
  obeys_observe_then trivial fun _ => trivial

theorem authorizeRequest_obeys (request : AuthzRequest) :
    Obeys (Guarded guard) (fun later result => result = .ok () → Permitted later request) past
      (authorizeRequest request : Handler OwnReply Status Unit).run := by
  apply obeys_observe_then trivial
  intro reply
  apply obeys_check_then fun _ _ => nofun
  intro response replied
  apply obeys_check_then fun _ _ => nofun
  intro reduced enforced
  rw [mapErr_eq_ok] at replied enforced
  subst replied
  apply obeys_check.mpr
  intro passed
  have permits : reduced.decision = .permit := by simpa using passed
  have enforceable := AuthzResponse.intoEnforceable_permit.mp ⟨reduced, enforced, permits⟩
  exact ⟨response, by simp, enforceable⟩

theorem emitAuthorizationFailure_obeys {ε : Type} (ctx : OpContext) (code : Code) :
    Obeys (Guarded guard) (fun _ (_ : Except ε Unit) => True) past
      (emitAuthorizationFailure ctx code : Handler OwnReply ε Unit).run := by
  unfold emitAuthorizationFailure emitOperationAudit
  split
  · apply emitEvent_obeys
  · apply emitEvent_obeys

theorem authorizeFrom_obeys (ctx : OpContext) (index : Nat) (requests : List AuthzRequest) :
    Obeys (Guarded guard)
      (fun later result => result = .ok () → ∀ request ∈ requests, Permitted later request) past
      (authorizeFrom ctx index requests : Handler OwnReply Status Unit).run := by
  induction requests generalizing index past with
  | nil => exact fun _ => nofun
  | cons request _ ih =>
    apply obeys_lift_then
    apply (authorizeRequest_obeys request).mono
    rintro _ (_ | ⟨⟨⟩⟩) permitted
    · dsimp only
      split
      · apply obeys_observe_then trivial
        intro unused
        apply obeys_try.mpr
        apply (emitAuthorizationFailure_obeys _ _).mono
        rintro _ (_ | _) _
        · exact nofun
        · exact nofun
      · exact nofun
    · apply (ih (index + 1)).extends.mono
      rintro _ _ ⟨longer, others⟩ passed other member
      rcases mem_cons.mp member with rfl | old
      · exact (permitted rfl).extend longer
      · exact others passed other old

@[simp] theorem drawn_append (a b : List (ServiceEvent OwnReply)) :
    drawn (a ++ b) = drawn a ++ drawn b := filterMap_append

@[simp] theorem drawn_newRequestId (id : String) :
    drawn [(⟨.newRequestId, id⟩ : ServiceEvent OwnReply)] = [id] := rfl

theorem mem_drawn {id : String} : id ∈ drawn past ↔ ⟨.newRequestId, id⟩ ∈ past := by
  simp only [drawn, mem_filterMap]
  constructor
  · rintro ⟨⟨c, _⟩, member, taken⟩
    cases c with
    | newRequestId =>
      cases taken
      exact member
    | _ => cases taken
  · intro member
    exact ⟨_, member, rfl⟩

theorem overrideRequest_asked (loss : ctx.allowDependentDataLoss = true)
    (schedule : ctx.action = .scheduleKeyDeletion) (context : PdpAttributes) (overrideId : String) :
    Asked ctx (past ++ [⟨.newRequestId, overrideId⟩])
      [ctx.request context, ctx.overrideRequest context overrideId] := by
  constructor
  · simp [OpContext.Asks, loss, OpContext.request, OpContext.overrideRequest, schedule]
  · simp [OpContext.request, OpContext.overrideRequest]
  · simp +contextual [OpContext.request, OpContext.overrideRequest]

theorem reEncryptLegs_asked (plain : ctx.allowDependentDataLoss = false)
    (source : ctx.action = .reEncryptFrom)
    (bound : ctx.reEncryptDestination = some destination) (context : PdpAttributes)
    (sourceId destinationId : String) :
    Asked ctx (past ++ [⟨.newRequestId, sourceId⟩] ++ [⟨.newRequestId, destinationId⟩])
      [ctx.reEncryptLeg context destination "source" ctx.resourceId .reEncryptFrom sourceId,
        ctx.reEncryptLeg context destination "destination" destination .reEncryptTo
          destinationId] := by
  constructor
  · simp [OpContext.Asks, plain, source, bound, OpContext.reEncryptLeg]
  · simp [OpContext.request, OpContext.reEncryptLeg]
  · simp only [map_cons, map_nil, OpContext.reEncryptLeg, drawn_append,
      drawn_newRequestId, append_assoc]
    intro fresh
    apply List.Nodup.sublist _ fresh
    apply List.Sublist.cons
    apply sublist_append_right

theorem request_asked (plain : ctx.allowDependentDataLoss = false)
    (single : ctx.action ≠ .reEncryptFrom) (context : PdpAttributes) :
    Asked ctx past [ctx.request context] := by
  constructor
  · simp [OpContext.Asks, plain, single, OpContext.request]
  · simp [OpContext.request]
  · simp [OpContext.request]

theorem authorizationRequests_obeys (ctx : OpContext) :
    Obeys (Guarded guard)
      (fun later result => ∀ requests, result = .ok requests → Asked ctx later requests) past
      (authorizationRequests ctx : Handler OwnReply Status (List AuthzRequest)).run := by
  apply obeys_check_then fun _ _ => nofun
  intro _ _
  apply obeys_check_then fun _ _ => nofun
  intro context _
  split
  · rename_i loss
    apply obeys_check_then fun _ _ => nofun
    intro _ schedule
    apply obeys_observe_then trivial
    rintro overrideId _ ⟨⟩
    have schedules : ctx.action = .scheduleKeyDeletion := by
      simp only [refuseIf_eq_ok, not_or, not_not] at schedule
      exact schedule.1
    exact overrideRequest_asked loss schedules context overrideId
  · rename_i plain
    have plain : ctx.allowDependentDataLoss = false := by simpa using plain
    apply obeys_check_then fun _ _ => nofun
    intro _ _
    split
    · rename_i source
      apply obeys_check_then fun _ _ => nofun
      intro destination bound
      apply obeys_observe_then trivial
      intro sourceId
      apply obeys_observe_then trivial
      rintro destinationId _ ⟨⟩
      exact reEncryptLegs_asked plain source (okOr_eq_ok.mp bound) context sourceId destinationId
    · rename_i single
      apply obeys_check_then fun _ _ => nofun
      rintro _ _ _ ⟨⟩
      exact request_asked plain single context

theorem authorize_obeys (ctx : OpContext) :
    Obeys (Guarded guard) (fun later result => result = .ok () → Authorized ctx later) past
      (authorize ctx : Handler OwnReply Status Unit).run := by
  apply obeys_try.mpr
  apply (authorizationRequests_obeys ctx).mono
  rintro _ (e | requests) asked
  · exact nofun
  · apply (authorizeFrom_obeys ctx 0 requests).extends.mono
    rintro _ _ ⟨longer, permitted⟩ passed
    exact ⟨requests, (asked requests rfl).extend longer, permitted passed⟩

/-! ### The operation -/

/-- A handler's calls after its authorization. -/
def AuthorizedCall (ctx : OpContext) (past : List (ServiceEvent OwnReply)) (_ : Own) : Prop :=
  Authorized ctx past

theorem complete_obeys {ε : Type} (operation : Prog Own OwnReply (Ended ε α))
    (authorized : Authorized ctx past) :
    Obeys (Guarded (AuthorizedCall ctx)) (fun later _ => Authorized ctx later) past
      (complete ctx operation) := by
  apply obeys_bind.mpr
  have started : Obeys (Guarded (AuthorizedCall ctx)) (fun later _ => Authorized ctx later) past
      (ownPart operation : ServiceProg OwnReply (Ended ε α)) := by
    apply obeys_embed _ _ operation authorized
    · intro now c holds
      exact holds
    · intro now c reply holds
      exact holds.extend (prefix_append now _)
  apply started.mono
  intro now ended holds
  apply obeys_bind.mpr
  apply (emitEvent_obeys _).extends.mono
  intro later audited longer
  exact holds.extend longer.1

/-- An operation runs, and a result is returned, only after the authorization. -/
theorem authorized_obeys {rest : ServiceProg OwnReply (Option (Except Status α))}
    (runs : ∀ past, Authorized ctx past →
      Obeys (Guarded (AuthorizedCall ctx)) (fun later _ => Authorized ctx later) past rest) :
    Obeys (Guarded (AuthorizedCall ctx))
      (fun later result => ∀ value, result = .ok value → Authorized ctx later) past
      (authorized ctx (authorize ctx) rest) := by
  apply obeys_bind.mpr
  apply (authorize_obeys ctx).mono
  rintro now (denied | ⟨⟨⟩⟩) permitted
  · apply obeys_bind.mpr
    apply (emitAuthorizationFailure_obeys ctx denied.code).mono
    intro later _ _
    exact nofun
  · apply obeys_bind.mpr
    apply (runs now (permitted rfl)).mono
    intro later outcome holds value _
    exact holds

theorem executeDetached_obeys (ctx : OpContext) (operation : Prog Own OwnReply (Ended Status α)) :
    Obeys (Guarded (AuthorizedCall ctx))
      (fun later result => ∀ value, result = .ok value → Authorized ctx later) past
      (executeDetached ctx operation) := by
  apply authorized_obeys
  intro now authorized
  apply obeys_bind.mpr
  apply (complete_obeys operation authorized).mono
  intro later outcome holds
  apply obeys_bind.mpr
  apply And.intro trivial
  intro joined
  exact holds.extend (prefix_append later _)

/-! ### Migrations -/

theorem enforceScopeForKeyOp_obeys (record : KeyRecord) (version : Option Nat)
    (scope : Option String) (principalId : String) (action : AuditAction) :
    Obeys (Guarded guard) (fun _ _ => True) past
      (enforceScopeForKeyOp record version scope principalId action :
        Handler OwnReply DomainError Unit).run := by
  unfold enforceScopeForKeyOp
  split
  · trivial
  · apply obeys_observe_then trivial
    rintro (_ | _)
    · dsimp only
      split
      · trivial
      · apply obeys_try.mpr
        apply (emitEvent_obeys _).mono
        rintro _ (_ | _) _
        · trivial
        · trivial
    · dsimp only
      split
      · trivial
      · split
        · exact emitEvent_obeys _
        · apply obeys_try.mpr
          apply (emitEvent_obeys _).mono
          rintro _ (_ | _) _
          · trivial
          · trivial

abbrev RewrapEvent : Type := ServiceEvent RewrapOpCall.Reply

/-- A request about one key that takes part in a migration, as storage returned it, was
    answered by an enforceable response. -/
def ParticipantPermitted (ctx : OpContext) (operationId : String) (past : List RewrapEvent)
    (participant : String × KeyRecord) (request : AuthzRequest) : Prop :=
  (∃ current, ⟨.own (.getKeyForUse participant.2.lid), .ok current⟩ ∈ past ∧
    request = migrationRequest ctx operationId participant.1 current request.requestId) ∧
  Permitted past request

/-- The child, the old parent and the new parent were permitted separately. -/
def RewrapPermitted (ctx : OpContext) (operationId : String) (past : List RewrapEvent)
    (migration : MigrationRequest) : Prop :=
  ∃ child oldParent newParent : AuthzRequest,
    ParticipantPermitted ctx operationId past ("child", migration.child) child ∧
    ParticipantPermitted ctx operationId past ("old_parent", migration.oldParent) oldParent ∧
    ParticipantPermitted ctx operationId past ("new_parent", migration.newParent) newParent ∧
    ((drawn past).Nodup → [child.requestId, oldParent.requestId, newParent.requestId].Nodup)

def RewrapGuard (ctx : OpContext) (operationId : String) (past : List RewrapEvent)
    (c : RewrapOpCall) : Prop :=
  ∀ migration, c = .rewrapKey migration → RewrapPermitted ctx operationId past migration

variable {past : List RewrapEvent}

theorem ParticipantPermitted.extend {later : List RewrapEvent}
    (permitted : ParticipantPermitted ctx operationId past participant request)
    (grows : past <+: later) : ParticipantPermitted ctx operationId later participant request := by
  obtain ⟨⟨current, read, asked⟩, permitted⟩ := permitted
  exact ⟨⟨current, grows.subset read, asked⟩, permitted.extend grows⟩

/-- One key: its request has an identifier drawn for it. -/
theorem authorizeParticipant_obeys (ctx : OpContext) (operationId : String)
    (participant : String × KeyRecord) :
    Obeys (Guarded (RewrapGuard ctx operationId))
      (fun later result => ∃ extra, past ++ extra = later ∧ (result = .ok () → ∃ request,
        ParticipantPermitted ctx operationId later participant request ∧
          [request.requestId].Sublist (drawn extra))) past
      (authorizeParticipant ctx operationId participant.1 participant.2).run := by
  apply obeys_observe_then
  · rintro _ ⟨⟩
  rintro _
  apply obeys_check_then
  · intro e _
    exact ⟨_, rfl, nofun⟩
  intro current read
  rw [mapErr_eq_ok] at read
  subst read
  apply obeys_try.mpr
  apply (enforceScopeForKeyOp_obeys current none _ _ _).extends.mono
  rintro _ (e | ⟨⟨⟩⟩) ⟨⟨_, rfl⟩, -⟩
  · exact ⟨_, (append_assoc _ _ _).symm, nofun⟩
  apply obeys_observe_then trivial
  intro requestId
  apply obeys_lift_then
  apply (authorizeRequest_obeys _).extends.mono
  rintro _ (_ | ⟨⟨⟩⟩) ⟨⟨_, rfl⟩, permitted⟩
  · dsimp only
    split
    · exact ⟨_, by simp only [append_assoc]; rfl, nofun⟩
    · exact ⟨_, by simp only [append_assoc]; rfl, nofun⟩
  · refine ⟨_, by simp only [append_assoc]; rfl, fun _ => ?_⟩
    refine ⟨_, ⟨⟨current, by simp, rfl⟩, permitted rfl⟩, ?_⟩
    simp [migrationRequest, mem_drawn]

theorem authorizeParticipants_obeys (ctx : OpContext) (operationId : String)
    (participants : List (String × KeyRecord)) :
    Obeys (Guarded (RewrapGuard ctx operationId))
      (fun later result => ∃ extra, past ++ extra = later ∧ (result = .ok () → ∃ requests,
        List.Forall₂ (ParticipantPermitted ctx operationId later) participants requests ∧
          (requests.map (·.requestId)).Sublist (drawn extra))) past
      (authorizeParticipants ctx operationId participants).run := by
  induction participants generalizing past with
  | nil => exact ⟨[], by simp, fun _ => ⟨[], by simp⟩⟩
  | cons participant _ ih =>
    apply obeys_try.mpr
    apply (authorizeParticipant_obeys ctx operationId participant).mono
    rintro _ (e | ⟨⟨⟩⟩) ⟨extra, rfl, permitted⟩
    · exact ⟨extra, rfl, nofun⟩
    obtain ⟨request, permitted, own⟩ := permitted rfl
    apply ih.mono
    rintro _ _ ⟨more, rfl, others⟩
    refine ⟨extra ++ more, by simp, fun passed => ?_⟩
    obtain ⟨requests, permittedRest, owns⟩ := others passed
    refine ⟨request :: requests, ?_, ?_⟩
    · apply List.Forall₂.cons _ permittedRest
      exact permitted.extend (prefix_append _ _)
    · rw [drawn_append]
      exact own.append owns

theorem rewrapAuthorized_obeys [UuidText] (ctx : OpContext) (newParentId operationId : String)
    (options : RewrapOptions) :
    Obeys (Guarded (RewrapGuard ctx operationId)) (fun _ _ => True) past
      (rewrapAuthorized ctx newParentId operationId options).run := by
  apply obeys_check_then fun _ _ => trivial
  intro child _
  apply obeys_check_then fun _ _ => trivial
  intro newParent _
  apply obeys_check_then fun _ _ => trivial
  intro operation _
  apply obeys_check_then fun _ _ => trivial
  intro _ _
  apply obeys_check_then fun _ _ => trivial
  intro expectedOldParent _
  apply obeys_observe_then
  · rintro _ ⟨⟩
  intro prepared
  apply obeys_check_then fun _ _ => trivial
  intro migration _
  apply obeys_try.mpr
  apply (authorizeParticipants_obeys ctx operationId _).mono
  rintro _ (e | ⟨⟨⟩⟩) ⟨_, rfl, permitted⟩
  · trivial
  obtain ⟨_, permitted, own⟩ := permitted rfl
  apply obeys_observe_then
  · rintro _ ⟨⟩
    simp only [participants, forall₂_cons_left_iff, forall₂_nil_left_iff] at permitted
    obtain ⟨child, _, forChild, ⟨oldParent, _, forOld, ⟨newParent, _, forNew, rfl, rfl⟩, rfl⟩,
      rfl⟩ := permitted
    refine ⟨child, oldParent, newParent, forChild, forOld, forNew, fun fresh => ?_⟩
    rw [drawn_append] at fresh
    exact fresh.sublist (own.trans (sublist_append_right _ _))
  intro rewrapped
  apply obeys_check_then fun _ _ => trivial
  intro record _
  apply obeys_observe_then
  · rintro _ ⟨⟩
  intro found
  apply obeys_check_then fun _ _ => trivial
  intro journal _
  apply obeys_check_then fun _ _ => trivial
  intro committed _
  apply obeys_check_then fun _ _ => trivial
  intro _ _
  apply obeys_check_then fun _ _ => trivial
  intro result _
  trivial

theorem emitRewrapAudit_obeys (ctx : OpContext) (operationId : String) (result : AuditResult)
    {guard : List RewrapEvent → RewrapOpCall → Prop} :
    Obeys (Guarded guard) (fun _ _ => True) past (emitRewrapAudit ctx operationId result).run := by
  apply obeys_observe_then trivial
  intro reply
  exact obeys_check.mpr trivial

theorem executeRewrapWithOptions_obeys [UuidText] (principal : Principal)
    (requestId childId newParentId operationId : String) (options : RewrapOptions) :
    Obeys (Guarded (RewrapGuard (.key .rewrapKey principal childId requestId) operationId))
      (fun _ _ => True) past (executeRewrapWithOptions principal requestId childId newParentId
        operationId options).run := by
  apply obeys_observe_then trivial
  intro unused
  apply obeys_try.mpr
  apply (emitRewrapAudit_obeys _ _ _).mono
  rintro _ (e | ⟨⟨⟩⟩) _
  · trivial
  apply obeys_observe_then
  · rintro _ ⟨⟩
  intro slot
  split
  · apply obeys_try.mpr
    apply (emitRewrapAudit_obeys _ _ _).mono
    rintro _ (e | ⟨⟨⟩⟩) _
    · trivial
    · trivial
  · apply obeys_lift_then
    apply obeys_bind.mpr
    apply obeys_bind.mpr
    apply (rewrapAuthorized_obeys _ _ _ _).mono
    intro ended result _
    apply obeys_bind.mpr
    apply (emitRewrapAudit_obeys _ _ _).mono
    intro audited _ _
    apply obeys_observe_then trivial
    intro joined
    split
    · trivial
    · exact obeys_check.mpr trivial

/-! ### The result -/

/-- Whatever is answered, `execute` and `execute_detached` make a call of the operation,
    or return its value, only after every authorization request of the context was
    answered by an enforceable response to that very request; and `rewrap_key` is called
    only after this holds for the child, the old parent and the new parent. -/
theorem operations_authorized [UuidText] (ctx : OpContext)
    (operation : Prog Own OwnReply (Ended Status α)) (principal : Principal)
    (requestId childId newParentId operationId : String) (options : RewrapOptions) :
    (∀ executed ∈ [execute ctx operation, executeDetached ctx operation],
      Obeys (Guarded (AuthorizedCall ctx))
        (fun past result => ∀ value, result = .ok value → Authorized ctx past) [] executed) ∧
    Obeys (Guarded (RewrapGuard (.key .rewrapKey principal childId requestId) operationId))
      (fun _ _ => True) []
      (executeRewrapWithOptions principal requestId childId newParentId operationId
        options).run := by
  constructor
  · simp only [forall_mem_cons, not_mem_nil, false_imp_iff, implies_true, and_true]
    exact ⟨authorized_obeys fun _ authorized => complete_obeys operation authorized,
      executeDetached_obeys ctx operation⟩
  · apply executeRewrapWithOptions_obeys

/-! ### The second gate of a key born exportable -/

variable {answer : (c : ServiceCall ExportCall) → ServiceCall.Reply ExportCall.Reply c}
  {record : KeyRecord} {principal : Principal}

/-- The request of the second gate, with the identifier that is drawn for it. -/
def bornRequest (answer : (c : ServiceCall ExportCall) → ServiceCall.Reply ExportCall.Reply c)
    (record : KeyRecord) (principal : Principal) : AuthzRequest :=
  makeExportableRequest principal record.lid.display (answer .newRequestId)
    (exportabilityResourceAttrs record)

/-- A new key that the other gates let through: resident, without a parent, with a version. -/
def BornLeaf (record : KeyRecord) : Prop :=
  (∀ version ∈ record.keyVersions, version.isResident = true) ∧ record.parentLid = none ∧
    record.keyVersions ≠ []

theorem isResident_iff {version : KeyVersionRecord} :
    version.isResident = true ↔ ∃ handle, version.residentHandle = .ok handle := by
  unfold KeyVersionRecord.isResident KeyVersionRecord.residentHandle
  cases version.material <;> simp [KeyMaterial.wrapped?]

theorem requireResidentVersions_eq_ok {u : Unit} :
    requireResidentVersions record = .ok u ↔
      ∀ version ∈ record.keyVersions, version.isResident = true := by
  simp only [requireResidentVersions, checkAll_eq_ok, isResident_iff, eq_ok, and_true]

/-- The gate looks at the decision only, and calls nothing of the export. -/
theorem authorizeMakeExportable_with :
    ((authorizeMakeExportable principal resourceId attrs).run.resultWith answer = .ok () ↔
      ∃ response, answer (.evaluate (makeExportableRequest principal resourceId
        (answer .newRequestId) attrs)) = .ok response ∧ response.decision = .permit) ∧
    ∀ c, .own c ∉ (authorizeMakeExportable principal resourceId attrs).run.callsWith answer := by
  simp only [authorizeMakeExportable, resultWith_try, callsWith_try, resultWith_observe,
    callsWith_observe, resultWith_check, callsWith_check]
  cases replied : answer (.evaluate (makeExportableRequest principal resourceId
      (answer .newRequestId) attrs)) with
  | error => simp [mapErr]
  | ok response =>
    cases decided : response.decision with
    | permit => simp [mapErr, decided]
    | forbid | indeterminate =>
      simp only [mapErr, decided, emitEvent, resultWith_try, callsWith_try]
      simp [decided]

/-- The provider is told exactly when every gate has passed. -/
theorem enforceBornExportable_calls :
    (∃ handle, .own (.makeKeyExportable provider handle) ∈
      (enforceBornExportable record principal provider).run.callsWith answer) ↔
    BornLeaf record ∧ ∃ response,
      answer (.evaluate (bornRequest answer record principal)) = .ok response ∧
        response.decision = .permit := by
  unfold enforceBornExportable bornRequest BornLeaf
  rw [← authorizeMakeExportable_with.1]
  simp only [callsWith_try, resultWith_check, callsWith_check, resultWith_observe,
    callsWith_observe, nil_append]
  cases checked : requireResidentVersions record with
  | error =>
    have wrapped : ¬∀ version ∈ record.keyVersions, version.isResident = true := by
      rw [← requireResidentVersions_eq_ok (u := ()), checked]
      simp
    simp [wrapped]
  | ok =>
    have resident := requireResidentVersions_eq_ok.mp checked
    cases parent : record.parentLid with
    | some => simp [refuseIf]
    | none =>
      cases permitted : (authorizeMakeExportable principal record.lid.display
          (exportabilityResourceAttrs record)).run.resultWith answer with
      | error => simp [refuseIf, authorizeMakeExportable_with.2]
      | ok =>
        cases versions : record.keyVersions with
        | nil => simp [refuseIf, okOr, authorizeMakeExportable_with.2]
        | cons first =>
          obtain ⟨_, found⟩ := isResident_iff.mp
            (resident first (by simp [versions]))
          rw [versions] at resident
          simp only [refuseIf, okOr, found, mapErr, List.head?_cons, Option.isSome_none]
          simp [resident]
          intro version member
          exact resident version (by simp [member])

/-- The provider is told to make a new key exportable only if the response to the second
    gate's request is one that the executor enforces, exactly when a permit for a key that
    the other gates let through echoes the request, in a version that can be read and
    without obligations. -/
theorem born_exportable_iff
    (answer : (c : ServiceCall ExportCall) → ServiceCall.Reply ExportCall.Reply c)
    (record : KeyRecord) (principal : Principal) (provider : ProviderEntry) :
    ((∃ handle, .own (.makeKeyExportable provider handle) ∈
        (enforceBornExportable record principal provider).run.callsWith answer) →
      ∃ response, answer (.evaluate (bornRequest answer record principal)) = .ok response ∧
        Enforceable (bornRequest answer record principal) response) ↔
    (BornLeaf record → ∀ response,
      answer (.evaluate (bornRequest answer record principal)) = .ok response →
      response.decision = .permit →
        response.requestId = (bornRequest answer record principal).requestId ∧
        (response.pdpApiVersion = none ∨ response.pdpApiVersion = some pdpApiVersion) ∧
        response.obligations = []) := by
  rw [enforceBornExportable_calls]
  constructor
  · intro only leaf response replied permits
    obtain ⟨_, same, enforceable⟩ := only ⟨leaf, response, replied, permits⟩
    cases replied.symm.trans same
    exact ⟨enforceable.sameRequest, enforceable.readable, enforceable.unconditional⟩
  · rintro sound ⟨leaf, response, replied, permits⟩
    obtain ⟨sameRequest, readable, unconditional⟩ := sound leaf response replied permits
    exact ⟨response, replied, sameRequest, readable, permits, unconditional⟩

/-- Surroundings in which the policy decision point gives one response to everything. -/
def answering (response : AuthzResponse) :
    (c : ServiceCall ExportCall) → ServiceCall.Reply ExportCall.Reply c
  | .newRequestId => "request-2"
  | .evaluate _ => .ok response
  | .emit _ => .ok ()
  | .getHsmConnection _ => .error "not found"
  | .joinTask => true
  | .own c => match c with
    | .getKey lid | .getKeyForUse lid => .error (.keyNotFound lid)
    | .listChildren _ => .ok []
    | .updateKey _ => .ok ()
    | .destroyedWrappingVersions _ => .ok []
    | .resolveForVersion _ _ => .ok ⟨0, .software⟩
    | .exportKeyMaterial _ _ => .ok []
    | .makeKeyExportable _ _ => .ok ()
    | .revokeKeyExportability _ _ => .ok none
    | .now => 0

/-- A bare permit for a request. -/
def permitFor (requestId : String) : AuthzResponse := ⟨requestId, .permit, [], [], none, none⟩

theorem residentRecord_bornLeaf (lid : Lid) : BornLeaf (residentRecord lid) := by
  refine ⟨?_, rfl, ?_⟩
  · simp [residentRecord, KeyVersionRecord.isResident, KeyMaterial.wrapped?]
  · simp [residentRecord]

/-- A permit for another request is acted on. -/
theorem born_exportable_replayed :
    (∃ handle, .own (.makeKeyExportable ⟨0, .software⟩ handle) ∈
      (enforceBornExportable (residentRecord (sampleLid 1)) .system ⟨0, .software⟩).run.callsWith
        (answering (permitFor "request-1"))) ∧
    ¬∃ response, answering (permitFor "request-1") (.evaluate
        (bornRequest (answering (permitFor "request-1")) (residentRecord (sampleLid 1)) .system)) =
          .ok response ∧
      Enforceable (bornRequest (answering (permitFor "request-1")) (residentRecord (sampleLid 1))
        .system) response := by
  constructor
  · apply enforceBornExportable_calls.mpr
    exact ⟨residentRecord_bornLeaf _, permitFor "request-1", rfl, rfl⟩
  · rintro ⟨_, replied, enforceable⟩
    cases replied
    have same : "request-1" = "request-2" := enforceable.sameRequest
    exact absurd same (by decide)

/-- A permit for the request itself is acted on, and enforceable. -/
theorem born_exportable_iff_echoed :
    ∃ response, answering (permitFor "request-2") (.evaluate
        (bornRequest (answering (permitFor "request-2")) (residentRecord (sampleLid 1)) .system)) =
          .ok response ∧
      Enforceable (bornRequest (answering (permitFor "request-2")) (residentRecord (sampleLid 1))
        .system) response := by
  apply (born_exportable_iff (answering (permitFor "request-2")) (residentRecord (sampleLid 1))
    .system ⟨0, .software⟩).mpr
  · rintro _ _ ⟨⟩ _
    exact ⟨rfl, Or.inl rfl, rfl⟩
  · apply enforceBornExportable_calls.mpr
    exact ⟨residentRecord_bornLeaf _, permitFor "request-2", rfl, rfl⟩

end KeyRack
