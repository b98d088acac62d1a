import KeyRack.Properties.WorkerLimits

/-!
# Attempts at a creation

A reservation is made once and its attempt is consumed once. The source is asked only by
the request that consumes the attempt, so over a whole incarnation it generates at most
once; an attempt that was consumed and did not complete stays so.
-/
namespace KeyRack.CryptoWorker

open Custody Fallible Process Trace
open KeyRack.Worker (Error State)

section
variable {w t : Worker} {entry : Entry} {labels : List Entry}

theorem Opened.creation (opened : Opened w binding r t) : t.creation = w.creation := by
  cases opened with
  | resident => rfl
  | fresh => rfl

theorem Worker.Drops.creation (drops : w.Drops t) : t.creation = w.creation := by
  rw [drops.same]

variable [Sha256] [Ed25519] [AuthorityJson]

/-- Only a creation asks the source for new material. -/
theorem Serves.generations_nil (serves : Serves w entry t)
    (other : ∀ bytes, entry.request ≠ .generate bytes) : generations entry.events = [] := by
  obtain ⟨_, _, ran⟩ := serves
  have ordinary : Holds Ordinary [] w (fun _ _ _ => True) entry.request.method := by
    cases asked : entry.request with
    | execute signed principal context operation input =>
      exact (execute_holds signed principal context operation input).bind
        (fun _ _ _ _ => trivial) fun _ _ _ _ => trivial
    | executeForDelivery signed principal context operation input =>
      exact (executeForDelivery_holds signed principal context operation input).bind
        (fun _ _ _ _ => trivial) fun _ _ _ _ => trivial
    | expire => exact expire_holds.bind (fun _ _ _ _ => trivial) fun _ _ _ _ => trivial
    | revoke bytes =>
      exact (revoke_holds bytes).bind (fun _ _ _ _ => trivial) fun _ _ _ _ => trivial
    | reserveCreation plan context =>
      exact (reserveCreation_holds plan context).bind (fun _ _ _ _ => trivial)
        fun _ _ _ _ => trivial
    | generate bytes => exact absurd asked (other bytes)
  have allowed := ordinary.ran_allowed ran
  apply List.filter_eq_nil_iff.mpr
  intro event member
  obtain ⟨_, _, ungenerated⟩ := allowed event member
  simp [ungenerated]

variable {signed : Signed}

/-- An execution does not touch the reservation. -/
theorem Executed.creation (executed : Executed w signed context events result t) :
    t.creation = w.creation := by
  have accepted_creation {grant : Grant} {binding : Digest} {u : Worker}
      (accepted : Accepted w signed context grant binding u) : u.creation = w.creation := by
    rw [accepted.consumed]
  cases executed with
  | refused => rfl
  | unopened _ accepted =>
    have kept := accepted_creation accepted
    exact kept
  | unused _ accepted opened drops =>
    rw [drops.creation, opened.creation, accepted_creation accepted]
  | used accepted opened _ drops =>
    rw [drops.creation]
    exact opened.creation.trans (accepted_creation accepted)

variable {r : Reservation}

/-- A request leaves the reservation alone and does not ask the source, or finds the attempt
    ready and begins it. -/
theorem Serves.attempts (serves : Serves w entry t) :
    (generations entry.events = [] ∧ ∀ r, w.creation = some r → t.creation = some r) ∨
      (generations entry.events).length ≤ 1 ∧
      ∃ r state, w.creation = some r ∧ r.state = .ready ∧ state ≠ .ready ∧
        t.creation = some { r with state } := by
  have silent := serves.generations_nil
  obtain ⟨_, _, _, rfl, handled⟩ := serves.entry
  cases handled with
  | executed asks _ executed =>
    refine .inl ⟨silent fun _ generates => ?_, fun r reserved => ?_⟩
    · cases generates
      cases asks
    · rw [executed.creation, w.expireAt_eq]
      exact reserved
  | expired =>
    refine .inl ⟨silent nofun, fun r reserved => ?_⟩
    rw [w.expireAt_eq]
    exact reserved
  | revoked _ _ ended =>
    refine .inl ⟨silent nofun, fun r reserved => ?_⟩
    rcases ended with rfl | applies
    · exact reserved
    · obtain ⟨_, rfl, _⟩ := applies.revoked
      exact reserved
  | reserved _ ended =>
    refine .inl ⟨silent nofun, fun r reserved => ?_⟩
    rcases ended with rfl | ⟨unreserved, _⟩
    · exact reserved
    · rw [reserved] at unreserved
      cases unreserved
  | generated generated =>
    cases generated with
    | refused _ unasked => exact .inl ⟨unasked, fun _ => id⟩
    | consumed _ once begun =>
      exact .inr ⟨once, _, .consumed, begun.reserved, begun.ready, by decide, rfl⟩
    | complete begun =>
      exact .inr ⟨by simp [generations, WorkerCall.isGenerate], _, .complete, begun.reserved,
        begun.ready, by decide, rfl⟩

/-- An attempt that is not ready stays as it is. -/
theorem attempt_stays (steps : Steps Serves w labels t) (reserved : w.creation = some r)
    (begun : r.state ≠ .ready) : t.creation = some r := by
  apply steps.invariant (P := fun s => s.creation = some r) _ reserved
  intro s _ u serves still
  rcases serves.attempts with ⟨_, kept⟩ | ⟨_, _, _, reserved', ready, _⟩
  · exact kept r still
  · cases still.symm.trans reserved'
    exact absurd ready begun

/-- All calls for new material in a run. -/
def allGenerations (labels : List Entry) : List WorkerCallEvent :=
  labels.flatMap fun entry => generations entry.events

/-- Once the source has been asked, the attempt is no longer ready. -/
structure AskedOnce (past : List Entry) (w : Worker) : Prop where
  once : (allGenerations past).length ≤ 1
  begun : allGenerations past ≠ [] → ∃ r, w.creation = some r ∧ r.state ≠ .ready

theorem AskedOnce.step (asked : AskedOnce past w) (serves : Serves w entry t) :
    AskedOnce (past ++ [entry]) t := by
  have appended : allGenerations (past ++ [entry]) =
      allGenerations past ++ generations entry.events := by
    simp [allGenerations]
  rcases serves.attempts with ⟨none, kept⟩ | ⟨once, r, _, reserved, ready, begun, after⟩
  · rw [none, List.append_nil] at appended
    refine ⟨appended ▸ asked.once, fun some => ?_⟩
    obtain ⟨r, reserved, begun⟩ := asked.begun (appended ▸ some)
    exact ⟨r, kept r reserved, begun⟩
  · -- the attempt was ready, so nobody has asked before
    have fresh : allGenerations past = [] := by
      by_contra some
      obtain ⟨_, reserved', begun'⟩ := asked.begun some
      rw [reserved] at reserved'
      cases reserved'
      exact begun' ready
    rw [fresh, List.nil_append] at appended
    exact ⟨appended ▸ once, fun _ => ⟨_, after, begun⟩⟩

theorem asked_once (steps : Steps Serves w labels t) (unreserved : AskedOnce [] w) :
    AskedOnce labels t := by
  have held := steps.history (P := AskedOnce) (fun _ _ _ _ serves asked => asked.step serves)
    unreserved
  exact held

/-! ### Evidence -/

/-- The grant is for the reserved request and in time. -/
structure ValidFor (grant : AuthorityGrant) (r : Reservation) (now : Nat) : Prop where
  request : grant.request = r.expected
  principal : grant.principal.asStr = r.plan.principal
  operation : grant.operation = .generateWrapped
  begun : grant.validity.notBefore.val ≤ now
  lasting : now < grant.validity.notAfter.val
  ancestor : now < grant.ancestorNotAfter.val

omit [Ed25519] [AuthorityJson] in
theorem validFor_of_granted
    (reserved : w.creation = some r) (granted : w.creationGranted grant now now' = .ok ()) :
    ValidFor grant r now := by
  simp only [Worker.creationGranted, eq_ok]
    at granted
  obtain ⟨_, same, _, _, _, named, _, checked, _⟩ := granted
  rw [reserved] at same
  cases same
  simp only [AuthorityGrant.checkRequest, Validity.checkAt, eq_ok] at checked
  obtain ⟨_, _, _, _, _, matching, _, _, _, _, _, _, _, _, _, ⟨_, _, timely⟩, ancestor⟩ := checked
  simp only [not_or, ne_eq, not_not, not_lt, not_le, ge_iff_le] at matching timely ancestor
  refine ⟨matching.1, ?_, matching.2.2, timely.2.1, timely.2.2, ancestor⟩
  rw [matching.2.1]
  exact WrappingIdentifier.new_eq_ok.mp named

/-- The evidence of a creation: the grant held at all four checks, two before the source was
    asked and two after, and the material is what was reserved. -/
def Entry.Evidenced (entry : Entry) (bytes : Bytes) (evidence : CreationEvidence) : Prop :=
  ∃ r grant envelopeRef a a' b b' c c' d d', entry.before.creation = some r ∧
    entry.before.authenticated bytes = .ok (evidence.grant, grant) ∧
    entry.events = [readAt a, readAt a', ⟨.prepareGeneration r.context, .ok ()⟩,
      readAt b, readAt b', ⟨.generateWrapped r.context envelopeRef, .ok evidence.material⟩,
      readAt c, readAt c', readAt d, readAt d', ⟨.activateGenerated, ()⟩] ∧
    (∀ times ∈ [(a, a'), (b, b'), (c, c'), (d, d')],
      entry.before.creationGranted grant times.1 times.2 = .ok () ∧ ValidFor grant r times.1) ∧
    evidence.material.context = r.context ∧ evidence.material.envelopeRef.asStr = r.plan.envelopeRef

theorem Serves.evidenced (serves : Serves w entry t)
    (asks : entry.request = .generate bytes) (returns : entry.result = .ok (.created evidence)) :
    entry.Evidenced bytes evidence := by
  obtain ⟨request, _, _, rfl, handled⟩ := serves.entry
  cases (asks : request = .generate bytes)
  cases handled with
  | executed impossible => cases impossible
  | generated generated answers =>
    obtain ⟨_, returned, same⟩ := answers _ returns
    cases same
    rw [returned] at generated
    cases generated with
    | complete begun granted _ resulted =>
      refine ⟨_, _, _, _, _, _, _, _, _, _, _, begun.reserved, begun.authentic, rfl,
        fun times member => ?_, ?_⟩
      · have held := granted times member
        exact ⟨held, validFor_of_granted begun.reserved held⟩
      · simp only [Worker.creationResult, eq_ok] at resulted
        obtain ⟨_, matching, _⟩ := resulted
        simpa only [not_or, ne_eq, not_not] using matching

/-- Output needs a reservation that is complete, if there is one. -/
theorem Serves.unreserved (serves : Serves w entry t)
    (asks : entry.request.execution? = some (signed, context)) (yields : entry.Yields)
    (reserved : w.creation = some r) : r.state = .complete := by
  obtain ⟨_, _, _, rfl, handled⟩ := serves.entry
  obtain ⟨response, answered, _⟩ := yields
  cases handled with
  | @executed _ _ now _ _ _ _ _ _ _ executed returns =>
    obtain ⟨_, returned⟩ := returns response answered
    rcases executed.sequence with ⟨_, e, failed⟩ | ⟨_, _, u, accepted, _⟩
    · rw [failed] at returned
      cases returned
    · have allowed := accepted.created
      have kept : (w.expireAt now).2.creation = some r := by
        rw [w.expireAt_eq now]
        exact reserved
      simpa [Worker.creationAllowsUse, kept] using allowed
  | expired | revoked | reserved | generated => cases asks

/-- In one incarnation the source generates at most once, a failed attempt never completes,
    evidence comes only with a grant that held throughout and with the reserved material, and
    there is no output before the reserved creation is complete. -/
theorem creation_attempts {trust : TrustConfig} {providerRef : ProviderRef} {domain : String}
    {limits : Limits} {incarnation : Vector UInt8 32} {observer : SigningKey} {w₀ : Worker}
    (created : newWithTrust trust providerRef domain limits incarnation observer = .ok w₀)
    (steps : Steps Serves w₀ labels w) :
    (allGenerations labels).length ≤ 1 ∧
    (∀ r, w.creation = some r → r.state = .consumed →
      ∀ more t, Steps Serves w more t → t.creation = some r) ∧
    (∀ entry ∈ labels, ∀ bytes evidence, entry.request = .generate bytes →
      entry.result = .ok (.created evidence) → entry.Evidenced bytes evidence) ∧
    ∀ entry ∈ labels, ∀ signed context r, entry.request.execution? = some (signed, context) →
      entry.before.creation = some r → r.state ≠ .complete → ¬entry.Yields := by
  obtain ⟨sound, _, _⟩ := newWithTrust_sound created
  have each (entry : Entry) (member : entry ∈ labels) :
      Serves entry.before entry entry.after := by
    obtain ⟨n, found⟩ := List.mem_iff_getElem?.mp member
    exact (serves_at steps sound found).1
  refine ⟨?_, ?_, ?_, ?_⟩
  · exact (asked_once steps ⟨Nat.zero_le _, fun some => absurd rfl some⟩).once
  · intro r reserved consumed _ t later
    apply attempt_stays later reserved
    rw [consumed]
    decide
  · intro entry member _ _ asks returns
    exact (each entry member).evidenced asks returns
  · intro entry member _ _ r asks reserved incomplete yields
    exact incomplete ((each entry member).unreserved asks yields reserved)

end

/-! ### A creation that can be evaluated -/

attribute [local instance] leadingBytes acceptingScheme oneGrant

def samplePlan : CreationPlan := ⟨⟨1⟩, ⟨2⟩, ⟨⟨3⟩, 1⟩, "envelope", "sample"⟩

def sampleCustody : CustodyContext := ⟨fixtureContext, fixtureProfile⟩

/-- The grant for the reserved request, with its signature. -/
def sampleCreationGrant : Except Error Bytes := do
  let executor ← mapErr (ExecutorIncarnation.new sampleIncarnation) fun _ => .context
  let expected ← samplePlan.binding executor sampleCustody
  let grant : AuthorityGrant := {
    authority := ⟨sampleIdentifier, .securityDomain fixtureContext.providerRef
      fixtureContext.securityDomain, ⟨1, one_nonzero⟩⟩
    request := expected
    principal := sampleIdentifier
    operation := .generateWrapped
    sequence := ⟨1, one_nonzero⟩
    validity := ⟨.executorMonotonicMilliseconds executor, 0, 100⟩
    ancestorNotAfter := 100 }
  mapErr (canonicalBytes (⟨sampleIdentifier, sampleIdentifier, grant, Vector.replicate 64 0⟩ :
    Evidence AuthorityGrant)) fun _ => .authority

def sampleReserved : Option Entry :=
  sampleStart.toOption.bind (Request.reserveCreation samplePlan sampleCustody).play

def sampleCreated : Option Entry :=
  sampleCreationGrant.toOption.bind fun bytes =>
    sampleReserved.bind fun entry => (Request.generate bytes).play entry.after

theorem sampleCreated_evidence : (match sampleCreated with
    | some entry => (match entry.result with
      | .ok (.created _) => true
      | _ => false)
    | none => false) = true := by
  decide +kernel

/-- A reserved creation brings its evidence. -/
theorem creation_attempts_sample : ∃ (w₀ : Worker) (reserving creating : Entry) (bytes : Bytes)
    (evidence : CreationEvidence), sampleStart = .ok w₀ ∧
    Steps Serves w₀ [reserving, creating] creating.after ∧
    creating.Evidenced bytes evidence := by
  have made := sampleCreated_evidence
  cases played : sampleCreated with
  | none =>
    rw [played] at made
    cases made
  | some creating =>
    rw [played] at made
    obtain ⟨bytes, _, later⟩ := Option.bind_eq_some_iff.mp played
    obtain ⟨reserving, first, second⟩ := Option.bind_eq_some_iff.mp later
    obtain ⟨w₀, started, served⟩ := Option.bind_eq_some_iff.mp first
    obtain ⟨_, reserves⟩ := serves_of_play served
    obtain ⟨asks, creates⟩ := serves_of_play second
    have steps : Steps Serves w₀ [reserving, creating] creating.after :=
      .cons reserves (.cons creates (.nil _))
    have attempts := creation_attempts (ok_of_toOption started) steps
    cases returned : creating.result with
    | error => simp [returned] at made
    | ok response =>
      cases response with
      | created evidence =>
        exact ⟨w₀, reserving, creating, bytes, evidence, ok_of_toOption started, steps,
          attempts.2.2.1 creating (by simp) bytes evidence asks returned⟩
      | output | delivery | cleanups | revoked | reserved => simp [returned] at made

end KeyRack.CryptoWorker
