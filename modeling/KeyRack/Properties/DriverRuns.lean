import KeyRack.Properties.CreationDispatch
import KeyRack.Service.CreationDriver

/-!
# Concurrent runs of the creation driver

A driver generates only after its own call was granted the dispatch, and at most
once; a dispatch is granted to one call only. It records only closures that the
verifier accepted, and it asks for cleanup whenever it asked for generation.
-/
namespace KeyRack.Service

open Fallible Process Trace Sqlite List

section
variable [UuidText] [Blake3] [IntentEncoding]

abbrev DriverEvent : Type := Event DriverCall DriverCall.Reply

/-! ### What a driver does with its replies -/

/-- The call was granted the dispatch of the operation. -/
def Grants (operation : Uuid) (event : DriverEvent) : Prop :=
  ∃ owner journal, event =
    ⟨.claimCreationDispatch operation owner, .ok (Creation.CreationDispatch.started journal)⟩

def generates (event : DriverEvent) : Bool :=
  match event.1 with
  | .generateAndWrap _ => true
  | _ => false

/-- The verifier accepted the claim. -/
def Accepts (claim : A2ClosureClaim) (event : DriverEvent) : Prop :=
  ∃ request, event = ⟨.verify request claim, .ok ()⟩

/-- No generation was asked for yet. -/
def Ungenerated (past : List DriverEvent) : Prop := ∀ event ∈ past, generates event = false

variable {past : List DriverEvent} {event : DriverEvent}

theorem Ungenerated.append (before : Ungenerated past) (other : generates event = false) :
    Ungenerated (past ++ [event]) := by
  intro later member
  rcases mem_append.mp member with old | new
  · exact before later old
  · rw [mem_singleton.mp new]
    exact other

/-- The calls that depend on what happened before. -/
def Disciplined (operation : Uuid) (past : List DriverEvent) : DriverCall → Prop
  | .claimCreationDispatch named _ => named = operation
  | .generateAndWrap _ => (∃ event ∈ past, Grants operation event) ∧ Ungenerated past
  | .resolveCreation _ _ _ closure => ∃ event ∈ past, Accepts closure.claim event
  | _ => True

/-- So does the driver of one request, which reserves nothing else. -/
def Driven (request : CreationRequest) (past : List DriverEvent) : DriverCall → Prop
  | .reserveCreation other => other = request
  | c => Disciplined request.operation past c

variable {request : CreationRequest}

theorem Driven.disciplined (driven : Driven request past c) :
    Disciplined request.operation past c := by
  cases c with
  | reserveCreation => trivial
  | _ => exact driven

/-- Every generation is followed by an attempt to close its effect. -/
def Settled (past : List DriverEvent) : Prop :=
  ∀ early late request outcome, past = early ++ ⟨.generateAndWrap request, outcome⟩ :: late →
    ∃ reply, (⟨.closeCreation request, reply⟩ : DriverEvent) ∈ late

theorem Ungenerated.settled (ungenerated : Ungenerated past) : Settled past := by
  rintro early late request outcome rfl
  have impossible := ungenerated ⟨.generateAndWrap request, outcome⟩ (by simp)
  cases impossible

theorem Settled.append (settled : Settled past) (other : generates event = false) :
    Settled (past ++ [event]) := by
  intro early late request outcome split
  rcases eq_nil_or_concat' late with rfl | ⟨late, _, rfl⟩
  · -- the generation would be the new event
    cases (append_inj' split rfl).2
    cases other
  · rw [← cons_append, ← append_assoc] at split
    obtain ⟨reply, member⟩ := settled early late request outcome (append_inj' split rfl).1
    exact ⟨reply, mem_append_left _ member⟩

/-- A close settles the generations of its own request. -/
theorem settled_close
    (own : ∀ event ∈ past, ∀ other, event.1 = .generateAndWrap other → other = request) :
    Settled (past ++ [⟨.closeCreation request, reply⟩]) := by
  intro _ late other outcome split
  rcases eq_nil_or_concat' late with rfl | ⟨late, _, rfl⟩
  · cases (append_inj' split rfl).2
  · rw [← cons_append, ← append_assoc] at split
    obtain ⟨rfl, last⟩ := append_inj' split rfl
    cases last
    cases own ⟨.generateAndWrap other, outcome⟩ (by simp) other rfl
    exact ⟨reply, mem_concat_self⟩

variable {claim : A2ClosureClaim}

/-- A verified closure is the claim it was made of, and the verifier accepted that. -/
theorem verify_ok
    (verified : VerifiedA2Closure.verify request envelope claim verifier = .ok closed) :
    closed.claim = claim ∧ verifier request claim = .ok () := by
  unfold VerifiedA2Closure.verify at verified
  split at verified
  next accepted =>
    cases verified
    simp only [A2ClosureClaim.verify, bind_eq_ok] at accepted
    obtain ⟨_, _, _, _, verdict⟩ := accepted
    exact ⟨rfl, verdict⟩
  next => cases verified

variable {request : CreationRequest}

/-- What every part of the driver keeps. -/
abbrev Drives (request : CreationRequest) (past : List DriverEvent) {α : Type}
    (part : Driver α) : Prop := Obeys (Driven request) (fun past _ => Settled past) past part.run

section
variable (settled : Settled past)
include settled

theorem verifyClosure_obeys :
    Obeys (Driven request)
      (fun past result => Settled past ∧
        ∀ closure, result = .ok closure → ∃ event ∈ past, Accepts closure.claim event)
      past (verifyClosure request bytes claim).run := by
  refine obeys_check_then (fun e _ => ⟨settled, fun _ impossible => by cases impossible⟩) ?_
  intro _ _
  refine obeys_observe_then trivial fun verdict => ⟨settled.append rfl, fun _ verified => ?_⟩
  obtain ⟨rfl, accepted⟩ := verify_ok verified
  have verdictOk : verdict = .ok () := accepted
  subst verdictOk
  exact ⟨_, mem_concat_self, request, rfl⟩

theorem publish_keeps : Drives request past (publish request) := by
  refine obeys_observe_then trivial fun preflight => ?_
  cases preflight with
  | error => exact settled.append rfl
  | ok =>
    refine obeys_observe_then trivial fun published => ?_
    cases published with
    | error e | ok record => exact (settled.append rfl).append rfl

theorem resolveAndPublish_keeps : Drives request past (resolveAndPublish request bytes claim) := by
  refine obeys_lift_then ((verifyClosure_obeys settled).mono ?_)
  rintro past result ⟨settled, accepted⟩
  cases result with
  | error => exact settled
  | ok closure =>
    refine obeys_observe_then (accepted closure rfl) fun resolved => ?_
    cases resolved with
    | error => exact settled.append rfl
    | ok => exact publish_keeps (settled.append rfl)

theorem snapshot_keeps : Drives request past (snapshot request) := by
  have later (reply : DriverCall.Reply (.creationSnapshot request.operation request.owner)) :
      Settled (past ++ [⟨_, reply⟩]) := settled.append rfl
  refine obeys_perform_then trivial (fun e => later _) fun _ => ?_
  refine obeys_check_then (fun _ _ => later _) fun _ _ => ?_
  refine obeys_check_then (fun _ _ => later _) fun _ _ => ?_
  exact obeys_check_then (fun _ _ => later _) fun _ _ => later _

theorem recoverClosure_keeps : Drives request past (recoverClosure request journal) := by
  unfold recoverClosure
  split
  next => exact obeys_check_then (fun _ _ => settled) fun _ _ => settled
  next =>
    refine obeys_observe_then trivial fun reply => ?_
    cases reply with
    | error e | ok claim => exact settled.append rfl

/-- A staged and a resolved journal go the same way. -/
theorem recover_keeps {snapshot : CreationSnapshot} : Drives request past (do
    let bytes ← liftM (okOr snapshot.envelope (invalid "missing recovery envelope"))
    match ← recoverClosure request snapshot.journal with
    | none => return .pending .cleanupUnconfirmed
    | some claim => resolveAndPublish request bytes claim) := by
  refine obeys_check_then (fun _ _ => settled) fun _ _ => ?_
  refine obeys_try.mpr ((recoverClosure_keeps settled).mono fun _ result settled => ?_)
  cases result with
  | error => exact settled
  | ok claim =>
    cases claim with
    | none => exact settled
    | some => exact resolveAndPublish_keeps settled

theorem resumeStaged_keeps : Drives request past (resumeStaged request) := by
  refine obeys_try.mpr ((snapshot_keeps settled).mono fun past result settled => ?_)
  cases result with
  | error => exact settled
  | ok snapshot =>
    simp only
    cases snapshot.journal.phase with
    | reserved => exact settled
    | committed => exact obeys_check_then (fun _ _ => settled) fun _ _ => settled
    | staged | resolved => exact recover_keeps settled

end

theorem stageGenerated_obeys
    (own : ∀ event ∈ past, ∀ other, event.1 = .generateAndWrap other → other = request) :
    Obeys (Driven request)
      (fun past result => (∃ staged, result = .ok staged) ∧
        ∀ event ∈ past, ∀ other, event.1 = .generateAndWrap other → other = request)
      past (stageGenerated request generated).run := by
  cases generated with
  | error => exact ⟨⟨_, rfl⟩, own⟩
  | ok =>
    refine ⟨trivial, fun staged => ⟨⟨staged, rfl⟩, ?_⟩⟩
    intro event member other isGeneration
    rcases mem_concat.mp member with before | now
    · exact own event before other isGeneration
    · cases now
      cases isGeneration

/-- The one place where the driver generates. -/
theorem generate_keeps (granted : ∃ event ∈ past, Grants request.operation event)
    (ungenerated : Ungenerated past) : Drives request past (generate request) := by
  refine obeys_observe_then ⟨granted, ungenerated⟩ fun generated => ?_
  have own : ∀ event ∈ past ++ [⟨.generateAndWrap request, generated⟩],
      ∀ other, event.1 = .generateAndWrap other → other = request := by
    intro event member _ isGeneration
    rcases mem_concat.mp member with before | now
    · have different := ungenerated event before
      rw [generates, isGeneration] at different
      cases different
    · cases now
      cases isGeneration
      rfl
  refine obeys_try.mpr ((stageGenerated_obeys own).mono ?_)
  rintro past result ⟨⟨staged, rfl⟩, own⟩
  refine obeys_observe_then trivial fun closed => ?_
  have settled : Settled (past ++ [⟨.closeCreation request, closed⟩]) := settled_close own
  cases closed with
  | error => exact settled
  | ok =>
    cases generated with
    | error => exact settled
    | ok =>
      cases staged with
      | error => exact settled
      | ok => exact resolveAndPublish_keeps settled

theorem dispatch_keeps (ungenerated : Ungenerated past) :
    Drives request past (dispatch request) := by
  refine obeys_perform_then trivial (fun e => (ungenerated.append rfl).settled) fun _ => ?_
  refine obeys_perform_then rfl (fun e => ((ungenerated.append rfl).append rfl).settled)
    fun decision => ?_
  cases decision with
  | existing => exact ((ungenerated.append rfl).append rfl).settled
  | started journal =>
    have later : Ungenerated (past ++ [⟨.preflight request, .ok ()⟩] ++
        [⟨.claimCreationDispatch request.operation request.owner,
          .ok (Creation.CreationDispatch.started journal)⟩]) := (ungenerated.append rfl).append rfl
    refine obeys_check_then (fun _ _ => later.settled) fun _ _ => ?_
    refine generate_keeps ⟨_, mem_concat_self, ?_⟩ later
    exact ⟨request.owner, journal, rfl⟩

theorem drive_keeps : Drives request [] (drive request) := by
  have ungenerated (reply : DriverCall.Reply (.reserveCreation request)) :
      Ungenerated ([] ++ [⟨.reserveCreation request, reply⟩]) :=
    .append (fun _ member => by cases member) rfl
  refine obeys_perform_then rfl (fun e => (ungenerated _).settled) fun journal => ?_
  have settled := (ungenerated (.ok journal)).settled
  refine obeys_check_then (fun _ _ => settled) fun _ _ => ?_
  refine obeys_check_then (fun _ _ => settled) fun _ _ => ?_
  refine obeys_check_then (fun _ _ => settled) fun _ _ => ?_
  refine obeys_check_then (fun _ _ => settled) fun _ _ => ?_
  split
  next => exact obeys_check_then (fun _ _ => settled) fun _ _ => settled
  next => exact resumeStaged_keeps settled
  next => exact resumeStaged_keeps settled
  next =>
    split
    next => exact settled
    next => exact dispatch_keeps (ungenerated _)

end
end KeyRack.Service

/-! ### What the backend grants -/

namespace KeyRack.Sqlite

/-- The operation's dispatch is spent: its row says so, or was retired. -/
def Db.Dispatched (db : Db) (operation : Uuid) : Prop :=
  (∃ row, Creation.storedJournal db operation = some row ∧ row.2.journal.dispatchStarted = true) ∨
  db.Retired operation ∧ Creation.storedJournal db operation = none

section
variable [UuidText] [Blake3] [IntentEncoding] {db : Db} {operation : Uuid}

/-- Only a withdrawal forgets a dispatch. -/
theorem StorageStep.dispatched (step : StorageStep db event db')
    (kept : event.1 ≠ .withdrawCreation operation) (dispatched : db.Dispatched operation) :
    db'.Dispatched operation := by
  obtain ⟨_, _⟩ := event
  rcases step.effect.creationRow with ⟨retired, same | ⟨written, _, new, write, read, rows⟩⟩ |
    ⟨child, retires⟩
  · rw [Db.Dispatched, Db.Retired, retired, same]
    exact dispatched
  · by_cases own : operation = written
    · subst own
      have stored' : Creation.storedJournal db' operation = new := by
        rw [rows, Function.update_self]
      -- a reservation needs an operation that is neither stored nor retired
      rcases dispatched with ⟨_, stored, started⟩ | ⟨gone, none⟩
      · rw [stored] at read
        cases write with
        | reserve => cases read
        | advance _ _ step =>
          cases read
          refine .inl ⟨_, stored', ?_⟩
          cases step with
          | dispatch => rfl
          | stage | resolve => exact started
        | publish =>
          cases read
          exact .inl ⟨_, stored', started⟩
        | withdraw => exact absurd rfl kept
      · rw [none] at read
        cases write with
        | reserve _ _ unretired => exact absurd unretired gone
        | advance | publish | withdraw => cases read
    · rw [Db.Dispatched, Db.Retired, retired, rows, Function.update_of_ne own]
      exact dispatched
  · rcases dispatched with ⟨row, stored, started⟩ | ⟨gone, none⟩
    · by_cases leaves : retiresRow child row = true
      · refine .inr ⟨(retires.retired operation).mpr (.inr ⟨row, stored, leaves⟩), ?_⟩
        rw [retires.rows, stored]
        simp [leaves]
      · refine .inl ⟨row, ?_, started⟩
        rw [retires.rows, stored]
        simp [leaves]
    · refine .inr ⟨(retires.retired operation).mpr (.inl gone), ?_⟩
      rw [retires.rows, none]
      rfl

/-- A dispatch is granted once. -/
theorem StorageStep.grants (step : StorageStep db (.claimCreationDispatch operation owner,
      .ok (.dispatch (.started journal))) db') :
    ¬db.Dispatched operation ∧ db'.Dispatched operation := by
  obtain ⟨_, _, _, stored, _, unclaimed, _, _, _, next, isOpen⟩ := step.effect.started
  refine ⟨?_, .inl ⟨next, isOpen.stored, isOpen.dispatched⟩⟩
  rintro (⟨_, same, started⟩ | ⟨_, none⟩)
  · cases stored.symm.trans same
    rw [unclaimed] at started
    cases started
  · rw [none] at stored
    cases stored

/-- A closure in a stored journal was there before, or is the one just recorded. -/
theorem StorageStep.closure (step : StorageStep db (op, result) db')
    (stored : Creation.storedJournal db' operation = some row)
    (closed : row.2.journal.closure = some claim) :
    (∃ before, Creation.storedJournal db operation = some before ∧
      before.2.journal.closure = some claim) ∨
    ∃ owner revision closure, op = .resolveCreation operation owner revision closure ∧
      closure.claim = claim := by
  rcases step.effect.creationRow with ⟨_, same | ⟨written, old, _, write, read, rows⟩⟩ |
    ⟨child, retires⟩
  · rw [same] at stored
    exact .inl ⟨row, stored, closed⟩
  · by_cases own : operation = written
    · subst own
      rw [rows, Function.update_self] at stored
      subst stored
      cases write with
      | reserve => cases closed
      | advance _ _ step =>
        cases step with
        | dispatch | stage => exact .inl ⟨_, read, closed⟩
        | resolve => exact .inr ⟨_, _, _, rfl, Option.some.inj closed⟩
      | publish => exact .inl ⟨_, read, closed⟩
    · rw [rows, Function.update_of_ne own] at stored
      exact .inl ⟨row, stored, closed⟩
  · rw [retires.rows] at stored
    exact .inl ⟨row, (Option.filter_eq_some_iff.mp stored).1, closed⟩

end
end KeyRack.Sqlite

namespace KeyRack.Service

open Fallible Process Trace Sqlite

section
variable [UuidText] [Blake3] [IntentEncoding] {ι : Type} [DecidableEq ι]

abbrev DriverLabel (ι : Type) : Type := Label ι DriverCall DriverCall.Reply Sqlite.Event

abbrev DriverSystem (ι : Type) : Type :=
  System Db ι DriverCall DriverCall.Reply (Except KeyRackError CreationProgress)

variable {operation : Uuid} {s t : DriverSystem ι} {label : DriverLabel ι}
  {past : List (DriverLabel ι)}

/-! ### The steps of the system -/

/-- Where a storage operation of the system comes from. -/
inductive Origin (operation : Uuid) (op : Op) (outcome : Except KeyRackError Sqlite.Reply) :
    DriverLabel ι → Prop where
  | call (i : ι) (c : DriverCall) (reply : c.Reply) (form : c.Value → Sqlite.Reply)
      (stores : c.Stores op form) (told : ∀ value, reply = .ok value → outcome = .ok (form value)) :
      Origin operation op outcome (.called i ⟨c, reply⟩)
  | other (event : Sqlite.Event) (foreign : Foreign operation op) :
      Origin operation op outcome (.environment event)

omit [DecidableEq ι] in
theorem Origin.not_withdraw
    (origin : Origin operation op outcome label) : op ≠ .withdrawCreation operation := by
  rintro rfl
  cases origin with
  | call _ _ _ _ stores => cases stores
  | other _ foreign => exact foreign rfl

/-- A step leaves the tables alone or runs one storage operation; a dispatch is
    granted by running it. -/
theorem driverStep_storage (step : Step (driverRules ι operation) s label t) :
    (t.world = s.world ∧ ∀ i event, label = .called i event → ¬Grants operation event) ∨
      ∃ op outcome, StorageStep s.world (op, outcome) t.world ∧
        Origin operation op outcome label := by
  cases step with
  | start => exact .inl ⟨rfl, by rintro _ _ ⟨⟩⟩
  | drop _ _ _ _ _ left => exact .inl ⟨left, by rintro _ _ ⟨⟩⟩
  | environment event _ changed =>
    exact .inr ⟨event.1, event.2, changed.1, .other event changed.2⟩
  | call i c _ reply _ _ answered =>
    cases answered with
    | storage _ op form _ _ stores attempt =>
      rcases attempt.cases with ⟨same, e, rfl⟩ | ⟨outcome, step, told⟩
      · refine .inl ⟨same, ?_⟩
        rintro _ _ ⟨⟩ ⟨owner, journal, impossible⟩
        cases impossible
      · exact .inr ⟨op, outcome, step, .call i c reply form stores told⟩
    | snapshot =>
      refine .inl ⟨rfl, ?_⟩
      rintro _ _ ⟨⟩ ⟨owner, journal, impossible⟩
      cases impossible
    | provider _ _ provided =>
      refine .inl ⟨rfl, ?_⟩
      rintro _ _ ⟨⟩ ⟨owner, journal, impossible⟩
      cases impossible
      cases provided

/-- A granted dispatch was free before and is spent after. -/
theorem driverStep_grants (step : Step (driverRules ι operation) s (.called i event) t)
    (granted : Grants operation event) :
    ¬s.world.Dispatched operation ∧ t.world.Dispatched operation := by
  rcases driverStep_storage step with ⟨_, none⟩ | ⟨op, outcome, step, origin⟩
  · exact absurd granted (none i event rfl)
  · obtain ⟨_, _, rfl⟩ := granted
    cases origin with
    | call _ _ _ _ stores told =>
      cases stores
      cases told _ rfl
      exact step.grants

theorem driverStep_dispatched (step : Step (driverRules ι operation) s label t)
    (dispatched : s.world.Dispatched operation) : t.world.Dispatched operation := by
  rcases driverStep_storage step with ⟨same, _⟩ | ⟨op, outcome, step, origin⟩
  · rw [same]
    exact dispatched
  · exact step.dispatched origin.not_withdraw dispatched

theorem driverStep_rowsBound (step : Step (driverRules ι operation) s label t)
    (bound : s.world.RowsBound) : t.world.RowsBound := by
  rcases driverStep_storage step with ⟨same, _⟩ | ⟨op, outcome, step, _⟩
  · rw [same]
    exact bound
  · exact step.rowsBound bound

/-! ### One generation -/

/-- The label is a call of the provider's generation. -/
def generation : DriverLabel ι → Bool
  | .called _ event => generates event
  | _ => false

/-- The dispatch went to one driver, and only that one generated, once. -/
structure Single (operation : Uuid) (past : List (DriverLabel ι)) (s : DriverSystem ι) : Prop where
  dispatched : ∀ i event, .called i event ∈ past → Grants operation event →
    s.world.Dispatched operation
  holder : ∀ i j a b, .called i a ∈ past → .called j b ∈ past → Grants operation a →
    Grants operation b → i = j
  justified : ∀ i event, .called i event ∈ past → generates event = true →
    ∃ grant, .called i grant ∈ past ∧ Grants operation grant
  once : (past.filter generation).length ≤ 1

/-- A driver that may generate holds the grant and has not generated, and no other
    driver holds one. -/
theorem Single.none_before (request : CreationRequest) (single : Single operation past s)
    (permitted : Disciplined operation (own i past) (.generateAndWrap request)) :
    past.filter generation = [] := by
  obtain ⟨⟨grant, granted, grants⟩, ungenerated⟩ := permitted
  rw [List.filter_eq_nil_iff]
  intro earlier member again
  cases earlier with
  | called j other =>
    obtain ⟨grant', granted', grants'⟩ := single.justified j other member again
    cases single.holder i j grant grant' (mem_own.mp granted) granted' grants grants'
    have impossible := ungenerated other (mem_own.mpr member)
    rw [show generates other = true from again] at impossible
    cases impossible
  | _ => cases again

theorem Single.none_before_generation (single : Single operation past s)
    (allowed : label.Allowed (Disciplined operation) past) (generated : generation label = true) :
    past.filter generation = [] := by
  cases label with
  | called i event =>
    obtain ⟨c, _⟩ := event
    cases c with
    | generateAndWrap request => exact single.none_before request allowed
    | _ => cases generated
  | _ => cases generated

theorem Single.step (step : Step (driverRules ι operation) s label t)
    (allowed : label.Allowed (Disciplined operation) past) (single : Single operation past s) :
    Single operation (past ++ [label]) t := by
  constructor
  · intro i event member granted
    rcases mem_concat.mp member with before | now
    · exact driverStep_dispatched step (single.dispatched i event before granted)
    · cases now
      exact (driverStep_grants step granted).2
  · intro i j a b memberA memberB grantedA grantedB
    -- a new grant finds the dispatch free, so there was none before
    rcases mem_concat.mp memberA with beforeA | nowA <;>
      rcases mem_concat.mp memberB with beforeB | nowB
    · exact single.holder i j a b beforeA beforeB grantedA grantedB
    · cases nowB
      exact absurd (single.dispatched i a beforeA grantedA) (driverStep_grants step grantedB).1
    · cases nowA
      exact absurd (single.dispatched j b beforeB grantedB) (driverStep_grants step grantedA).1
    · cases nowA
      cases nowB
      rfl
  · intro i event member isGeneration
    rcases mem_concat.mp member with before | now
    · obtain ⟨grant, granted, grants⟩ := single.justified i event before isGeneration
      exact ⟨grant, List.mem_append_left _ granted, grants⟩
    · cases now
      obtain ⟨c, _⟩ := event
      cases c with
      | generateAndWrap =>
        obtain ⟨⟨grant, granted, grants⟩, _⟩ := allowed
        exact ⟨grant, List.mem_append_left _ (mem_own.mp granted), grants⟩
      | _ => cases isGeneration
  · rw [List.filter_append, List.length_append]
    cases isGeneration : generation label with
    | false =>
      rw [List.filter_cons_of_neg (by simp [isGeneration])]
      exact single.once
    | true =>
      rw [single.none_before_generation allowed isGeneration]
      simp [isGeneration]

/-- A closure in the operation's journal is one that the verifier accepted. -/
def Verified (operation : Uuid) (past : List (DriverLabel ι)) (s : DriverSystem ι) : Prop :=
  ∀ row claim, Creation.storedJournal s.world operation = some row →
    row.2.journal.closure = some claim →
    ∃ i request, .called i ⟨.verify request claim, .ok ()⟩ ∈ past

theorem Verified.step (step : Step (driverRules ι operation) s label t)
    (allowed : label.Allowed (Disciplined operation) past) (verified : Verified operation past s) :
    Verified operation (past ++ [label]) t := by
  intro row claim stored closed
  have earlier (before : ∃ row, Creation.storedJournal s.world operation = some row ∧
      row.2.journal.closure = some claim) :
      ∃ i request, .called i ⟨.verify request claim, .ok ()⟩ ∈ past ++ [label] := by
    obtain ⟨row, stored, closed⟩ := before
    obtain ⟨i, request, member⟩ := verified row claim stored closed
    exact ⟨i, request, List.mem_append_left _ member⟩
  rcases driverStep_storage step with ⟨same, _⟩ | ⟨op, outcome, step, origin⟩
  · rw [same] at stored
    exact earlier ⟨row, stored, closed⟩
  · rcases step.closure stored closed with before | ⟨owner, revision, closure, rfl, rfl⟩
    · exact earlier before
    · -- only a driver records a closure here, after it was accepted
      cases origin with
      | call i _ _ _ stores =>
        cases stores
        obtain ⟨_, member, request, rfl⟩ := allowed
        exact ⟨i, request, List.mem_append_left _ (mem_own.mp member)⟩
      | other _ foreign => exact absurd rfl foreign

/-- The driver has asked for the generation and waits for the answer. -/
def Generating (s : DriverSystem ι) (i : ι) : Prop :=
  ∃ request next, s.threads i = .live (.call (.generateAndWrap request) next)

/-- **Driver runs**: whatever the interleaving of any number of drivers of one
    operation, and wherever their storage and provider calls fail, the provider's
    generation is called at most once, calls whose driver was dropped before the
    answer included; a committed journal has a closure for exactly its staged
    envelope that the verifier accepted earlier; and a driver that returned has
    tried to close after every generation it asked for. -/
theorem driver_runs (operation : Uuid) (labels : List (DriverLabel ι)) (s : DriverSystem ι)
    (steps : Steps (Step (driverRules ι operation)) ⟨Db.empty, fun _ => .idle⟩ labels s) :
    (labels.filter generation).length ≤ 1 ∧
    (∀ i, Generating s i → labels.filter generation = [] ∧
      ∀ more t j, Steps (Step (driverRules ι operation)) s more t → Generating t j → i = j) ∧
    (∀ row, Creation.storedJournal s.world operation = some row →
      row.2.journal.phase = .committed →
      ∃ claim, row.2.journal.closure = some claim ∧
        row.2.journal.envelopeDigest = some claim.envelopeDigest ∧
        ∃ i request, .called i ⟨.verify request claim, .ok ()⟩ ∈ labels) ∧
    ∀ i result, s.threads i = .live (.done result) →
      ∀ early late request outcome,
        own i labels = early ++ ⟨.generateAndWrap request, outcome⟩ :: late →
        ∃ reply, (⟨.closeCreation request, reply⟩ : DriverEvent) ∈ late := by
  have every (p : Prog DriverCall DriverCall.Reply (Except KeyRackError CreationProgress))
      (starts : (driverRules ι operation).starts p) :
      Obeys (Disciplined operation) (fun past _ => Settled past) [] p := by
    obtain ⟨_, own, _, rfl⟩ := starts
    subst own
    exact drive_keeps.weaken fun _ _ => Driven.disciplined
  have started : Single operation [] (⟨Db.empty, fun _ => .idle⟩ : DriverSystem ι) := by
    constructor <;> simp
  have unrecorded : Verified operation [] (⟨Db.empty, fun _ => .idle⟩ : DriverSystem ι) := by
    intro row claim stored
    exact absurd (Creation.storedJournal_eq_some.mp stored).1 (Table.not_mem_empty row)
  have reached {labels : List (DriverLabel ι)} {s : DriverSystem ι}
      (steps : Steps (Step (driverRules ι operation)) ⟨Db.empty, fun _ => .idle⟩ labels s) :
      Following (Disciplined operation) (fun past _ => Settled past) labels s ∧
        Single operation labels s ∧ Verified operation labels s ∧ s.world.RowsBound :=
    steps_guided
      (P := fun past s => Single operation past s ∧ Verified operation past s ∧ s.world.RowsBound)
      every
      (fun past s label t step allowed _ ⟨single, verified, bound⟩ =>
        ⟨single.step step allowed, verified.step step allowed, driverStep_rowsBound step bound⟩)
      steps (fun _ => rfl) ⟨started, unrecorded, Db.rowsBound_empty⟩
  obtain ⟨following, single, verified, bound⟩ := reached steps
  refine ⟨single.once, ?_, ?_, fun i _ finished => following.live i _ finished⟩
  · rintro i ⟨request, next, waits⟩
    have permitted := (following.live i _ waits).1
    refine ⟨single.none_before request permitted, ?_⟩
    rintro more t j taken ⟨request', next', waits'⟩
    -- both hold a grant, at the later time
    obtain ⟨following', single', _⟩ := reached (steps.append taken)
    obtain ⟨⟨grant, granted, grants⟩, _⟩ := permitted
    obtain ⟨⟨grant', granted', grants'⟩, _⟩ := (following'.live j _ waits').1
    exact single'.holder i j grant grant' (List.mem_append_left _ (mem_own.mp granted))
      (mem_own.mp granted') grants grants'
  intro row stored committed
  obtain ⟨_, rowBound⟩ := bound.creations row (Creation.storedJournal_eq_some.mp stored).1
  -- a committed journal has a closure, and it is one of the staged bytes
  have closed : row.2.journal.closure.isSome = true :=
    rowBound.valid.present.2.2.2.1.mpr (.inr committed)
  obtain ⟨claim, recorded⟩ := Option.isSome_iff_exists.mp closed
  exact ⟨claim, recorded, (rowBound.valid.closure claim recorded).2.symm,
    verified row claim stored recorded⟩

end

open Sample

/-- The backend answers every call, and the provider does what it is asked to. -/
def sampleAnswer (db : Db) : (c : DriverCall) → c.Reply × Db
  | .reserveCreation request => settle (Creation.reserveA2 request) db
  | .claimCreationDispatch operation owner =>
    settle (Creation.claimA2Dispatch operation owner) db
  | .stageCreation operation owner revision envelope =>
    settle (Creation.stageA2 operation owner revision envelope) db
  | .resolveCreation operation owner revision closure =>
    settle (Creation.resolveA2 operation owner revision closure) db
  | .publishCreation operation owner revision =>
    settle (Creation.publishA2 operation owner revision) db
  | .creationSnapshot operation owner => (creationSnapshot db operation owner, db)
  | .preflight _ => (.ok (), db)
  | .generateAndWrap _ => (.ok [1, 2], db)
  | .closeCreation _ => (.ok sampleClosure.claim, db)
  | .verify _ _ => (.ok (), db)

theorem sampleAnswer_answers (db : Db) (c : DriverCall) :
    c.Answers db (sampleAnswer db c).1 (sampleAnswer db c).2 := by
  cases c with
  | reserveCreation | claimCreationDispatch | stageCreation | resolveCreation | publishCreation =>
    exact .storage _ _ _ _ _ (by constructor) (.settle rfl db)
  | creationSnapshot operation owner => exact .snapshot operation owner _ (.inl rfl)
  | preflight | generateAndWrap | closeCreation | verify => exact .provider _ _ rfl

def parentDb : Db := (Op.run (.createKey (residentRecord (sampleLid 1))) Db.empty).2

/-- One driver, run to its end. -/
abbrev publishedCreation : List DriverEvent × Db ×
    Prog DriverCall DriverCall.Reply (Except KeyRackError CreationProgress) :=
  solo sampleAnswer 10 parentDb (drive creationRequest).run

def publishedLabels : List (DriverLabel Unit) :=
  .environment (.createKey (residentRecord (sampleLid 1)), .ok .done) :: .started () ::
    publishedCreation.1.map fun event => .called () event

/-- The driver publishes, after its closure was accepted. -/
theorem driver_runs_published :
    ∃ row claim, Creation.storedJournal publishedCreation.2.1 ⟨1⟩ = some row ∧
      row.2.journal.phase = .committed ∧ row.2.journal.closure = some claim ∧
      ∃ i request, .called i ⟨.verify request claim, .ok ()⟩ ∈ publishedLabels := by
  have created : StorageStep Db.empty (.createKey (residentRecord (sampleLid 1)), .ok .done)
      parentDb := storageStep_run (by decide +kernel)
  have valid : creationRequest.validate = .ok () := by decide +kernel
  have answers : ∀ db c, (driverRules Unit ⟨1⟩).answers db () c (sampleAnswer db c).1
      (sampleAnswer db c).2 := sampleAnswer_answers
  have alone := steps_solo answers 10 (drive creationRequest).run (fun _ => .idle) parentDb
  have steps : Steps (Step (driverRules Unit ⟨1⟩)) ⟨Db.empty, fun _ => .idle⟩ publishedLabels _ :=
    .cons (.environment _ _ _ ⟨created, trivial⟩)
      (.cons (.start _ () _ rfl ⟨creationRequest, rfl, valid, rfl⟩) alone)
  have committed : ((Creation.storedJournal publishedCreation.2.1 ⟨1⟩).any
      fun row => row.2.journal.phase == .committed) = true := by decide +kernel
  simp only [Option.any_eq_true, beq_iff_eq] at committed
  obtain ⟨row, stored, phase⟩ := committed
  obtain ⟨claim, closed, _, accepted⟩ := (driver_runs ⟨1⟩ _ _ steps).2.2.1 row stored phase
  exact ⟨row, claim, stored, phase, closed, accepted⟩

end KeyRack.Service
