import KeyRack.Properties.JournalTables
import KeyRack.Properties.KeyTable

/-!
# One open dispatch for each child version

A withdrawal deletes the row that remembers the dispatch, so the journal alone
cannot rule out a second one. After a dispatch was granted one of three things
holds: its row is still open and blocks the child version through the unique
index, the version was published and blocks it through the key's history, or the
row was withdrawn after a verified closure was recorded in it.
-/
namespace KeyRack.Sqlite

open Creation

/-- The key has been made with this version, under the journal's protection. -/
def Db.Made (db : Db) (lid : Lid) (number : Nat) : Prop :=
  ∃ row, db.keyRow lid = some row ∧ Migration.hasWrapped row.record = true ∧
    ∃ version ∈ row.record.keyVersions, version.versionNumber = number

/-- A wrapped history stays wrapped and loses no version number. -/
def HistoryKept (a b : KeyRow) : Prop :=
  Migration.hasWrapped a.record = true → Migration.hasWrapped b.record = true ∧
    ∀ version ∈ a.record.keyVersions, ∃ later ∈ b.record.keyVersions,
      later.versionNumber = version.versionNumber

theorem HistoryKept.of_keyVersions (same : b.keyVersions = a.keyVersions) :
    HistoryKept (.of a) (.of b) := by
  intro wrapped
  simp only [KeyRow.of_record, Migration.hasWrapped, same] at wrapped ⊢
  exact ⟨wrapped, fun version member => ⟨version, member, rfl⟩⟩

theorem hasWrapped_of_mem (member : version ∈ record.keyVersions)
    (wrapped : version.material = .parentWrapped material) :
    Migration.hasWrapped record = true := by
  rw [Migration.hasWrapped, List.any_eq_true]
  exact ⟨version, member, by simp [wrapped, KeyMaterial.wrapped?]⟩

section
variable [UuidText] [Blake3] [IntentEncoding]

/-! ### Published versions stay -/

variable {db : Db}

theorem KeyWrite.historyKept
    (write : KeyWrite db db' op (some old) new) : HistoryKept (.of old) (.of new) := by
  cases write with
  | update change =>
    -- a direct update may not touch a wrapped history
    intro wrapped
    exact HistoryKept.of_keyVersions (b := latched _) (change.versions wrapped) wrapped
  | publish _ bound _ accepted =>
    intro _
    obtain ⟨newest, _, wrapped, versions⟩ := accepted.versions bound.given
    refine ⟨hasWrapped_of_mem ((versions newest).mpr (.inl rfl)) wrapped, ?_⟩
    intro version member
    exact ⟨_, (versions _).mpr (.inr ⟨old, rfl, version, member, rfl⟩), rfl⟩
  | @migrate _ row _ _ _ _ _ valid =>
    intro _
    -- the proposal rewraps the versions one by one and keeps their numbers
    have kept : ∀ version ∈ row.2.journal.request.child.keyVersions,
        ∃ later ∈ row.2.journal.request.proposed.keyVersions,
          later.versionNumber = version.versionNumber := by
      intro version member
      have number := List.mem_map_of_mem (f := (·.versionNumber)) member
      rw [← valid.numbers] at number
      exact List.mem_map.mp number
    obtain ⟨version, member⟩ := List.exists_mem_of_ne_nil _ valid.nonempty
    obtain ⟨later, laterMember, _⟩ := kept version member
    obtain ⟨_, wrapped, _⟩ := valid.rewrapped later laterMember
    exact ⟨hasWrapped_of_mem laterMember wrapped, kept⟩
  | schedule | cancel | claim | complete => exact .of_keyVersions rfl

variable {event : Event}

theorem StorageStep.made (step : StorageStep db event db')
    (made : db.Made lid number) : db'.Made lid number := by
  obtain ⟨row, stored, wrapped, version, member, rfl⟩ := made
  have refl (row : KeyRow) : HistoryKept row row := fun wrapped =>
    ⟨wrapped, fun version member => ⟨version, member, rfl⟩⟩
  obtain ⟨row', stored', kept⟩ :=
    step.evolves refl (fun _ _ _ write => write.historyKept) lid row stored
  obtain ⟨wrapped', versions⟩ := kept wrapped
  obtain ⟨later, laterMember, number⟩ := versions version member
  exact ⟨row', stored', wrapped', later, laterMember, number⟩

/-! ### The three states after a dispatch -/

/-- The event recorded this closure in the journal of the operation. -/
def Resolves (operation : Uuid) (claim : A2ClosureClaim) (event : Event) : Prop :=
  ∃ owner revision closure journal, closure.claim = claim ∧
    event = (.resolveCreation operation owner revision closure, .ok (.creation journal))

/-- The dispatched entry is still there; a closure in it came from an event. -/
structure Open (db : Db) (events : List Event) (operation : Uuid) (request : CreationRequest)
    (row : CreationIndex × CreationRow) : Prop where
  stored : storedJournal db operation = some row
  bound : ∃ material, Bound row material
  intent : row.2.journal.request = request
  dispatched : row.2.journal.dispatchStarted = true
  pending : row.2.phase ≠ .committed
  closure : row.2.journal.phase = .resolved →
    ∃ claim, row.2.journal.closure = some claim ∧ ∃ event ∈ events, Resolves operation claim event

/-- The entry was withdrawn while it was resolved, with a closure that an earlier
    event had recorded. -/
def ClosedAndWithdrawn (start : Db) (events : List Event) (db : Db) (operation : Uuid)
    (request : CreationRequest) : Prop :=
  ∃ early late before after row claim,
    events = early ++ (.withdrawCreation operation, .ok .done) :: late ∧
    Run start early before ∧
    StorageStep before (.withdrawCreation operation, .ok .done) after ∧ Run after late db ∧
    storedJournal before operation = some row ∧ row.2.journal.request = request ∧
    row.2.journal.phase = .resolved ∧ row.2.journal.closure = some claim ∧
    ∃ event ∈ early, Resolves operation claim event

/-- A dispatch is granted to a bound row of an unmade version, and stored in it. -/
theorem Effect.started {journal : CreationJournal}
    (effect : Effect db (.claimCreationDispatch operation owner)
      (.ok (.dispatch (.started journal))) db') :
    ∃ row material current, storedJournal db operation = some row ∧
      Bound row material ∧ row.2.journal.dispatchStarted = false ∧
      journal.request = row.2.journal.request ∧
      key db row.2.journal.request.record.lid = .ok current ∧
      row.2.journal.request.Extends current ∧
      ∃ next, Open db' [] operation journal.request next := by
  cases effect with
  | repeated repeats => exact repeats.elim
  | advance stored bound unfinished step valid rows =>
    have written := (congrFun rows _).trans (Function.update_self ..)
    have rebound := step.bound bound valid
    cases step with
    | dispatch unclaimed child accepted =>
      refine ⟨_, _, _, stored, bound, unclaimed, rfl, child, accepted, _, written, ⟨_, rebound⟩,
        rfl, rfl, unfinished, ?_⟩
      -- only a reserved journal lacks the dispatch
      intro resolved
      have reached := bound.valid.present.2.1 (by
        intro reserved
        cases reserved.symm.trans resolved)
      rw [unclaimed] at reached
      cases reached

/-- The open row stays open, is published, or is withdrawn with its closure. -/
theorem Open.step (isOpen : Open db events operation request row)
    (run : Run start events db) (step : StorageStep db event db') :
    (∃ next, Open db' (events ++ [event]) operation request next) ∨
      db'.Made request.record.lid request.record.currentKeyVersion ∨
      ClosedAndWithdrawn start (events ++ [event]) db' operation request := by
  obtain ⟨op, result⟩ := event
  -- a step that leaves the row alone adds nothing but an event to the past
  have stays (stored : storedJournal db' operation = some row) :
      ∃ next, Open db' (events ++ [(op, result)]) operation request next := by
    refine ⟨row, stored, isOpen.bound, isOpen.intent, isOpen.dispatched, isOpen.pending, ?_⟩
    intro resolved
    obtain ⟨claim, closed, event, member, resolves⟩ := isOpen.closure resolved
    exact ⟨claim, closed, event, List.mem_append_left _ member, resolves⟩
  rcases step.effect.creationRow with ⟨_, same | ⟨written, _, new, write, read, rows⟩⟩ |
    ⟨child, retires⟩
  · exact .inl (stays (same ▸ isOpen.stored))
  · by_cases other : operation = written
    · subst other
      have stored' : storedJournal db' operation = new := by
        rw [rows, Function.update_self]
      rw [isOpen.stored] at read
      cases write with
      | reserve => cases read
      | advance bound _ step valid =>
        cases read
        have rebound := step.bound bound valid
        cases step with
        -- the dispatch is already claimed
        | dispatch unclaimed =>
          rw [isOpen.dispatched] at unclaimed
          cases unclaimed
        | stage =>
          refine .inl ⟨_, stored', ⟨_, rebound⟩, isOpen.intent, isOpen.dispatched, by simp,
            ?_⟩
          nofun
        | resolve =>
          refine .inl ⟨_, stored', ⟨_, rebound⟩, isOpen.intent, isOpen.dispatched, by simp,
            ?_⟩
          intro _
          exact ⟨_, rfl, _, List.mem_concat_self, _, _, _, _, rfl, rfl⟩
      | publish bound _ child =>
        cases read
        -- the published record holds the version, wrapped
        obtain ⟨version, primary, wrapped⟩ := CreationRequest.material_ok bound.given
        obtain ⟨member, number⟩ := CreationRequest.primaryVersion_number primary
        rw [← isOpen.intent]
        exact .inr (.inl ⟨_, child, hasWrapped_of_mem member wrapped, version, member, number⟩)
      | withdraw _ closed =>
        cases read
        -- an entry with a dispatch is withdrawable only once it is resolved
        rcases closed with ⟨_, unclaimed⟩ | resolved
        · rw [isOpen.dispatched] at unclaimed
          cases unclaimed
        · obtain ⟨claim, recorded, event, member, resolves⟩ := isOpen.closure resolved
          exact .inr (.inr ⟨events, [], db, db', _, claim, rfl, run, step, .nil _,
            isOpen.stored, isOpen.intent, resolved, recorded, event, member, resolves⟩)
    · exact .inl (stays (by rw [rows, Function.update_of_ne other, isOpen.stored]))
  · -- only committed rows are retired
    refine .inl (stays ?_)
    rw [retires.rows, isOpen.stored, Option.filter_some, if_pos]
    simp [retiresRow, isOpen.pending]

theorem ClosedAndWithdrawn.step (closed : ClosedAndWithdrawn start events db operation request)
    (step : StorageStep db event db') :
    ClosedAndWithdrawn start (events ++ [event]) db' operation request := by
  obtain ⟨early, late, before, after, row, claim, rfl, first, withdrawn, rest, facts⟩ := closed
  refine ⟨early, late ++ [event], before, after, row, claim, by simp, first, withdrawn, ?_, facts⟩
  exact rest.append (.cons step (.nil _))

/-- **One open dispatch**: if a dispatch was granted for a child version and later
    another one for the same child version, by any operation, then in between the
    first entry was withdrawn, and before that it had reached `Resolved` with a
    closure that a successful `resolve_creation` recorded. -/
theorem run_dispatch_closed (before start db next : Db) (events : List Event)
    (first second : Uuid) (firstOwner secondOwner : CreationOwner)
    (journal later : CreationJournal)
    (granted : StorageStep before (.claimCreationDispatch first firstOwner,
      .ok (.dispatch (.started journal))) start)
    (run : Run start events db)
    (again : StorageStep db (.claimCreationDispatch second secondOwner,
      .ok (.dispatch (.started later))) next)
    (child : later.request.record.lid = journal.request.record.lid)
    (version : later.request.record.currentKeyVersion = journal.request.record.currentKeyVersion) :
    ClosedAndWithdrawn start events db first journal.request := by
  obtain ⟨_, _, _, _, _, _, _, _, _, row, isOpen⟩ := granted.effect.started
  let state (past : List Event) (s : Db) : Prop :=
    (∃ row, Open s past first journal.request row) ∨
      s.Made journal.request.record.lid journal.request.record.currentKeyVersion ∨
      ClosedAndWithdrawn start past s first journal.request
  have begun : Run start [] start ∧ state [] start := ⟨.nil _, .inl ⟨row, isOpen⟩⟩
  -- the past is carried along, since the closure has to come from one of its events
  have reached : Run start events db ∧ state events db := by
    refine run.history (P := fun past s => Run start past s ∧ state past s) ?_ begun
    rintro _ s _ t step ⟨run, state⟩
    refine ⟨run.append (.cons step (.nil _)), ?_⟩
    rcases state with ⟨_, isOpen⟩ | made | closed
    · exact isOpen.step run step
    · exact .inr (.inl (step.made made))
    · exact .inr (.inr (closed.step step))
  obtain ⟨other, _, _, stored, bound, unclaimed, intent, read, accepted, _⟩ := again.effect.started
  rw [intent] at child version
  rcases reached.2 with ⟨row, isOpen⟩ | made | closed
  · -- the two rows share the child version, so they are one row, already dispatched
    obtain ⟨_, bound'⟩ := isOpen.bound
    have clash : row.1.Clash other.1 := by
      rw [bound'.index, bound.index, isOpen.intent]
      exact .inr (.inl ⟨child.symm, version.symm⟩)
    have same : row = other := Table.eq_of_clash
      (storedJournal_eq_some.mp isOpen.stored).1
      (storedJournal_eq_some.mp stored).1 clash clash.symm
    rw [← same, isOpen.dispatched] at unclaimed
    cases unclaimed
  · -- the version is in the history, and a new one has a larger number
    obtain ⟨_, present, _, made, member, number⟩ := made
    rw [child] at read
    cases accepted with
    | fresh =>
      rw [key_eq_none.mp read] at present
      cases present
    | next _ _ _ _ newer =>
      rw [(key_eq_some.mp read).1] at present
      cases present
      have smaller := newer made member
      rw [number, version] at smaller
      exact absurd smaller (Nat.lt_irrefl _)
  · exact closed

/-- **Version numbers are used once**: in every state that a run reaches, a wrapped key
    still has every version that it had, and a dispatch is granted only for a version
    above them all. -/
theorem run_versions_kept (start db : Db) (events : List Event) (run : Run start events db)
    (lid : Lid) (number : Nat) (made : start.Made lid number) :
    db.Made lid number ∧ ∀ operation owner journal next,
      StorageStep db (.claimCreationDispatch operation owner, .ok (.dispatch (.started journal)))
        next → journal.request.record.lid = lid →
      number < journal.request.record.currentKeyVersion := by
  have kept : db.Made lid number := by
    induction run with
    | nil => exact made
    | cons step _ ih => exact ih (step.made made)
  refine ⟨kept, ?_⟩
  rintro _ _ journal _ step rfl
  obtain ⟨_, _, _, _, _, _, intent, read, accepted, _⟩ := step.effect.started
  obtain ⟨_, present, _, version, member, rfl⟩ := kept
  rw [intent] at present ⊢
  cases accepted with
  | fresh =>
    rw [key_eq_none.mp read] at present
    cases present
  | next _ _ _ _ newer =>
    rw [(key_eq_some.mp read).1] at present
    cases present
    exact newer version member

end

open Sample

/-- Another operation for the same child version. -/
def secondRequest : CreationRequest :=
  sampleRequest ⟨4⟩ (wrappedRecord (sampleLid 2) (sampleLid 1) plainReference)

def reservedDb : Db :=
  (replay Db.empty [.createKey (residentRecord (sampleLid 1)), .reserveCreation creationRequest]).2

def dispatchedDb : Db := (Op.run (.claimCreationDispatch ⟨1⟩ sampleOwner) reservedDb).2

/-- The first entry is closed and withdrawn, then the version is reserved again. -/
def reopeningOps : List Op :=
  [.stageCreation ⟨1⟩ sampleOwner 1 [1, 2], .resolveCreation ⟨1⟩ sampleOwner 2 sampleClosure,
    .withdrawCreation ⟨1⟩, .reserveCreation secondRequest]

theorem run_dispatch_closed_reopened :
    ClosedAndWithdrawn dispatchedDb (replay dispatchedDb reopeningOps).1
      (replay dispatchedDb reopeningOps).2 ⟨1⟩ creationRequest :=
  have granted : StorageStep reservedDb (.claimCreationDispatch ⟨1⟩ sampleOwner,
      .ok (.dispatch (.started { reservedJournal with dispatchStarted := true }))) dispatchedDb :=
    storageStep_run (by decide +kernel)
  have again : StorageStep (replay dispatchedDb reopeningOps).2
      (.claimCreationDispatch ⟨4⟩ sampleOwner, .ok (.dispatch (.started
        { reservedJournalOf secondRequest with dispatchStarted := true })))
      (Op.run (.claimCreationDispatch ⟨4⟩ sampleOwner) (replay dispatchedDb reopeningOps).2).2 :=
    storageStep_run (by decide +kernel)
  run_dispatch_closed _ _ _ _ _ _ _ _ _ _ _ granted (run_replay _ _) again (by decide +kernel)
    (by decide +kernel)

def wrappedDb : Db :=
  (replay Db.empty [.createKey (wrappedRecord (sampleLid 2) (sampleLid 1) plainReference)]).2

theorem run_versions_kept_updated :
    (replay wrappedDb [.updateKey { residentRecord (sampleLid 2) with occVersion := 2 }]).2.Made
      (sampleLid 2) 1 :=
  (run_versions_kept wrappedDb _ _ (run_replay _ _) (sampleLid 2) 1
    ⟨_, rfl, rfl, _, .head _, rfl⟩).1

end KeyRack.Sqlite
