import KeyRack.Properties.EnvelopeBinding
import KeyRack.Service.Migration

/-!
# Concurrent runs of a migration

Every takeover raises the stored epoch, and the epoch never falls, so an ownership
that was superseded once is refused for good. A dispatch whose provider calls may
not be repeated is stored as such and refuses every later dispatch, so such a
provider is called by one execution. A result that a caller gets is the proposal
of a journal that is committed and stays so.
-/
namespace KeyRack.Sqlite

open Fallible Migration

/-! ### The journal of an operation -/

/-- The stored journal of a migration. -/
def Db.migration (db : Db) (operation : Uuid) : Option MigrationJournal :=
  (storedMigration db operation).map (·.2.journal)

/-- The stored epoch; an operation without journal is at epoch 0. -/
def Db.epoch (db : Db) (operation : Uuid) : Nat := ((db.migration operation).map (·.epoch)).getD 0

/-- Who drives the operation, if anyone does. -/
def Db.ownership (db : Db) (operation : Uuid) : Option MigrationOwnership :=
  (db.migration operation).bind fun journal => journal.owner.map (⟨·, journal.epoch⟩)

/-- A dispatch that may not be repeated is on record. -/
def Db.Unrepeatable (db : Db) (operation : Uuid) : Prop :=
  ∃ journal dispatch, db.migration operation = some journal ∧ journal.dispatch = some dispatch ∧
    dispatch.retrySafe = false

section
variable {db db' : Db} {operation : Uuid}
  {ownership : MigrationOwnership}

theorem migration_of_stored (stored : storedMigration db operation = some row) :
    db.migration operation = some row.2.journal := by
  rw [Db.migration, stored, Option.map_some]

theorem migration_of_written
    (rows : storedMigration db' = Function.update (storedMigration db) operation (some row)) :
    db'.migration operation = some row.2.journal := by
  rw [Db.migration, rows, Function.update_self, Option.map_some]

theorem Db.ownership_epoch (owned : db.ownership operation = some ownership) :
    ownership.epoch = db.epoch operation := by
  simp only [Db.ownership, Option.bind_eq_some_iff, Option.map_eq_some_iff] at owned
  obtain ⟨_, stored, _, _, rfl⟩ := owned
  simp [Db.epoch, stored]

/-- The epoch and the ownership are the same, or the epoch is higher. -/
def Db.Succeeds (operation : Uuid) (db db' : Db) : Prop :=
  db'.epoch operation = db.epoch operation ∧ db'.ownership operation = db.ownership operation ∨
    db.epoch operation < db'.epoch operation

theorem Db.Succeeds.trans (first : db.Succeeds operation db')
    (second : db'.Succeeds operation db'') : db.Succeeds operation db'' := by
  rcases first with ⟨epoch, ownership⟩ | raised
  · rwa [Db.Succeeds, ← epoch, ← ownership]
  · right
    rcases second with ⟨epoch, _⟩ | further
    · rwa [epoch]
    · exact Nat.lt_trans raised further

theorem Db.Succeeds.epoch_le (succeeds : db.Succeeds operation db') :
    db.epoch operation ≤ db'.epoch operation := by
  rcases succeeds with ⟨same, _⟩ | raised
  · exact Nat.le_of_eq same.symm
  · exact Nat.le_of_lt raised

theorem Db.Succeeds.raised (succeeds : db.Succeeds operation db')
    (changed : db'.ownership operation ≠ db.ownership operation) :
    db.epoch operation < db'.epoch operation := by
  rcases succeeds with ⟨_, same⟩ | raised
  · exact absurd same changed
  · exact raised

variable {journal : MigrationJournal}

theorem requireOwner_epoch (owned : journal.requireOwner ownership = .ok u) :
    ownership.epoch = journal.epoch := by
  simp only [MigrationJournal.requireOwner, refuseIf_eq_ok, not_or, not_not] at owned
  exact owned.2.2.1

variable [UuidText] [Blake3] [IntentEncoding] {op : Op} {result : Except KeyRackError Reply}

/-- What a step does to one journal. -/
theorem StorageStep.migration_cases (step : StorageStep db (op, result) db') (operation : Uuid) :
    db'.migration operation = db.migration operation ∨
      ∃ old new, MigrationWrite db op operation old new ∧
        db.migration operation = old.map (·.2.journal) ∧
        db'.migration operation = some new.2.journal := by
  rcases step.effect.migrationRow with same | ⟨written, old, new, write, read, rows⟩
  · exact .inl (by rw [Db.migration, same, Db.migration])
  · by_cases own : operation = written
    · subst own
      exact .inr ⟨old, new, write, by rw [Db.migration, read], migration_of_written rows⟩
    · exact .inl (by rw [Db.migration, rows, Function.update_of_ne own, Db.migration])

/-! ### Epochs -/

/-- A write keeps the epoch and the owner, or raises the epoch. -/
theorem MigrationWrite.epoch (write : MigrationWrite db op operation (some row) new) :
    new.2.journal.epoch = row.2.journal.epoch ∧ new.2.journal.owner = row.2.journal.owner ∨
      row.2.journal.epoch < new.2.journal.epoch := by
  cases write with
  | own owns =>
    cases owns with
    | claim claimed =>
      obtain ⟨_, rfl⟩ := claim_ok claimed
      exact .inr (Nat.lt_succ_self _)
    | dispatch began =>
      obtain ⟨_, _, rfl⟩ := beginDispatch_ok began
      exact .inl ⟨rfl, rfl⟩
  | stage _ _ same | commit _ _ same => exact .inl ⟨same.epoch, same.owner⟩

/-- Every change of the ownership raises the epoch, and nothing lowers it. -/
theorem StorageStep.epoch (step : StorageStep db (op, result) db') (operation : Uuid) :
    db.Succeeds operation db' := by
  rcases step.migration_cases operation with same | ⟨old, new, write, read, stored⟩
  · left
    simp only [Db.epoch, Db.ownership, same, and_self]
  · cases old with
    | none =>
      cases write with
      | reserve =>
        left
        constructor
        · simp [Db.epoch, stored, read, MigrationJournal.reserved]
        · simp [Db.ownership, stored, read, MigrationJournal.reserved]
    | some =>
      rcases write.epoch with ⟨epoch, owner⟩ | raised
      · left
        constructor
        · simp [Db.epoch, stored, read, epoch]
        · simp [Db.ownership, stored, read, epoch, owner]
      · right
        simpa [Db.epoch, stored, read] using raised

variable {event : Event} {reply : Reply}

/-- An acknowledged claim makes its caller the owner, under the next epoch. -/
theorem StorageStep.claimsMigration
    (step : StorageStep db (.claimMigration operation owner expectedEpoch, .ok reply) db') :
    db.epoch operation < db'.epoch operation ∧
      db'.ownership operation = some ⟨owner, db'.epoch operation⟩ := by
  cases step.effect with
  | repeated repeats => cases repeats
  | advance _ _ _ advanced => cases advanced
  | ownMigration owns stored _ _ _ rows =>
    cases owns with
    | claim claimed =>
      obtain ⟨_, rfl⟩ := claim_ok claimed
      have written : Db.migration { db with migrationJournal := _ } operation = some _ :=
        migration_of_written rows
      simp [Db.epoch, Db.ownership, migration_of_stored stored, written]

/-- A call that acts under an ownership. -/
inductive Op.Uses (operation : Uuid) (ownership : MigrationOwnership) : Op → Prop where
  | dispatch (retrySafe : Bool) :
      Uses operation ownership (.beginMigrationDispatch operation ownership retrySafe)
  | stage (envelopes : List Bytes) :
      Uses operation ownership (.stageMigration operation ownership envelopes)
  | commit : Uses operation ownership (.commitMigration operation ownership)

/-- Only the ownership of the stored epoch is accepted. -/
theorem StorageStep.superseded (step : StorageStep db (op, result) db')
    (uses : op.Uses operation ownership) (old : ownership.epoch < db.epoch operation) :
    (∃ e, result = .error e) ∧ db' = db := by
  have current {journal : MigrationJournal} (found : required db operation = .ok journal)
      (owned : journal.requireOwner ownership = .ok ()) : False := by
    obtain ⟨_, stored, rfl, _⟩ := required_eq_ok.mp found
    simp only [Db.epoch, migration_of_stored stored, requireOwner_epoch owned] at old
    exact Nat.lt_irrefl _ old
  cases uses with
  | dispatch =>
    obtain ⟨e, rfl, rfl⟩ | ⟨value, ran, rfl⟩ := transact_cases step
    · exact ⟨⟨e, rfl⟩, rfl⟩
    · simp only [migrationDispatch, MigrationJournal.beginDispatch, bind_eq_ok] at ran
      obtain ⟨_, found, _, ⟨_, owned, _⟩, _⟩ := ran
      exact (current found owned).elim
  | stage =>
    obtain ⟨e, rfl, rfl⟩ | ⟨value, ran, rfl⟩ := transact_cases step
    · exact ⟨⟨e, rfl⟩, rfl⟩
    · simp only [migrationStage, bind_eq_ok] at ran
      obtain ⟨_, found, _, owned, _⟩ := ran
      exact (current found owned).elim
  | commit =>
    obtain ⟨e, rfl, rfl⟩ | ⟨value, ran, rfl⟩ := transact_cases step
    · exact ⟨⟨e, rfl⟩, rfl⟩
    · simp only [migrationCommit, bind_eq_ok] at ran
      obtain ⟨_, found, _, owned, _⟩ := ran
      exact (current found owned).elim

/-! ### Dispatches and results -/

/-- A write that finds a journal may repeat its dispatch, or leaves it alone. -/
theorem MigrationWrite.dispatch_kept (write : MigrationWrite db op operation (some row) new)
    (stored : row.2.journal.dispatch = some dispatch)
    (single : dispatch.retrySafe = false) : new.2.journal.dispatch = some dispatch := by
  cases write with
  | own owns =>
    cases owns with
    | claim claimed =>
      obtain ⟨_, rfl⟩ := claim_ok claimed
      exact stored
    | dispatch began =>
      obtain ⟨_, repeatable, _⟩ := beginDispatch_ok began
      cases single.symm.trans (repeatable dispatch stored)
  | stage _ _ same | commit _ _ same => exact same.dispatch.trans stored

/-- No write finds a committed journal. -/
theorem MigrationWrite.uncommitted (write : MigrationWrite db op operation (some row) new) :
    row.2.journal.phase ≠ .committed := by
  cases write with
  | own _ _ owned => exact owned.uncommitted
  | stage _ reserved => simp [reserved]
  | commit _ staged => simp [staged]

theorem StorageStep.unrepeatable (step : StorageStep db event db')
    (spent : db.Unrepeatable operation) : db'.Unrepeatable operation := by
  obtain ⟨journal, dispatch, stored, dispatched, single⟩ := spent
  rcases step.migration_cases operation with same | ⟨old, new, write, read, written⟩
  · exact ⟨journal, dispatch, same.trans stored, dispatched, single⟩
  · obtain ⟨_, rfl, rfl⟩ := Option.map_eq_some_iff.mp (read.symm.trans stored)
    exact ⟨_, dispatch, written, write.dispatch_kept dispatched single, single⟩

/-- A dispatch that may not be repeated is granted once. -/
theorem StorageStep.grantsDispatch
    (step : StorageStep db (.beginMigrationDispatch operation ownership false, .ok reply) db') :
    ¬db.Unrepeatable operation ∧ db'.Unrepeatable operation := by
  cases step.effect with
  | repeated repeats => cases repeats
  | advance _ _ _ advanced => cases advanced
  | ownMigration owns stored _ _ _ rows =>
    cases owns with
    | dispatch began =>
      obtain ⟨_, repeatable, rfl⟩ := beginDispatch_ok began
      constructor
      · rintro ⟨_, dispatch, same, dispatched, single⟩
        cases (migration_of_stored stored).symm.trans same
        cases single.symm.trans (repeatable dispatch dispatched)
      · exact ⟨_, ⟨ownership.epoch, false⟩, migration_of_written rows, rfl, rfl⟩

/-- The migration is committed with this record. -/
def Db.MigratedTo (db : Db) (operation : Uuid) (record : KeyRecord) : Prop :=
  ∃ journal, db.migration operation = some journal ∧ journal.phase = .committed ∧
    journal.request.proposed = record

variable {record : KeyRecord}

theorem StorageStep.migratedTo (step : StorageStep db event db')
    (settled : db.MigratedTo operation record) : db'.MigratedTo operation record := by
  obtain ⟨journal, stored, committed, proposed⟩ := settled
  rcases step.migration_cases operation with same | ⟨_, _, write, read, _⟩
  · exact ⟨journal, same.trans stored, committed, proposed⟩
  · obtain ⟨_, rfl, rfl⟩ := Option.map_eq_some_iff.mp (read.symm.trans stored)
    exact absurd committed write.uncommitted

theorem StorageStep.commitReply
    (step : StorageStep db (.commitMigration operation ownership, .ok (.record record)) db') :
    db'.MigratedTo operation record := by
  obtain ⟨_, impossible, _⟩ | ⟨value, ran, told⟩ := transact_cases step
  · cases impossible
  · cases told
    obtain ⟨_, stored, _, _, proposed,
      ⟨committed, rfl⟩ | ⟨_, _, _, _, _, _, _, _, _, _, rows, _⟩⟩ := migrationCommit_ok ran
    · exact ⟨_, migration_of_stored stored, committed, proposed⟩
    · exact ⟨_, migration_of_written rows, rfl, proposed⟩

/-- A reservation that is answered with a committed journal found it. -/
theorem StorageStep.reserveReply (committed : journal.phase = .committed)
    (step : StorageStep db (.reserveMigration request, .ok (.migration journal)) db') :
    db'.MigratedTo request.operation journal.request.proposed := by
  obtain ⟨_, impossible, _⟩ | ⟨value, ran, told⟩ := transact_cases step
  · cases impossible
  · cases told
    simp only [migrationReserve, bind_eq_ok] at ran
    obtain ⟨_, _, existing, found, rest⟩ := ran
    cases existing with
    | some =>
      simp only [reserveExisting, eq_ok, Prod.mk.injEq] at rest
      obtain ⟨_, _, _, _, rfl, rfl⟩ := rest
      obtain ⟨_, stored, rfl, _⟩ := load_eq_some.mp found
      exact ⟨_, migration_of_stored stored, committed, rfl⟩
    | none =>
      simp only [reserveNew, eq_ok, Prod.mk.injEq] at rest
      obtain ⟨_, _, _, _, _, _, _, _, rfl, _⟩ := rest
      cases committed

end
end KeyRack.Sqlite

namespace KeyRack.Service

open Fallible Process Trace Sqlite

section

abbrev RewrapEvent : Type := Process.Event RewrapCall RewrapCall.Reply

/-! ### What a caller does with its replies -/

/-- The first call of an execution names its operation. -/
def Executes (operation : Uuid) (past : List RewrapEvent) : Prop :=
  ∃ reply rest, past = ⟨.getMigration operation, reply⟩ :: rest

/-- The call was granted a dispatch that may not be repeated. -/
def Dispatches (operation : Uuid) (event : RewrapEvent) : Prop :=
  ∃ ownership journal, event = ⟨.beginMigrationDispatch operation ownership false, .ok journal⟩

def Granted (past : List RewrapEvent) : Prop :=
  ∃ operation, Executes operation past ∧ ∃ event ∈ past, Dispatches operation event

/-- The reply shows that the operation is committed with this record. -/
inductive Shows (operation : Uuid) (record : KeyRecord) : RewrapEvent → Prop where
  | read (journal : MigrationJournal) (committed : journal.phase = .committed)
      (proposed : journal.request.proposed = record) :
      Shows operation record ⟨.getMigration operation, .ok (some journal)⟩
  | reserved (request : MigrationRequest) (journal : MigrationJournal)
      (own : request.operation = operation) (committed : journal.phase = .committed)
      (proposed : journal.request.proposed = record) :
      Shows operation record ⟨.reserveMigration request, .ok journal⟩
  | committed (ownership : MigrationOwnership) :
      Shows operation record ⟨.commitMigration operation ownership, .ok record⟩

/-- A provider that must not be called twice is called under a granted dispatch. -/
def Permitted (providers : Providers) (past : List RewrapEvent) : RewrapCall → Prop
  | .rewrapWrappedKey version _ =>
    providers.rewrapIsRetrySafe version.provider = false → Granted past
  | _ => True

/-- A record is returned for the operation that was executed, and some reply showed it. -/
def RewrapReturns (past : List RewrapEvent) (result : Except DomainError KeyRecord) : Prop :=
  ∀ record, result = .ok record →
    ∃ operation, Executes operation past ∧ ∃ event ∈ past, Shows operation record event

variable {providers : Providers} {operation : Uuid}
  {past later : List RewrapEvent} {request : MigrationRequest} {α β : Type}

section
variable (executes : Executes operation past)
include executes

theorem Executes.mono (grows : past <+: later) : Executes operation later := by
  obtain ⟨reply, rest, rfl⟩ := executes
  obtain ⟨more, rfl⟩ := grows
  exact ⟨reply, rest ++ more, rfl⟩

theorem Executes.append (event : RewrapEvent) : Executes operation (past ++ [event]) :=
  executes.mono (List.prefix_append past [event])

theorem Executes.unique (again : Executes other past) : operation = other := by
  obtain ⟨_, _, rfl⟩ := executes
  obtain ⟨_, _, same⟩ := again
  cases same
  rfl

end

theorem Granted.mono (granted : Granted past) (grows : past <+: later) : Granted later := by
  obtain ⟨operation, executes, event, member, dispatches⟩ := granted
  exact ⟨operation, executes.mono grows, event, grows.subset member, dispatches⟩

variable {c : RewrapCall}

theorem Permitted.mono (permitted : Permitted providers before c) (grows : before <+: after) :
    Permitted providers after c := by
  cases c with
  | rewrapWrappedKey => exact fun single => (permitted single).mono grows
  | _ => trivial

theorem returns_error : RewrapReturns past (.error e) := by
  intro _ impossible
  cases impossible

theorem returns_shown (executes : Executes operation past) (shows : Shows operation record event) :
    RewrapReturns (past ++ [event]) (.ok record) := by
  intro _ same
  cases same
  exact ⟨operation, executes.append event, event,
    List.mem_append_right _ (List.mem_singleton_self event), shows⟩

/-! ### Parts of the program -/

section
variable
  {ensures : List RewrapEvent → Except DomainError α → Prop}

theorem obeys_call {ensures : List RewrapEvent → Except DomainError c.Value → Prop}
    (permitted : allowed past c)
    (rest : ∀ reply, ensures (past ++ [⟨c, reply⟩]) (mapErr reply .core)) :
    Obeys allowed ensures past (Rewrap.call c).run := by
  refine obeys_observe_then permitted fun reply => ?_
  cases reply with
  | error e => exact rest (.error e)
  | ok value => exact rest (.ok value)

theorem obeys_call_then {f : c.Value → Rewrap α} (permitted : allowed past c)
    (failed : ∀ e, ensures (past ++ [⟨c, .error e⟩]) (.error (.core e)))
    (rest : ∀ value, Obeys allowed ensures (past ++ [⟨c, .ok value⟩]) (f value).run) :
    Obeys allowed ensures past (Rewrap.call c >>= f).run := by
  refine obeys_try.mpr (obeys_call permitted fun reply => ?_)
  cases reply with
  | error e => exact failed e
  | ok value => exact rest value

/-- A part of which only the growth of the history matters. -/
theorem obeys_part_then {x : Rewrap β} (part : Obeys allowed (fun _ _ => True) past x.run)
    (failed : ∀ later e, ensures later (.error e))
    (rest : ∀ later b, past <+: later → Obeys allowed ensures later (f b).run) :
    Obeys allowed ensures past (x >>= f).run := by
  refine obeys_try.mpr (part.extends.mono ?_)
  rintro later result ⟨grows, _⟩
  cases result with
  | error e => exact failed later e
  | ok b => exact rest later b grows

end

theorem rewrapVersions_obeys
    (granted : ∀ version ∈ versions, providers.rewrapIsRetrySafe version.2.provider = false →
      Granted past) :
    Obeys (Permitted providers) (fun _ _ => True) past (rewrapVersions versions).run := by
  induction versions generalizing past with
  | nil => trivial
  | cons version _ ih =>
    refine obeys_call_then (granted version List.mem_cons_self) (fun _ => trivial) fun _ => ?_
    refine obeys_part_then (ih fun other member single => ?_) (fun _ _ => trivial)
      fun _ _ _ => trivial
    exact (granted other (List.mem_cons_of_mem _ member) single).mono (List.prefix_append past _)

theorem takeOver_obeys {epoch : Nat} :
    Obeys (Permitted providers) (fun _ _ => True) past (takeOver operation epoch).run :=
  obeys_call_then trivial (fun _ => trivial) fun _ => obeys_call trivial fun _ => trivial

theorem commit_returns (executes : Executes request.operation past) :
    Obeys (Permitted providers) RewrapReturns past
      (Rewrap.call (.commitMigration request.operation ownership)).run := by
  refine obeys_call trivial fun reply => ?_
  cases reply with
  | error => exact returns_error
  | ok => exact returns_shown executes (.committed ownership)

theorem afterFailure_returns (executes : Executes request.operation past) :
    Obeys (Permitted providers) RewrapReturns past (afterFailure request e).run := by
  refine obeys_observe_then trivial fun _ => ?_
  split
  next journal =>
    split
    next =>
      split
      next committed => exact returns_shown executes (.read journal committed rfl)
      next =>
        split
        next => exact returns_error
        next => exact returns_error
    next => exact returns_error
  next => exact returns_error

section
variable [UuidText]

theorem readEnvelope_obeys {reference : String} :
    Obeys (Permitted providers) (fun _ _ => True) past (readEnvelope reference).run := by
  unfold readEnvelope
  split
  next => exact obeys_call trivial fun _ => trivial
  next =>
    split
    next operation version _ =>
      cases UuidText.parse (String.ofList operation) with
      | none => trivial
      | some =>
        cases Text.parseDecimal u64Max version with
        | none => trivial
        | some => exact obeys_call trivial fun _ => trivial
    next => trivial

theorem readEnvelopes_obeys :
    Obeys (Permitted providers) (fun _ _ => True) past (readEnvelopes versions).run := by
  induction versions generalizing past with
  | nil => trivial
  | cons _ _ ih =>
    refine obeys_check_then (fun _ _ => trivial) fun _ _ => ?_
    refine obeys_part_then readEnvelope_obeys (fun _ _ => trivial) fun _ _ _ => ?_
    exact obeys_part_then ih (fun _ _ => trivial) fun _ _ _ => trivial

section
variable (executes : Executes request.operation past)
include executes

/-- The one place where a provider rewraps. -/
theorem dispatchRewrap_obeys :
    Obeys (Permitted providers) (fun _ _ => True) past
      (dispatchRewrap providers request prepared ownership).run := by
  refine obeys_part_then readEnvelopes_obeys (fun _ _ => trivial) fun _ _ grows => ?_
  refine obeys_call_then trivial (fun _ => trivial) fun journal => ?_
  refine obeys_part_then (rewrapVersions_obeys ?_) (fun _ _ => trivial) fun _ _ _ => ?_
  · intro version member single
    -- one version that may not be repeated makes the whole dispatch so
    have unsafeDispatch :
        (prepared.all fun version => providers.rewrapIsRetrySafe version.provider) = false :=
      List.all_eq_false.mpr ⟨version.2, (List.of_mem_zip member).2, by simp [single]⟩
    refine ⟨request.operation, (executes.mono grows).append _, _,
      List.mem_concat_self, ownership, journal, ?_⟩
    rw [unsafeDispatch]
  · exact obeys_call_then trivial (fun _ => trivial) fun _ => trivial

theorem executeMigration_returns :
    Obeys (Permitted providers) RewrapReturns past
      (executeMigration providers state request).run := by
  refine obeys_check_then (fun _ _ => returns_error) fun _ _ => ?_
  refine obeys_call_then trivial (fun _ => returns_error) fun journal => ?_
  split
  next committed => exact returns_shown executes (.reserved request journal rfl committed rfl)
  next =>
    have reserved := executes.append ⟨.reserveMigration request, .ok journal⟩
    refine obeys_part_then takeOver_obeys (fun _ _ => returns_error) fun _ _ grows => ?_
    refine obeys_check_then (fun _ _ => returns_error) fun _ _ => ?_
    split
    next =>
      refine obeys_part_then (dispatchRewrap_obeys (reserved.mono grows))
        (fun _ _ => returns_error) fun _ _ dispatched => ?_
      exact commit_returns ((reserved.mono grows).mono dispatched)
    next => exact commit_returns (reserved.mono grows)

theorem runMigration_returns :
    Obeys (Permitted providers) RewrapReturns past (runMigration providers state request).run := by
  refine obeys_check_then (fun _ _ => returns_error) fun _ _ => ?_
  refine obeys_call_then trivial (fun _ => returns_error) fun found => ?_
  have looked := executes.append ⟨.getMigration request.operation, .ok found⟩
  cases found with
  | none => exact executeMigration_returns looked
  | some journal =>
    refine obeys_check_then (fun _ _ => returns_error) fun _ _ => ?_
    refine obeys_check_then (fun _ _ => returns_error) fun _ _ => ?_
    split
    next committed => exact returns_shown executes (.read journal committed rfl)
    next =>
      refine obeys_part_then takeOver_obeys (fun _ _ => returns_error) fun _ _ grows => ?_
      refine obeys_check_then (fun _ _ => returns_error) fun _ _ => ?_
      exact commit_returns (looked.mono grows)
    next => exact executeMigration_returns looked

end

theorem rewrapKey_returns :
    Obeys (Permitted providers) RewrapReturns [] (rewrapKey providers state request).run := by
  refine obeys_call_then trivial (fun _ => returns_error) fun found => ?_
  have executes : Executes (retimed request found).operation
      ([] ++ [⟨.getMigration request.operation, .ok found⟩]) := by
    cases found with
    | none | some journal => exact ⟨_, _, rfl⟩
  refine obeys_lift_then ((runMigration_returns executes).extends.mono ?_)
  rintro later result ⟨grows, returns⟩
  cases result with
  | ok => exact returns
  | error => exact afterFailure_returns (executes.mono grows)

end
end
section
variable [UuidText] [Blake3] [IntentEncoding] {ι : Type} [DecidableEq ι]

abbrev RewrapLabel (ι : Type) : Type := Label ι RewrapCall RewrapCall.Reply Sqlite.Event

abbrev RewrapSystem (ι : Type) : Type :=
  System Db ι RewrapCall RewrapCall.Reply (Except DomainError KeyRecord)

variable {providers : Providers} {s t : RewrapSystem ι} {label : RewrapLabel ι}
  {past : List (RewrapLabel ι)} {operation : Uuid}

/-! ### The steps of the system -/

/-- A step leaves the tables alone or runs one storage operation. -/
theorem rewrapStep_storage (step : Step (rewrapRules ι providers) s label t) :
    t.world = s.world ∨ ∃ op outcome, StorageStep s.world (op, outcome) t.world := by
  cases step with
  | start => exact .inl rfl
  | drop _ _ _ _ _ left => exact .inl left
  | environment event _ changed => exact .inr ⟨event.1, event.2, changed⟩
  | call _ _ _ _ _ _ answered =>
    cases answered with
    | storage _ op _ _ _ _ attempt =>
      rcases attempt.cases with ⟨same, _⟩ | ⟨outcome, step, _⟩
      · exact .inl same
      · exact .inr ⟨op, outcome, step⟩
    | read | provider | owner => exact .inl rfl

/-- A value that a storage call returns is that of its operation. -/
theorem rewrapStep_replied (stores : c.Stores op form)
    (step : Step (rewrapRules ι providers) s (.called i ⟨c, .ok value⟩) t) :
    StorageStep s.world (op, .ok (form value)) t.world := by
  cases step with
  | call _ _ _ _ _ _ answered =>
    cases answered with
    | storage _ op' form' _ _ again attempt =>
      have same : op' = op ∧ form' = form := by
        cases stores <;> cases again <;> exact ⟨rfl, rfl⟩
      obtain ⟨rfl, rfl⟩ := same
      rcases attempt.cases with ⟨_, e, impossible⟩ | ⟨outcome, step, told⟩
      · cases impossible
      · rw [told value rfl] at step
        exact step
    | read _ _ _ reads =>
      cases reads <;> cases stores
    | provider | owner => cases stores

/-- A journal that was read is the stored one. -/
theorem rewrapStep_read (step : Step (rewrapRules ι providers) s
      (.called i ⟨.getMigration operation, .ok (some journal)⟩) t) :
    t.world.migration operation = some journal := by
  cases step with
  | call _ _ _ _ _ _ answered =>
    cases answered with
    | storage _ _ _ _ _ stores => cases stores
    | read _ _ _ reads attempt =>
      cases reads
      rcases attempt with found | ⟨_, impossible⟩
      · obtain ⟨_, stored, rfl, _⟩ := Migration.load_eq_some.mp found.symm
        exact migration_of_stored stored
      · cases impossible

/-- What one storage operation keeps, a step keeps. -/
theorem rewrapStep_keeps {P : Db → Prop}
    (keeps : ∀ db db' event, StorageStep db event db' → P db → P db')
    (step : Step (rewrapRules ι providers) s label t) (holds : P s.world) : P t.world := by
  rcases rewrapStep_storage step with same | ⟨op, outcome, stored⟩
  · rw [same]
    exact holds
  · exact keeps _ _ _ stored holds

/-- A step keeps the ownership or raises the epoch. -/
theorem rewrapStep_epoch (step : Step (rewrapRules ι providers) s label t) (operation : Uuid) :
    s.world.Succeeds operation t.world := by
  rcases rewrapStep_storage step with same | ⟨op, outcome, stored⟩
  · rw [same]
    exact .inl ⟨rfl, rfl⟩
  · exact stored.epoch operation

theorem rewrapSteps_epoch
    (steps : Steps (Step (rewrapRules ι providers)) s more t) (operation : Uuid) :
    s.world.Succeeds operation t.world := by
  induction steps with
  | nil => exact .inl ⟨rfl, rfl⟩
  | cons first _ ih => exact (rewrapStep_epoch first operation).trans ih

/-! ### One dispatch -/

/-- Dispatches that may not be repeated are on record and went to one execution,
    such providers were called under one, and what replies showed is stored. -/
structure Fenced (providers : Providers) (past : List (RewrapLabel ι)) (s : RewrapSystem ι) :
    Prop where
  spent : ∀ i event operation, .called i event ∈ past → Dispatches operation event →
    s.world.Unrepeatable operation
  holder : ∀ i j a b operation, .called i a ∈ past → .called j b ∈ past →
    Dispatches operation a → Dispatches operation b → i = j
  justified : ∀ i event, .called i event ∈ past → Permitted providers (own i past) event.1
  shown : ∀ i event operation record, .called i event ∈ past → Shows operation record event →
    s.world.MigratedTo operation record

variable {event : RewrapEvent}

theorem rewrapStep_dispatches (step : Step (rewrapRules ι providers) s (.called i event) t)
    (dispatches : Dispatches operation event) :
    ¬s.world.Unrepeatable operation ∧ t.world.Unrepeatable operation := by
  obtain ⟨ownership, _, rfl⟩ := dispatches
  exact (rewrapStep_replied (.dispatch operation ownership false) step).grantsDispatch

theorem rewrapStep_shows (step : Step (rewrapRules ι providers) s (.called i event) t)
    (shows : Shows operation record event) : t.world.MigratedTo operation record := by
  cases shows with
  | read journal committed proposed => exact ⟨journal, rewrapStep_read step, committed, proposed⟩
  | reserved request _ own committed proposed =>
    rw [← own, ← proposed]
    exact (rewrapStep_replied (.reserve request) step).reserveReply committed
  | committed ownership =>
    exact (rewrapStep_replied (.commit operation ownership) step).commitReply

theorem Fenced.step (step : Step (rewrapRules ι providers) s label t)
    (allowed : label.Allowed (Permitted providers) past) (fenced : Fenced providers past s) :
    Fenced providers (past ++ [label]) t := by
  constructor
  · intro i event operation member dispatches
    rcases mem_concat.mp member with before | now
    · exact rewrapStep_keeps (fun _ _ _ stored => stored.unrepeatable) step
        (fenced.spent i event operation before dispatches)
    · cases now
      exact (rewrapStep_dispatches step dispatches).2
  · intro i j a b operation memberA memberB dispatchesA dispatchesB
    -- a new grant finds no such dispatch on record, so there was none before
    rcases mem_concat.mp memberA with beforeA | nowA <;>
      rcases mem_concat.mp memberB with beforeB | nowB
    · exact fenced.holder i j a b operation beforeA beforeB dispatchesA dispatchesB
    · cases nowB
      exact absurd (fenced.spent i a operation beforeA dispatchesA)
        (rewrapStep_dispatches step dispatchesB).1
    · cases nowA
      exact absurd (fenced.spent j b operation beforeB dispatchesB)
        (rewrapStep_dispatches step dispatchesA).1
    · cases nowA
      cases nowB
      rfl
  · intro i event member
    have grows : own i past <+: own i (past ++ [label]) := by
      rw [own_append]
      exact List.prefix_append _ _
    rcases mem_concat.mp member with before | now
    · exact (fenced.justified i event before).mono grows
    · cases now
      exact Permitted.mono allowed grows
  · intro i event operation record member shows
    rcases mem_concat.mp member with before | now
    · exact rewrapStep_keeps (fun _ _ _ stored => stored.migratedTo) step
        (fenced.shown i event operation record before shows)
    · cases now
      exact rewrapStep_shows step shows

/-- The participant has asked this provider for a rewrap: the call was answered, or
    is still waited for. -/
def RewrapStarted (provider : Nat) (labels : List (RewrapLabel ι)) (s : RewrapSystem ι) (i : ι) :
    Prop :=
  (∃ version envelope reply, version.provider = provider ∧
    (⟨.rewrapWrappedKey version envelope, reply⟩ : RewrapEvent) ∈ own i labels) ∨
  ∃ version envelope next, version.provider = provider ∧
    s.threads i = .live (.call (.rewrapWrappedKey version envelope) next)

theorem RewrapStarted.granted (following : Following (Permitted providers) RewrapReturns labels s)
    (fenced : Fenced providers labels s) (started : RewrapStarted provider labels s i)
    (single : providers.rewrapIsRetrySafe provider = false) : Granted (own i labels) := by
  rcases started with ⟨version, envelope, _, rfl, answered⟩ |
    ⟨version, envelope, next, rfl, waits⟩
  · exact fenced.justified i _ (mem_own.mp answered) single
  · exact (following.live i _ waits).1 single

/-- **Rewrap runs**: whatever the interleaving of any number of callers of any
    operations, and wherever their storage and provider calls fail,

    - a step that changes the ownership raises the stored epoch, as every
      acknowledged claim does, and no step lowers it;
    - an ownership that was superseded is refused by every later dispatch, staging
      and commit, which change nothing;
    - a provider whose rewrap may not be repeated is asked for it by at most one
      execution of an operation, at whatever times;
    - a caller that returns a record returns the proposal of the stored journal of
      its operation, which is committed. -/
theorem rewrap_runs (providers : Providers) (db : Db) (labels : List (RewrapLabel ι))
    (s : RewrapSystem ι)
    (steps : Steps (Step (rewrapRules ι providers)) ⟨db, fun _ => .idle⟩ labels s) :
    (∀ label t operation, Step (rewrapRules ι providers) s label t →
      s.world.epoch operation ≤ t.world.epoch operation ∧
      (t.world.ownership operation ≠ s.world.ownership operation →
        s.world.epoch operation < t.world.epoch operation) ∧
      ∀ i owner expectedEpoch journal,
        label = .called i ⟨.claimMigration operation owner expectedEpoch, .ok journal⟩ →
        s.world.epoch operation < t.world.epoch operation ∧
          t.world.ownership operation = some ⟨owner, t.world.epoch operation⟩) ∧
    (∀ more t later u operation ownership,
      Steps (Step (rewrapRules ι providers)) s more t →
      Steps (Step (rewrapRules ι providers)) t later u →
      s.world.ownership operation = some ownership →
      t.world.ownership operation ≠ some ownership →
      ∀ op result db', op.Uses operation ownership → StorageStep u.world (op, result) db' →
        (∃ e, result = .error e) ∧ db' = u.world) ∧
    (∀ more t operation provider i j, Steps (Step (rewrapRules ι providers)) s more t →
      providers.rewrapIsRetrySafe provider = false →
      Executes operation (own i labels) → Executes operation (own j (labels ++ more)) →
      RewrapStarted provider labels s i → RewrapStarted provider (labels ++ more) t j → i = j) ∧
    ∀ i record, s.threads i = .live (.done (.ok record)) →
      ∃ operation journal, Executes operation (own i labels) ∧
        s.world.migration operation = some journal ∧ journal.phase = .committed ∧
        journal.request.proposed = record := by
  have every (p : Prog RewrapCall RewrapCall.Reply (Except DomainError KeyRecord))
      (starts : (rewrapRules ι providers).starts p) :
      Obeys (Permitted providers) RewrapReturns [] p := by
    obtain ⟨_, _, rfl⟩ := starts
    exact rewrapKey_returns
  have reached {labels : List (RewrapLabel ι)} {s : RewrapSystem ι}
      (steps : Steps (Step (rewrapRules ι providers)) ⟨db, fun _ => .idle⟩ labels s) :
      Following (Permitted providers) RewrapReturns labels s ∧ Fenced providers labels s :=
    steps_guided every (fun _ s _ t step allowed _ fenced => fenced.step step allowed) steps
      (fun _ => rfl) (by constructor <;> simp)
  obtain ⟨following, fenced⟩ := reached steps
  refine ⟨?_, ?_, ?_, ?_⟩
  · intro _ t operation step
    have succeeds := rewrapStep_epoch step operation
    refine ⟨succeeds.epoch_le, succeeds.raised, ?_⟩
    rintro i owner expectedEpoch journal rfl
    exact (rewrapStep_replied (.claim operation owner expectedEpoch) step).claimsMigration
  · intro more t _ u operation _ taken further owned superseded _ _ _ uses step
    have raised := (rewrapSteps_epoch taken operation).raised (owned ▸ superseded)
    have kept := (rewrapSteps_epoch further operation).epoch_le
    refine step.superseded uses ?_
    rw [Db.ownership_epoch owned]
    exact Nat.lt_of_lt_of_le raised kept
  · intro _ t operation _ i j taken single executesI executesJ startedI startedJ
    obtain ⟨followingT, fencedT⟩ := reached (steps.append taken)
    obtain ⟨_, executes, a, memberA, dispatchesA⟩ := startedI.granted following fenced single
    cases executesI.unique executes
    obtain ⟨_, executes', b, memberB, dispatchesB⟩ := startedJ.granted followingT fencedT single
    cases executesJ.unique executes'
    exact fencedT.holder i j a b operation (List.mem_append_left _ (mem_own.mp memberA))
      (mem_own.mp memberB) dispatchesA dispatchesB
  · intro i record finished
    obtain ⟨operation, executes, event, member, shows⟩ := following.live i _ finished record rfl
    obtain ⟨journal, stored, committed, proposed⟩ :=
      fenced.shown i event operation record (mem_own.mp member) shows
    exact ⟨operation, journal, executes, stored, committed, proposed⟩

end

open Sample

/-- Key 2 is rewrapped under the same version of its parent. -/
def rewrapRequest : MigrationRequest where
  operation := ⟨9⟩
  requestedParent := none
  conditions := ⟨none, none, none, none, none⟩
  child := creationRequest.record
  oldParent := residentRecord (sampleLid 1)
  newParent := residentRecord (sampleLid 1)
  proposed :=
    { wrappedRecord (sampleLid 2) (sampleLid 1)
        ⟨"migration:00000000-0000-0000-0000-000000000009:1", by decide⟩ with occVersion := 2 }

def singleProviders : Providers where
  wrappingCapabilities _ :=
    ⟨[⟨.aes256, .aes256, .rawSecret, .encryptDecrypt, sampleMechanism, .v1, .rewrap,
      .sessionObject⟩], by decide⟩
  rewrapIsRetrySafe _ := false

def sampleState : ServiceState where
  wrapping _ := some ⟨sampleDomain, sampleMechanism⟩
  resolve _ := .ok ⟨0, .software⟩

def rewrapAnswer (db : Db) : (c : RewrapCall) → c.Reply × Db
  | .getMigration operation => (Migration.load db operation, db)
  | .reserveMigration request => settle (Migration.migrationReserve request) db
  | .claimMigration operation owner epoch =>
    settle (Migration.migrationClaim operation owner epoch) db
  | .beginMigrationDispatch operation ownership retrySafe =>
    settle (Migration.migrationDispatch operation ownership retrySafe) db
  | .stageMigration operation ownership envelopes =>
    settle (Migration.migrationStage operation ownership envelopes) db
  | .commitMigration operation ownership =>
    settle (Migration.migrationCommit operation ownership) db
  | .readCreationEnvelope operation => (Creation.committedEnvelope db operation, db)
  | .readMigrationEnvelope operation version => (Migration.migrationRead db operation version, db)
  | .rewrapWrappedKey _ _ => (.ok [3, 4], db)
  | .newV4 => (.ok ⟨8⟩, db)

theorem rewrapAnswer_answers (db : Db) (c : RewrapCall) :
    c.Answers db (rewrapAnswer db c).1 (rewrapAnswer db c).2 := by
  cases c with
  | getMigration | readCreationEnvelope | readMigrationEnvelope =>
    exact .read _ _ _ (by constructor) (.inl rfl)
  | reserveMigration | claimMigration | beginMigrationDispatch | stageMigration | commitMigration =>
    exact .storage _ _ _ _ _ (by constructor) (.settle rfl db)
  | rewrapWrappedKey version envelope => exact .provider version envelope _
  | newV4 => exact .owner _

/-- Key 2 was published under key 1. -/
def childDb : Db :=
  { Db.empty with
    keys := ⟨[(sampleLid 1, ⟨residentRecord (sampleLid 1), 1⟩),
      (sampleLid 2, ⟨creationRequest.record, 1⟩)], by decide +kernel⟩
    creationJournal :=
      ⟨[(Creation.creationIndex creationRequest (sampleMaterial (sampleLid 1) sampleReference),
        ⟨.committed, publishedJournal ⟨creationRequest, true, 3, .resolved,
          some (Blake3.hash [1, 2]), some sampleClosure.claim, none⟩, some [1, 2]⟩)],
        List.pairwise_singleton _ _⟩ }

/-- One caller, run to its end. -/
abbrev rewrappedKey : List RewrapEvent × Db ×
    Prog RewrapCall RewrapCall.Reply (Except DomainError KeyRecord) :=
  solo rewrapAnswer 10 childDb (rewrapKey singleProviders sampleState rewrapRequest).run

def rewrappedLabels : List (RewrapLabel Unit) :=
  .started () :: rewrappedKey.1.map fun event => .called () event

/-- Where its run ends. -/
def rewrappedSystem : RewrapSystem Unit where
  world := rewrappedKey.2.1
  threads := Function.update (fun _ => .idle) () (.live (.done (.ok rewrapRequest.proposed)))

theorem rewrappedSystem_reached :
    Steps (Step (rewrapRules Unit singleProviders)) ⟨childDb, fun _ => .idle⟩ rewrappedLabels
      rewrappedSystem := by
  have returned : rewrappedKey.2.2.result? = some (.ok rewrapRequest.proposed) := by
    decide +kernel
  have answers : ∀ db c, (rewrapRules Unit singleProviders).answers db () c (rewrapAnswer db c).1
      (rewrapAnswer db c).2 := rewrapAnswer_answers
  have alone := steps_solo answers 10 (rewrapKey singleProviders sampleState rewrapRequest).run
    (fun _ => .idle) childDb
  rw [Prog.result?_eq_some.mp returned] at alone
  exact .cons (step_started rfl ⟨sampleState, rewrapRequest, rfl⟩) alone

/-- The caller has returned, and the journal of its operation is committed. -/
theorem rewrap_runs_returned :
    ∃ operation journal, Executes operation (own () rewrappedLabels) ∧
      rewrappedSystem.world.migration operation = some journal ∧ journal.phase = .committed ∧
      journal.request.proposed = rewrapRequest.proposed :=
  (rewrap_runs singleProviders childDb rewrappedLabels _ rewrappedSystem_reached).2.2.2 ()
    rewrapRequest.proposed rfl

end KeyRack.Service
