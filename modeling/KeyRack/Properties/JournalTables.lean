import KeyRack.Lib.Exclusion
import KeyRack.Properties.StorageSteps

/-!
# The journal tables

What one step does to the rows of the creation, migration and destruction
journals. Two invariants follow for every run from an empty database: the columns
of a row repeat its journal, and a key that takes part in one protocol is left
alone by the others.
-/
namespace KeyRack.Sqlite

open Fallible Exclusion Creation Migration Destruction Table

variable {db : Db}

/-- The rows that leave with a child's old material. -/
def retiresRow (child : Lid) (row : CreationIndex × CreationRow) : Bool :=
  row.1.childLid == child && row.2.phase == .committed

theorem exists_committedCreations :
    (∃ entry ∈ committedCreations db child, entry.1 = operation) ↔
      ∃ row, storedJournal db operation = some row ∧ retiresRow child row = true := by
  simp only [committedCreations, List.mem_map, List.mem_filter, storedJournal_eq_some, ← mem_rows]
  constructor
  · rintro ⟨_, ⟨row, ⟨member, retires⟩, rfl⟩, same⟩
    exact ⟨row, ⟨member, same⟩, retires⟩
  · rintro ⟨row, ⟨member, same⟩, retires⟩
    exact ⟨_, ⟨row, ⟨member, retires⟩, rfl⟩, same⟩

section
variable [UuidText] [Blake3] [IntentEncoding]

/-! ### The writes of each table -/

/-- A write of the creation journal: the operation and its result, the row that
    was read and what stands in its place. -/
inductive CreationWrite (db db' : Db) : Op → Except KeyRackError Reply → Uuid →
    Option (CreationIndex × CreationRow) → Option (CreationIndex × CreationRow) → Prop where
  | reserve {request : CreationRequest} (validated : request.validate = .ok ())
      (valid : request.Valid material)
      (unretired : db.retiredCreationJournal.get? request.operation = none)
      (free : ∀ lid, (creationIndex request material).names lid = true →
        ¬db.Migrating lid ∧ ¬db.Fenced lid) :
      CreationWrite db db' (.reserveCreation request)
        (.ok (.creation (reservedJournalOf request))) request.operation none
        (some (creationIndex request material, ⟨.reserved, reservedJournalOf request, none⟩))
  | advance {row : CreationIndex × CreationRow} {next : CreationRow} (bound : Bound row material)
      (unfinished : row.2.phase ≠ .committed) (step : Advance db operation row.2 op result next)
      (valid : next.journal.Valid) :
      CreationWrite db db' op result operation (some row) (some (row.1, next))
  | publish {row : CreationIndex × CreationRow} (bound : Bound row material)
      (resolved : row.2.journal.phase = .resolved)
      (child : db'.keyRow row.2.journal.request.record.lid =
        some (.of row.2.journal.request.record))
      (valid : (publishedJournal row.2.journal).Valid) :
      CreationWrite db db' (.publishCreation operation owner revision)
        (.ok (.record row.2.journal.request.record)) operation (some row)
        (some (row.1, publishedRow row.2))
  | withdraw {row : CreationIndex × CreationRow} (bound : Bound row material)
      (closed : row.2.journal.phase = .reserved ∧ row.2.journal.dispatchStarted = false ∨
        row.2.journal.phase = .resolved) :
      CreationWrite db db' (.withdrawCreation operation) (.ok .done) operation (some row) none

/-- The operation's journal was moved to the retired ones. -/
def Db.Retired (db : Db) (operation : Uuid) : Prop :=
  db.retiredCreationJournal.get? operation ≠ none

/-- The committed rows of one child move to the retired journal. -/
structure Retires (db db' : Db) (child : Lid) : Prop where
  rows : ∀ operation, storedJournal db' operation =
    (storedJournal db operation).filter fun row => !retiresRow child row
  retired : ∀ operation, db'.Retired operation ↔ db.Retired operation ∨
    ∃ row, storedJournal db operation = some row ∧ retiresRow child row = true

variable {db' : Db} {op : Op} {result : Except KeyRackError Reply}

section
variable (effect : Effect db op result db')
include effect

/-- A step leaves the creation journal alone, writes one row, or retires the
    committed rows of one child. -/
theorem Effect.creationRow :
    (db'.retiredCreationJournal = db.retiredCreationJournal ∧
      (storedJournal db' = storedJournal db ∨
        ∃ operation old new, CreationWrite db db' op result operation old new ∧
          storedJournal db operation = old ∧
          storedJournal db' = Function.update (storedJournal db) operation new)) ∨
      ∃ child, Retires db db' child := by
  cases effect with
  | reserve validated valid unused unretired free rows =>
    exact .inl ⟨rfl, .inr ⟨_, _, _, .reserve validated valid unretired free, unused, rows⟩⟩
  | advance stored bound unfinished step valid rows =>
    exact .inl ⟨rfl, .inr ⟨_, _, _, .advance bound unfinished step valid, stored, rows⟩⟩
  | publish stored bound resolved _ _ keyRows valid rows =>
    have written := (congrFun keyRows _).trans (Function.update_self ..)
    exact .inl ⟨rfl, .inr ⟨_, _, _, .publish bound resolved written valid, stored, rows⟩⟩
  | withdraw stored bound closed rows =>
    exact .inl ⟨rfl, .inr ⟨_, _, _, .withdraw bound closed, stored, rows⟩⟩
  | migrate _ _ _ _ _ _ _ retires =>
    refine .inr ⟨_, fun _ => find_delete CreationIndex.clash_of_operation, fun operation => ?_⟩
    -- a commit inserts the retired journals, a completion skips those already there
    rw [← exists_committedCreations]
    exact get?_insertAll?_ne_none retires
  | complete _ _ _ _ _ retires =>
    refine .inr ⟨_, fun _ => find_delete CreationIndex.clash_of_operation, fun _ => ?_⟩
    rw [← exists_committedCreations]
    subst retires
    exact get?_foldl_insertOrIgnore_ne_none
  | _ => exact .inl ⟨rfl, .inl rfl⟩

/-- Every row was there before or is what a write stored. -/
theorem Effect.mem_creations
    (member : row ∈ db'.creationJournal) : row ∈ db.creationJournal ∨ ∃ operation old,
      CreationWrite db db' op result operation old (some row) ∧
        storedJournal db operation = old := by
  have stored : storedJournal db' row.1.operationId = some row :=
    storedJournal_eq_some.mpr ⟨member, rfl⟩
  rcases effect.creationRow with ⟨_, same | ⟨operation, old, _, write, read, rows⟩⟩ |
    ⟨_, retires⟩
  · rw [same] at stored
    exact .inl (storedJournal_eq_some.mp stored).1
  · rw [rows, Function.update_apply] at stored
    split at stored
    next =>
      subst stored
      exact .inr ⟨operation, old, write, read⟩
    next => exact .inl (storedJournal_eq_some.mp stored).1
  · rw [retires.rows] at stored
    have before := (Option.filter_eq_some_iff.mp stored).1
    exact .inl (storedJournal_eq_some.mp before).1

/-- A write of the migration journal. -/
inductive MigrationWrite (db : Db) : Op → Uuid → Option (MigrationIndex × MigrationRow) →
    MigrationIndex × MigrationRow → Prop where
  | reserve {request : MigrationRequest} (validated : request.validate = .ok ())
      (snapshots : Snapshots db request)
      (free : ∀ lid, (migrationIndex request).names lid = true →
        ¬db.Migrating lid ∧ ¬db.Creating lid) :
      MigrationWrite db (.reserveMigration request) request.operation none
        (migrationIndex request, ⟨false, .reserved request⟩)
  | own {op : Op} {row : MigrationIndex × MigrationRow} {journal : MigrationJournal}
      (owns : OwnsMigration operation row.2.journal journal op) (bound : Bound row)
      (owned : Owned row.2 journal) (validated : journal.validate = .ok ()) :
      MigrationWrite db op operation (some row) (row.1, ⟨false, journal⟩)
  | stage {row : MigrationIndex × MigrationRow} {journal : MigrationJournal} (bound : Bound row)
      (reserved : row.2.journal.phase = .reserved) (same : SameDriver row.2.journal journal)
      (phase : journal.phase = .staged) (validated : journal.validate = .ok ()) :
      MigrationWrite db (.stageMigration operation ownership envelopes) operation (some row)
        (row.1, ⟨false, journal⟩)
  | commit {row : MigrationIndex × MigrationRow} {journal : MigrationJournal} (bound : Bound row)
      (staged : row.2.journal.phase = .staged) (same : SameDriver row.2.journal journal)
      (phase : journal.phase = .committed) (validated : journal.validate = .ok ()) :
      MigrationWrite db (.commitMigration operation ownership) operation (some row)
        (row.1, ⟨true, journal⟩)

/-- Rows of the migration journal are written one at a time and never removed. -/
theorem Effect.migrationRow :
    storedMigration db' = storedMigration db ∨
      ∃ operation old new, MigrationWrite db op operation old new ∧
        storedMigration db operation = old ∧
        storedMigration db' =
          Function.update (storedMigration db) operation (some new) := by
  cases effect with
  | reserveMigration validated snapshots unused free rows =>
    exact .inr ⟨_, _, _, .reserve validated snapshots free, unused, rows⟩
  | ownMigration owns stored bound owned validated rows =>
    exact .inr ⟨_, _, _, .own owns bound owned validated, stored, rows⟩
  | stageMigration stored bound reserved same phase validated _ rows =>
    exact .inr ⟨_, _, _, .stage bound reserved same phase validated, stored, rows⟩
  | migrate stored bound staged _ same phase validated _ _ rows =>
    exact .inr ⟨_, _, _, .commit bound staged same phase validated, stored, rows⟩
  | _ => exact .inl rfl

theorem Effect.mem_migrations (member : row ∈ db'.migrationJournal) :
    row ∈ db.migrationJournal ∨ ∃ operation old, MigrationWrite db op operation old row ∧
      storedMigration db operation = old := by
  rcases effect.migrationRow with same | ⟨operation, old, _, write, read, rows⟩
  · have stored : storedMigration db' row.1.operationId = some row :=
      storedMigration_eq_some.mpr ⟨member, rfl⟩
    rw [same] at stored
    exact .inl (storedMigration_eq_some.mp stored).1
  · rcases mem_of_find_update MigrationIndex.clash_of_operation rows member with
      before | ⟨_, written⟩
    · exact .inl before
    · cases written
      exact .inr ⟨operation, old, write, read⟩

/-- A write of the destruction journal. -/
inductive ClaimWrite (db : Db) : Op → Lid → Option (DestructionIndex × DestructionRow) →
    DestructionIndex × DestructionRow → Prop where
  | claim {record : KeyRecord} {fresh : {operation : Uuid // operation.isNil = false}}
      (notCreating : ¬db.Creating lid) (notMigrating : ¬db.Migrating lid) :
      ClaimWrite db (.claimDestruction lid record.occVersion now fresh) lid none
        (⟨lid, fresh.1⟩, ⟨claimedRecord record now, false⟩)
  | complete {claim : DestructionClaim} {row : DestructionIndex × DestructionRow}
      (operation : row.1.operationId = claim.operation) (record : row.2.record = claim.record)
      (unfinished : row.2.completed = false) :
      ClaimWrite db (.completeDestruction claim now) claim.record.lid (some row)
        (row.1, { row.2 with completed := true })

theorem Effect.claimRow :
    storedClaim db' = storedClaim db ∨
      ∃ lid old new, ClaimWrite db op lid old new ∧ storedClaim db lid = old ∧
        storedClaim db' =
          Function.update (storedClaim db) lid (some new) := by
  cases effect with
  | claim _ _ unclaimed notCreating notMigrating _ _ _ rows =>
    exact .inr ⟨_, _, _, .claim notCreating notMigrating, storedClaim_eq_none.mpr unclaimed, rows⟩
  | complete stored operation record unfinished _ _ _ rows =>
    exact .inr ⟨_, _, _, .complete operation record unfinished, stored, rows⟩
  | _ => exact .inl rfl

end

/-! ### Columns repeat their journal -/

theorem Advance.bound (step : Advance db operation row.2 op result next)
    (bound : Bound row material) (valid : next.journal.Valid) : Bound (row.1, next) material := by
  cases step with
  | dispatch => exact ⟨valid, bound.given, bound.index, bound.phase, bound.bytes⟩
  | stage => exact ⟨valid, bound.given, bound.index, rfl, by simp⟩
  | resolve staged =>
    -- the bytes are there since the row was staged
    have bytes : row.2.envelope.isSome = true :=
      bound.bytes.mpr (by rw [bound.phase, staged]; decide)
    exact ⟨valid, bound.given, bound.index, rfl, by simp [bytes]⟩

theorem CreationWrite.bound (write : CreationWrite db db' op result operation old (some new)) :
    ∃ material, Bound new material := by
  cases write with
  | reserve validated valid =>
    have journal := reserved_valid (reserved_eq_ok.mpr ⟨validated, rfl⟩)
    exact ⟨_, journal, valid.given, rfl, rfl, by simp⟩
  | advance bound _ step valid => exact ⟨_, step.bound bound valid⟩
  | publish bound resolved _ valid =>
    have bytes := bound.bytes.mpr (by rw [bound.phase, resolved]; decide)
    exact ⟨_, valid, bound.given, bound.index, rfl, by simp [publishedRow, bytes]⟩

omit [Blake3] [IntentEncoding] in
theorem MigrationJournal.reserved_validate (validated : request.validate = .ok ()) :
    (MigrationJournal.reserved request).validate = .ok () := by
  simp only [MigrationJournal.validate, MigrationJournal.reserved, eq_ok]
  exact ⟨(), validated, (), by simp, (), rfl, by simp⟩

theorem MigrationWrite.bound (write : MigrationWrite db op operation old new) : Bound new := by
  cases write with
  | reserve validated => exact ⟨MigrationJournal.reserved_validate validated, rfl, rfl⟩
  | own _ bound owned validated =>
    have pending := owned.phase ▸ owned.uncommitted
    exact ⟨validated, by rw [bound.index, owned.request], by simpa using pending⟩
  | stage bound _ same phase validated | commit bound _ same phase validated =>
    exact ⟨validated, by rw [bound.index, same.request], by simp [phase]⟩

/-- Every row of the creation and migration journals decodes. -/
structure Db.RowsBound (db : Db) : Prop where
  creations : ∀ row ∈ db.creationJournal, ∃ material, Bound row material
  migrations : ∀ row ∈ db.migrationJournal, Bound row

theorem Db.rowsBound_empty : Db.empty.RowsBound :=
  ⟨fun row member => absurd member (not_mem_empty row),
    fun row member => absurd member (not_mem_empty row)⟩

theorem StorageStep.rowsBound (step : StorageStep db event db')
    (bound : db.RowsBound) : db'.RowsBound := by
  constructor
  · intro row member
    rcases step.effect.mem_creations member with before | ⟨_, _, write, _⟩
    · exact bound.creations row before
    · exact write.bound
  · intro row member
    rcases step.effect.mem_migrations member with before | ⟨_, _, write, _⟩
    · exact bound.migrations row before
    · exact write.bound

end

/-! ### One protocol at a time -/

/-- A row that keeps others away from the keys it names. -/
inductive Holder where
  | creation (index : CreationIndex)
  | migration (index : MigrationIndex)
  | claim (lid : Lid)

namespace Holder

def names : Holder → Lid → Prop
  | .creation index, lid => index.names lid = true
  | .migration index, lid => index.names lid = true
  | .claim own, lid => own = lid

/-- Several creations may use one key, as the children of one parent do. -/
def Conflict : Holder → Holder → Prop
  | .creation _, .creation _ => False
  | .claim _, .claim _ => False
  | .migration a, .migration b => a ≠ b
  | _, _ => True

theorem Conflict.symm (a b : Holder) (conflict : a.Conflict b) : b.Conflict a := by
  cases a <;> cases b <;> first | exact conflict | exact Ne.symm conflict

end Holder

/-- The uncommitted journal rows and the claims. -/
def Db.Holds (db : Db) : Holder → Prop
  | .creation index => ∃ row, (index, row) ∈ db.creationJournal ∧ row.phase ≠ .committed
  | .migration index => ∃ row, (index, row) ∈ db.migrationJournal ∧ row.committed = false
  | .claim lid => db.Fenced lid

/-- A key that the guards find free is named by no holder of that kind. -/
theorem Db.admissible_of_free (creations : ∀ index, Holder.Conflict (.creation index) new →
      ∀ lid, new.names lid → ¬db.Creating lid)
    (migrations : ∀ index, Holder.Conflict (.migration index) new →
      ∀ lid, new.names lid → ¬db.Migrating lid)
    (claims : ∀ own, Holder.Conflict (.claim own) new → ∀ lid, new.names lid → ¬db.Fenced lid) :
    Admissible Holder.names Holder.Conflict db.Holds new := by
  intro holder holds conflict lid named shared
  -- an active holder is a row that the query for its kind finds
  cases holder with
  | creation index =>
    obtain ⟨_, member, pending⟩ := holds
    exact creations index conflict lid shared ⟨_, member, pending, named⟩
  | migration index =>
    obtain ⟨_, member, pending⟩ := holds
    exact migrations index conflict lid shared ⟨_, member, pending, named⟩
  | claim =>
    cases named
    exact claims lid conflict lid shared holds

section
variable [UuidText] [Blake3] [IntentEncoding]

/-- The holder an operation may bring in. -/
def Op.Enters : Op → Holder → Prop
  | .reserveCreation _, .creation _ => True
  | .reserveMigration request, .migration index => index = migrationIndex request
  | .claimDestruction _ _ _ _, .claim _ => True
  | _, _ => False

theorem Op.Enters.apart (op : Op) (a b : Holder) (first : op.Enters a) (second : op.Enters b) :
    ¬a.Conflict b := by
  cases op <;> cases a <;> cases b <;>
    simp_all [Op.Enters, Holder.Conflict]

variable {db' : Db} {op : Op} {result : Except KeyRackError Reply}

section
variable (effect : Effect db op result db')
include effect

private theorem Effect.holds_creation (holds : db'.Holds (.creation index)) :
    db.Holds (.creation index) ∨ op.Enters (.creation index) ∧
      Admissible Holder.names Holder.Conflict db.Holds (.creation index) := by
  obtain ⟨row, member, pending⟩ := holds
  rcases effect.mem_creations member with before | ⟨_, old, write, read⟩
  · exact .inl ⟨row, before, pending⟩
  · cases write with
    | reserve _ _ _ free =>
      refine .inr ⟨trivial, Db.admissible_of_free nofun ?_ ?_⟩
      · exact fun _ _ lid named => (free lid named).1
      · exact fun _ _ lid named => (free lid named).2
    -- a row that moves on keeps its index and was uncommitted before
    | advance _ unfinished => exact .inl ⟨_, (storedJournal_eq_some.mp read).1, unfinished⟩
    | publish => exact absurd rfl pending

private theorem Effect.holds_migration (holds : db'.Holds (.migration index)) :
    db.Holds (.migration index) ∨ op.Enters (.migration index) ∧
      Admissible Holder.names Holder.Conflict db.Holds (.migration index) := by
  obtain ⟨row, member, pending⟩ := holds
  -- a row that is written over was uncommitted before
  have pendingBefore {old : MigrationIndex × MigrationRow} (bound : Bound old)
      (uncommitted : old.2.journal.phase ≠ .committed) : old.2.committed = false := by
    rw [bound.committed, beq_eq_false_iff_ne]
    exact uncommitted
  rcases effect.mem_migrations member with before | ⟨_, old, write, read⟩
  · exact .inl ⟨row, before, pending⟩
  · cases write with
    | reserve _ snapshots free =>
      refine .inr ⟨rfl, Db.admissible_of_free ?_ ?_ ?_⟩
      · exact fun _ _ lid named => (free lid named).2
      · exact fun _ _ lid named => (free lid named).1
      · exact fun _ _ lid named => snapshots.unfenced lid named
    | own _ bound owned =>
      exact .inl ⟨_, (storedMigration_eq_some.mp read).1, pendingBefore bound owned.uncommitted⟩
    | stage bound reserved =>
      exact .inl ⟨_, (storedMigration_eq_some.mp read).1,
        pendingBefore bound (by rw [reserved]; decide)⟩
    | commit => cases pending

private theorem Effect.holds_claim (holds : db'.Holds (.claim lid)) :
    db.Holds (.claim lid) ∨ op.Enters (.claim lid) ∧
      Admissible Holder.names Holder.Conflict db.Holds (.claim lid) := by
  obtain ⟨row, member, rfl⟩ := holds
  rcases effect.claimRow with same | ⟨_, old, _, write, read, rows⟩
  · have stored : storedClaim db' row.1.lid = some row := storedClaim_eq_some.mpr ⟨member, rfl⟩
    rw [same] at stored
    exact .inl ⟨row, storedClaim_eq_some.mp stored⟩
  · rcases mem_of_find_update DestructionIndex.clash_of_lid rows member with
      before | ⟨_, written⟩
    · exact .inl ⟨row, before, rfl⟩
    · cases written
      cases write with
      | claim notCreating notMigrating =>
        refine .inr ⟨trivial, Db.admissible_of_free ?_ ?_ nofun⟩
        · rintro _ _ _ rfl
          exact notCreating
        · rintro _ _ _ rfl
          exact notMigrating
      | complete => exact .inl ⟨_, (storedClaim_eq_some.mp read).1, rfl⟩

end

/-- No key is held by conflicting rows. -/
def Db.Exclusive (db : Db) : Prop := Exclusion.Exclusive Holder.names Holder.Conflict db.Holds

theorem StorageStep.exclusive (step : StorageStep db event db')
    (exclusive : db.Exclusive) : db'.Exclusive := by
  refine Exclusion.Exclusive.step exclusive Holder.Conflict.symm (Op.Enters.apart event.1)
    fun holder => ?_
  cases holder with
  | creation => exact step.effect.holds_creation
  | migration => exact step.effect.holds_migration
  | claim => exact step.effect.holds_claim

section
omit [UuidText] [Blake3] [IntentEncoding]

theorem Db.exclusive_empty : Db.empty.Exclusive := by
  refine .of_inactive fun holder holds => ?_
  cases holder with
  | creation index | migration index | claim lid => exact not_mem_empty _ holds.choose_spec.1

variable {db : Db} (exclusive : db.Exclusive) {lid : Lid}

include exclusive

theorem Db.Exclusive.not_creating (migrating : db.Migrating lid) : ¬db.Creating lid := by
  obtain ⟨row, member, pending, named⟩ := migrating
  rintro ⟨other, otherMember, otherPending, otherNamed⟩
  exact exclusive (.migration row.1) (.creation other.1) ⟨row.2, member, pending⟩
    ⟨other.2, otherMember, otherPending⟩ trivial lid named otherNamed

/-- An unfinished migration is the only one of each key it names. -/
theorem Db.Exclusive.migration_unique
    (memberA : a ∈ db.migrationJournal) (memberB : b ∈ db.migrationJournal)
    (pendingA : a.2.committed = false) (pendingB : b.2.committed = false)
    (namesA : a.1.names lid = true) (namesB : b.1.names lid = true) : a = b := by
  by_contra different
  -- rows with the same index are the same row
  have indexes : a.1 ≠ b.1 := by
    intro same
    have operation : a.1.operationId = b.1.operationId := by rw [same]
    exact different (eq_of_clash memberA memberB operation operation.symm)
  exact exclusive (.migration a.1) (.migration b.1) ⟨a.2, memberA, pendingA⟩
    ⟨b.2, memberB, pendingB⟩ indexes lid namesA namesB

theorem Db.Exclusive.not_participating (fenced : db.Fenced lid) :
    ¬db.Migrating lid ∧ ¬db.Creating lid := by
  constructor
  · rintro ⟨row, member, pending, named⟩
    exact exclusive (.claim lid) (.migration row.1) fenced ⟨row.2, member, pending⟩ trivial lid rfl
      named
  · rintro ⟨row, member, pending, named⟩
    exact exclusive (.claim lid) (.creation row.1) fenced ⟨row.2, member, pending⟩ trivial lid rfl
      named

end

/-- **Participants**: in every state that a run reaches from an empty database the
    index columns of a journal row repeat its request, so they are its
    participants. No key takes part in two uncommitted migrations, or in an
    uncommitted migration and an uncommitted creation, and a key with a destruction
    claim takes part in neither. -/
theorem run_participants_exclusive (db : Db) (events : List Event)
    (run : Run Db.empty events db) :
    (∀ row ∈ db.creationJournal, ∃ material, Bound row material) ∧
    (∀ row ∈ db.migrationJournal, Bound row) ∧
    (∀ a ∈ db.migrationJournal, ∀ b ∈ db.migrationJournal, a.2.committed = false →
      b.2.committed = false → ∀ lid, a.1.names lid = true → b.1.names lid = true → a = b) ∧
    (∀ lid, db.Migrating lid → ¬db.Creating lid) ∧
    ∀ lid, db.Fenced lid → ¬db.Migrating lid ∧ ¬db.Creating lid := by
  have bound : db.RowsBound := run.invariant (fun _ _ _ step => step.rowsBound) Db.rowsBound_empty
  have exclusive : db.Exclusive :=
    run.invariant (fun _ _ _ step => step.exclusive) Db.exclusive_empty
  refine ⟨bound.creations, bound.migrations, ?_, fun _ => exclusive.not_creating,
    fun _ => exclusive.not_participating⟩
  intro a memberA b memberB pendingA pendingB _ namesA namesB
  exact exclusive.migration_unique memberA memberB pendingA pendingB namesA namesB

end

open Sample

theorem seven_not_nil : (⟨7⟩ : Uuid).isNil = false := rfl

/-- A creation under key 1, then the deletion of keys 1 and 3. -/
def fencingOps : List Op :=
  [.createKey (residentRecord (sampleLid 1)), .createKey (residentRecord (sampleLid 3)),
    .reserveCreation creationRequest,
    .scheduleDestruction (sampleLid 1) 1 10 true 5, .scheduleDestruction (sampleLid 3) 1 10 true 5,
    .claimDestruction (sampleLid 1) 2 20 ⟨⟨7⟩, seven_not_nil⟩,
    .claimDestruction (sampleLid 3) 2 20 ⟨⟨8⟩, by decide⟩]

/-- The parent of the pending creation is not claimed, the other key is. -/
theorem run_participants_exclusive_fencing :
    let db := (replay Db.empty fencingOps).2
    (db.Creating (sampleLid 1) ∧ ¬db.Fenced (sampleLid 1)) ∧ db.Fenced (sampleLid 3) ∧
      ¬db.Migrating (sampleLid 3) ∧ ¬db.Creating (sampleLid 3) :=
  ⟨by decide +kernel, by decide +kernel,
    (run_participants_exclusive _ _ (run_replay Db.empty fencingOps)).2.2.2.2 (sampleLid 3)
      (by decide +kernel)⟩

end KeyRack.Sqlite
