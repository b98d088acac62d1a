import KeyRack.Lib.Store
import KeyRack.Properties.StorageSteps
import KeyRack.Sqlite.Reads

/-!
# The key table

Seven operations replace the row of an existing key and two insert one. Every
write raises the version by one over the exact row its checks have read, and none
clears a compromise history.
-/
namespace KeyRack.Sqlite

open Fallible Store

variable {db : Db}

theorem hasCompromiseHistory_latched (record : KeyRecord) :
    (latched record).hasCompromiseHistory = record.hasCompromiseHistory := by
  simp only [KeyRecord.hasCompromiseHistory, latched]
  cases record.wasCompromised <;> simp

theorem hasCompromiseHistory_movedRecord (target : KeyState)
    (scheduledDeletionAt : Option DateTime) (now : DateTime)
    (history : record.hasCompromiseHistory = true) :
    (movedRecord record target scheduledDeletionAt now).hasCompromiseHistory = true := by
  have marker : (movedRecord record target scheduledDeletionAt now).wasCompromised = true := by
    simp [movedRecord, history]
  rw [KeyRecord.hasCompromiseHistory, marker, Bool.true_or]

/-- The columns of every key row repeat its record. -/
def Db.KeysBound (db : Db) : Prop :=
  ∀ lid row, db.keyRow lid = some row →
    row.record.lid = lid ∧ row.occVersion = row.record.occVersion

theorem Db.keysBound_empty : Db.empty.KeysBound := by
  intro _ _ stored
  exact absurd (Table.get?_eq_some.mp stored) (Table.not_mem_empty _)

/-- The row-binding check of every key read passes. -/
theorem Db.KeysBound.key_eq (bound : db.KeysBound) (lid : Lid) :
    key db lid = .ok ((db.keyRow lid).map KeyRow.record) := by
  cases stored : db.keyRow lid with
  | none => exact key_eq_none.mpr stored
  | some row =>
    obtain ⟨own, column⟩ := bound lid row stored
    refine key_eq_some.mpr ⟨stored.trans (congrArg some ?_), own⟩
    rw [KeyRow.of, ← column]

/-- No two stored records have the same identifier. -/
theorem Db.KeysBound.storedRecords_nodup (bound : db.KeysBound) :
    ((storedRecords db).map (·.lid)).Nodup := by
  have same : (storedRecords db).map (·.lid) = db.keys.rows.map (·.1) := by
    rw [storedRecords, List.map_map]
    refine List.map_congr_left fun row member => ?_
    exact (bound row.1 row.2 (Table.get?_eq_some.mpr member)).1
  rw [same, List.Nodup, List.pairwise_map]
  exact db.keys.distinct

section
variable [UuidText] [Blake3] [IntentEncoding]

/-- The writes of the key table: the operation, the record that was read, the record
    that is stored, and what the step leaves in the journal it came from. -/
inductive KeyWrite (db db' : Db) : Op → Option KeyRecord → KeyRecord → Prop where
  | create (unfenced : db.Unfenced record) :
      KeyWrite db db' (.createKey record) none (latched record)
  | update (change : Updates db previous record) :
      KeyWrite db db' (.updateKey record) (some previous) (latched record)
  | publish (stored : Creation.storedJournal db operation = some row)
      (bound : Creation.Bound row material) (resolved : row.2.journal.phase = .resolved)
      (accepted : row.2.journal.request.Extends current)
      (published : Creation.storedJournal db' operation = some (row.1, publishedRow row.2)) :
      KeyWrite db db' (.publishCreation operation owner revision) current
        row.2.journal.request.record
  | migrate {journal : MigrationJournal}
    (stored : Migration.storedMigration db operation = some row)
      (bound : Migration.Bound row) (staged : row.2.journal.phase = .staged)
      (valid : row.2.journal.request.Valid) (request : journal.request = row.2.journal.request)
      (committed : Migration.storedMigration db' operation = some (row.1, ⟨true, journal⟩)) :
      KeyWrite db db' (.commitMigration operation ownership) (some row.2.journal.request.child)
        row.2.journal.request.proposed
  | schedule {record : KeyRecord} (unfenced : ¬db.Fenced record.lid)
      (allowed : record.transitionAllowed .pendingDeletion = true) :
      KeyWrite db db' (.scheduleDestruction record.lid record.occVersion scheduledAt allow now)
        (some record) (movedRecord record .pendingDeletion (some scheduledAt) now)
  | cancel {record : KeyRecord} (unfenced : ¬db.Fenced record.lid)
      (allowed : record.transitionAllowed .disabled = true) :
      KeyWrite db db' (.cancelDestruction record.lid record.occVersion now) (some record)
        (movedRecord record .disabled none now)
  | claim {record : KeyRecord} (pending : record.state = .pendingDeletion)
      (unclaimed : ¬db.Fenced record.lid) :
      KeyWrite db db' (.claimDestruction record.lid record.occVersion now fresh) (some record)
        (claimedRecord record now)
  | complete {claim : DestructionClaim}
      (stored : Destruction.storedClaim db claim.record.lid = some row)
      (operation : row.1.operationId = claim.operation) (unfinished : row.2.completed = false)
      (completed : Destruction.storedClaim db' claim.record.lid =
        some (row.1, { row.2 with completed := true })) :
      KeyWrite db db' (.completeDestruction claim now) (some claim.record)
        (destroyedRecord claim.record now)

variable {op : Op}

/-- A step leaves the key table alone or makes one of the listed writes. -/
theorem Effect.keyRow (effect : Effect db op result db') :
    db'.keyRow = db.keyRow ∨
      ∃ old new, KeyWrite db db' op old new ∧ (∃ reply, result = .ok reply) ∧
        key db new.lid = .ok old ∧
        db'.keyRow = Function.update db.keyRow new.lid (some (.of new)) := by
  cases effect with
  | create absent unfenced rows => exact .inr ⟨_, _, .create unfenced, ⟨_, rfl⟩, absent, rows⟩
  | update stored change rows => exact .inr ⟨_, _, .update change, ⟨_, rfl⟩, stored, rows⟩
  | publish stored bound resolved child accepted keyRows _ rows =>
    have published := (congrFun rows _).trans (Function.update_self ..)
    exact .inr ⟨_, _, .publish stored bound resolved accepted published, ⟨_, rfl⟩, child, keyRows⟩
  | migrate stored bound staged snapshots same _ _ _ keyRows rows =>
    have own := snapshots.valid.proposed_lid
    have committed := (congrFun rows _).trans (Function.update_self ..)
    refine .inr ⟨_, _, .migrate stored bound staged snapshots.valid same.request committed,
      ⟨_, rfl⟩, ?_, ?_⟩
    · rw [own]
      exact snapshots.child
    · rw [own]
      exact keyRows
  | schedule stored unfenced allowed rows =>
    obtain ⟨_, rfl⟩ := key_eq_some.mp stored
    exact .inr ⟨_, _, .schedule unfenced allowed, ⟨_, rfl⟩, stored, rows⟩
  | cancel stored unfenced allowed rows =>
    obtain ⟨_, rfl⟩ := key_eq_some.mp stored
    exact .inr ⟨_, _, .cancel unfenced allowed, ⟨_, rfl⟩, stored, rows⟩
  | claim stored pending unclaimed _ _ _ _ keyRows =>
    obtain ⟨_, rfl⟩ := key_eq_some.mp stored
    exact .inr ⟨_, _, .claim pending unclaimed, ⟨_, rfl⟩, stored, keyRows⟩
  | complete stored operation _ unfinished current _ keyRows rows =>
    have completed := (congrFun rows _).trans (Function.update_self ..)
    exact .inr ⟨_, _, .complete stored operation unfinished completed, ⟨_, rfl⟩, current, keyRows⟩
  | _ => exact .inl rfl

/-- A row that is stored after a step was stored before it or has been written by it. -/
theorem StorageStep.keyRow_cases (step : StorageStep db event db')
    (stored : db'.keyRow lid = some row) :
    db.keyRow lid = some row ∨
      ∃ old new, KeyWrite db db' event.1 old new ∧ key db new.lid = .ok old ∧ lid = new.lid ∧
        row = .of new := by
  rcases step.effect.keyRow with same | ⟨old, new, write, _, read, rows⟩
  · exact .inl (same ▸ stored)
  · rw [rows, Function.update_apply] at stored
    split at stored
    next own =>
      cases stored
      exact .inr ⟨old, new, write, read, own, rfl⟩
    next => exact .inl stored

/-- What every replacing write keeps, every step keeps. -/
theorem StorageStep.evolves (refl : ∀ row, R row row) (step : StorageStep db event db')
    (writes : ∀ op old new, KeyWrite db db' op (some old) new → R (.of old) (.of new)) :
    Evolves R db.keyRow db'.keyRow := by
  rcases step.effect.keyRow with same | ⟨old, _, write, _, read, rows⟩
  · rw [same]
    exact .refl refl _
  · rw [rows]
    refine .update refl fun row present => ?_
    -- the row that is written over is the one the checks have read
    cases old with
    | none =>
      rw [key_eq_none.mp read] at present
      cases present
    | some =>
      rw [(key_eq_some.mp read).1] at present
      cases present
      exact writes _ _ _ write

/-! ### The compromise latch -/

/-- No write clears a compromise history. -/
theorem KeyWrite.latches (write : KeyWrite db db' op (some old) new)
    (history : old.hasCompromiseHistory = true) : new.hasCompromiseHistory = true := by
  cases write with
  | update change =>
    rw [hasCompromiseHistory_latched]
    exact change.history history
  | publish _ _ _ accepted =>
    -- publication and migration accept clean records only
    cases accepted with
    | next _ _ clean =>
      rw [clean] at history
      cases history
  | migrate _ _ _ valid =>
    rw [valid.clean] at history
    cases history
  | schedule | cancel => exact hasCompromiseHistory_movedRecord _ _ _ history
  | claim => exact history
  | @complete _ _ claim =>
    -- a claimed record is pending, so its history is the marker alone
    have marker : claim.record.wasCompromised = true := by
      simpa [KeyRecord.hasCompromiseHistory, claim.pending] using history
    simp [KeyRecord.hasCompromiseHistory, destroyedRecord, marker]

/-- A caller's own write that reports success has stored the latched record. -/
theorem Effect.latched_stored (effect : Effect db op (.ok reply) db')
    (direct : op = .createKey record ∨ op = .updateKey record) :
    db'.keyRow record.lid = some (.of (latched record)) := by
  cases effect with
  | repeated repeats =>
    rcases direct with rfl | rfl
    · exact repeats.elim
    · exact repeats.elim
  | @create _ written _ _ rows | @update _ _ _ written _ _ rows =>
    obtain rfl : written = record := by simpa using direct
    exact (congrFun rows _).trans (Function.update_self ..)
  | advance _ _ _ step => cases step <;> simp at direct
  | ownMigration owns => cases owns <;> simp at direct
  | _ => simp at direct

/-- **Compromise latch**: in every run of the backend, from any state of the
    tables, a stored key with a compromise history keeps one, and a record that
    `create_key` or `update_key` stores with such a history carries the marker. -/
theorem run_compromise_latched (db db' : Db) (events : List Event) (run : Run db events db') :
    (∀ lid row, db.keyRow lid = some row → row.record.hasCompromiseHistory = true →
      ∃ row', db'.keyRow lid = some row' ∧ row'.record.hasCompromiseHistory = true) ∧
    ∀ op record reply next, op = .createKey record ∨ op = .updateKey record →
      StorageStep db' (op, .ok reply) next → record.hasCompromiseHistory = true →
      ∃ row, next.keyRow record.lid = some row ∧ row.record.wasCompromised = true := by
  constructor
  · -- the latch is a reflexive and transitive relation that every write satisfies
    let keeps (a b : KeyRow) : Prop :=
      a.record.hasCompromiseHistory = true → b.record.hasCompromiseHistory = true
    have evolves : Evolves keeps db.keyRow db'.keyRow := by
      refine .of_steps (fun _ => id) ?_ ?_ run
      · exact fun _ _ _ first second history => second (first history)
      · exact fun _ _ _ step => step.evolves (fun _ => id) fun _ _ _ write => write.latches
    intro lid row stored history
    obtain ⟨row', stored', kept⟩ := evolves lid row stored
    exact ⟨row', stored', kept history⟩
  · intro _ _ _ _ direct step history
    exact ⟨_, step.effect.latched_stored direct, history⟩

end

section
open Sample

/-- A record that is compromised but older than the marker. -/
def legacyRecord : KeyRecord := { residentRecord (sampleLid 1) with state := .compromised }

def legacyDb : Db := (replay Db.empty [.createKey legacyRecord]).2

/-- The latch over the scheduling of a legacy key's deletion. -/
theorem run_compromise_latched_scheduled :
    let scheduled := (replay legacyDb [.scheduleDestruction (sampleLid 1) 1 10 false 5]).2
    (scheduled.keyRow (sampleLid 1)).map (·.record.state) = some .pendingDeletion ∧
      ∃ row, scheduled.keyRow (sampleLid 1) = some row ∧ row.record.hasCompromiseHistory = true :=
  ⟨by decide, (run_compromise_latched legacyDb _ _ (run_replay _ _)).1 (sampleLid 1)
    (.of (latched legacyRecord)) (by decide) (by decide)⟩

end

/-! ### Version discipline -/

section
variable [UuidText] [Blake3] [IntentEncoding]

/-- The version of the existing row that the writer claims to have read. -/
def Op.expectedVersion (db : Db) : Op → Option Nat
  | .updateKey record => some (record.occVersion - 1)
  | .publishCreation operation _ _ =>
    (Creation.storedJournal db operation).bind fun row => row.2.journal.request.expectedKeyOcc
  | .commitMigration operation _ =>
    (Migration.storedMigration db operation).map fun row => row.2.journal.request.child.occVersion
  | .scheduleDestruction _ expectedOcc _ _ _ => some expectedOcc
  | .cancelDestruction _ expectedOcc _ => some expectedOcc
  | .claimDestruction _ expectedOcc _ _ => some expectedOcc
  | .completeDestruction claim _ => some claim.record.occVersion
  | _ => none

/-- A replacing write names the stored version and stores the next one. -/
theorem KeyWrite.succ (write : KeyWrite db db' op (some old) new) :
    op.expectedVersion db = some old.occVersion ∧ new.occVersion = old.occVersion + 1 := by
  cases write with
  | update change =>
    exact ⟨congrArg some (by rw [change.occVersion, Nat.add_sub_cancel]), change.occVersion⟩
  | publish stored _ _ accepted =>
    cases accepted with
    | next expected _ _ _ _ proposal =>
      refine ⟨?_, by rw [proposal]; rfl⟩
      rw [Op.expectedVersion, stored, Option.bind_some, expected]
  | migrate stored _ _ valid =>
    refine ⟨?_, valid.proposed_occVersion⟩
    rw [Op.expectedVersion, stored, Option.map_some]
  | schedule | cancel | claim | complete => exact ⟨rfl, rfl⟩

theorem StorageStep.keysBound (step : StorageStep db event db')
    (bound : db.KeysBound) : db'.KeysBound := by
  intro lid row stored
  rcases step.keyRow_cases stored with before | ⟨_, _, _, _, own, rfl⟩
  · exact bound lid row before
  · exact ⟨own.symm, rfl⟩

end

open Sample

end KeyRack.Sqlite
