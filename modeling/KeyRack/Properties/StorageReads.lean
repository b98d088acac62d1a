import KeyRack.Properties.Dependents
import KeyRack.Properties.Proposals
import KeyRack.Sqlite.Storage

/-!
# What the checks of a transaction establish

One lemma for each read, guard and single-table write of the backend. Tables are
seen as partial functions of their keys; the step lemmas of the next module are
assembled from these.
-/
namespace KeyRack.Sqlite

open Fallible Function Table

/-! ### Keys -/

/-- The stored row of a key. -/
def Db.keyRow (db : Db) (lid : Lid) : Option KeyRow := db.keys.get? lid

/-- A row whose version column repeats the record's. -/
def KeyRow.of (record : KeyRecord) : KeyRow := ⟨record, record.occVersion⟩

@[simp] theorem KeyRow.of_record (record : KeyRecord) : (KeyRow.of record).record = record := rfl

theorem toI64_eq_ok : toI64 n e = .ok i ↔ n ≤ i64Max ∧ i = n := by
  unfold toI64
  split <;> simp_all [eq_comm]

variable {db : Db} {lid : Lid} {record : KeyRecord}

theorem key_eq_some :
    key db lid = .ok (some record) ↔ db.keyRow lid = some (.of record) ∧ record.lid = lid := by
  rw [key, select?_primary, Db.keyRow]
  cases db.keys.get? lid with
  | none => simp
  | some row =>
    obtain ⟨_, _⟩ := row
    -- the binding check makes the row the one of its record
    simp only [Option.map_some, eq_ok, Option.some.injEq, not_or, not_not, KeyRow.of,
      KeyRow.mk.injEq]
    constructor
    · rintro ⟨_, _, _, ⟨rfl, rfl⟩, rfl⟩
      exact ⟨⟨rfl, rfl⟩, rfl⟩
    · rintro ⟨⟨rfl, rfl⟩, rfl⟩
      exact ⟨(), by omega, (), ⟨rfl, rfl⟩, rfl⟩

theorem key_eq_none : key db lid = .ok none ↔ db.keyRow lid = none := by
  rw [key, select?_primary, Db.keyRow]
  cases db.keys.get? lid with
  | none => simp
  | some =>
    simp only [Option.map_some, eq_ok, reduceCtorEq, and_false, exists_false]

theorem requiredKey_eq_ok : requiredKey db lid = .ok record ↔ key db lid = .ok (some record) := by
  simp [requiredKey, bind_eq_ok]

theorem keyRow_insert? (inserted : db.keys.insert? lid row = some keys) :
    db.keyRow lid = none ∧ keys.get? = update db.keyRow lid (some row) := get?_insert? inserted

theorem keyRow_updateKeyRow (record : KeyRecord) (occVersion : Int)
    (stored : db.keyRow record.lid = some old) :
    (updateKeyRow db record occVersion old.occVersion).keyRow =
      update db.keyRow record.lid (some ⟨record, occVersion⟩) := by
  have lookup : db.keys.get? record.lid = some old := stored
  have written := get?_modify (t := db.keys) (x := record.lid)
    (c := fun row => row.occVersion == old.occVersion) (f := fun _ => ⟨record, occVersion⟩)
  simp only [lookup, Option.map_some, beq_self_eq_true, if_true] at written
  exact written

theorem matchingRows_ne_zero (positive : matchingRows db lid expected ≠ 0) :
    ∃ old, db.keyRow lid = some old ∧ old.occVersion = expected := by
  obtain ⟨⟨l, row⟩, member, selected⟩ := exists_of_count positive
  simp only [Bool.and_eq_true, beq_iff_eq] at selected
  obtain ⟨rfl, rfl⟩ := selected
  exact ⟨row, get?_eq_some.mpr member, rfl⟩

/-! ### Participants and fences -/

/-- Some uncommitted migration names the key. -/
def Db.Migrating (db : Db) (lid : Lid) : Prop :=
  ∃ row ∈ db.migrationJournal, row.2.committed = false ∧ row.1.names lid = true

/-- Some uncommitted creation names the key. -/
def Db.Creating (db : Db) (lid : Lid) : Prop :=
  ∃ row ∈ db.creationJournal, row.2.phase ≠ .committed ∧ row.1.names lid = true

/-- The key has a destruction claim. -/
def Db.Fenced (db : Db) (lid : Lid) : Prop := ∃ row ∈ db.destructionJournal, row.1.lid = lid

instance (db : Db) (lid : Lid) : Decidable (db.Migrating lid) :=
  decidable_of_iff (db.migrationJournal.any fun index row => !row.committed &&
    index.names lid) <| by simp [any_eq_true, Db.Migrating]

instance (db : Db) (lid : Lid) : Decidable (db.Creating lid) :=
  decidable_of_iff (db.creationJournal.any fun index row => row.phase != .committed &&
    index.names lid) <| by simp [any_eq_true, Db.Creating]

instance (db : Db) (lid : Lid) : Decidable (db.Fenced lid) :=
  decidable_of_iff (db.destructionJournal.any fun index _ => index.lid == lid) <| by
    simp [any_eq_true, Db.Fenced]

theorem migrationGuard_eq_ok : Migration.guard db lid = .ok u ↔ ¬db.Migrating lid := by
  rw [Migration.guard, refuseIf_eq_ok, any_eq_true]
  simp only [Bool.and_eq_true, Bool.not_eq_true', Db.Migrating]

theorem destructionGuard_eq_ok : Destruction.guard db lid = .ok u ↔ ¬db.Fenced lid := by
  rw [Destruction.guard, refuseIf_eq_ok, any_eq_true]
  simp only [beq_iff_eq, Db.Fenced]

/-- The record has a version wrapped under `parent`. -/
def WrapsUnder (record : KeyRecord) (parent : Lid) : Prop :=
  ∃ version ∈ record.keyVersions, ∃ material,
    version.material = .parentWrapped material ∧ material.parent.lid = parent

theorem wrapped?_eq_some {material : KeyMaterial} :
    material.wrapped? = some found ↔ material = .parentWrapped found := by
  cases material <;> simp [KeyMaterial.wrapped?]

private theorem checkWrapped_eq_ok {check : Lid → Except KeyRackError Unit} :
    checkAll (record.keyVersions.filterMap fun version => version.material.wrapped?)
        (fun material => check material.parent.lid) = .ok u ↔
      ∀ parent, WrapsUnder record parent → check parent = .ok () := by
  simp only [checkAll_eq_ok, List.mem_filterMap, WrapsUnder, wrapped?_eq_some]
  constructor
  · rintro all _ ⟨version, member, material, same, rfl⟩
    exact all material ⟨version, member, same⟩
  · rintro all material ⟨version, member, same⟩
    exact all _ ⟨version, member, material, same, rfl⟩

theorem guardRecord_ok (passed : Migration.guardRecord db record = .ok u) :
    ¬db.Migrating record.lid ∧ ∀ parent, WrapsUnder record parent → ¬db.Migrating parent := by
  simp only [Migration.guardRecord, bind_eq_ok, checkWrapped_eq_ok, migrationGuard_eq_ok] at passed
  obtain ⟨_, own, _, _, parents⟩ := passed
  exact ⟨own, parents⟩

theorem guardWrite_ok (passed : Destruction.guardWrite db record = .ok u) :
    ¬db.Fenced record.lid ∧ ∀ parent, WrapsUnder record parent → ¬db.Fenced parent := by
  simp only [Destruction.guardWrite, bind_eq_ok, checkWrapped_eq_ok,
    destructionGuard_eq_ok] at passed
  obtain ⟨_, own, parents⟩ := passed
  exact ⟨own, parents⟩

/-! ### Creation rows -/

theorem CreationIndex.clash_of_operation (a b : CreationIndex)
    (same : a.operationId = b.operationId) : a.Clash b := .inl same

theorem CreationIndex.Clash.symm {a b : CreationIndex} (clash : a.Clash b) : b.Clash a := by
  rcases clash with same | ⟨child, version⟩ | same
  · exact .inl same.symm
  · exact .inr (.inl ⟨child.symm, version.symm⟩)
  · exact .inr (.inr same.symm)

namespace Creation

variable {row : CreationIndex × CreationRow} {operation : Uuid}

theorem storedJournal_eq_some :
    storedJournal db operation = some row ↔
      row ∈ db.creationJournal ∧ row.1.operationId = operation :=
  find_eq_some CreationIndex.clash_of_operation

variable {bytes : Bytes}

theorem envelope_ok (read : envelope db operation = .ok bytes) :
    ∃ row, storedJournal db operation = some row ∧ row.2.envelope = some bytes := by
  simp only [envelope, eq_ok] at read
  exact read

/-- The first staging of a row stores its bytes. -/
theorem storeEnvelope_reserved (stored : storedJournal db operation = some row)
    (ran : storeEnvelope db operation .reserved bytes = .ok db') :
    db' = { db with creationJournal := db'.creationJournal } ∧
      storedJournal db' = update (storedJournal db) operation
        (some (row.1, { row.2 with envelope := some bytes })) := by
  simp only [storeEnvelope, if_true, Except.ok.injEq] at ran
  subst ran
  exact ⟨rfl, find_modify_key CreationIndex.clash_of_operation stored⟩

/-- Publication writes the child's row, whether or not it exists. -/
theorem writeRecord_ok (child : key db record.lid = .ok current)
    (ran : writeRecord db current record record.occVersion = .ok db') :
    db' = { db with keys := db'.keys } ∧
      db'.keyRow = update db.keyRow record.lid (some (.of record)) := by
  cases current with
  | some =>
    simp only [writeRecord, Except.ok.injEq] at ran
    subst ran
    exact ⟨rfl, get?_modify_key (key_eq_some.mp child).1⟩
  | none =>
    simp only [writeRecord, eq_ok] at ran
    obtain ⟨_, inserted, rfl⟩ := ran
    exact ⟨rfl, (keyRow_insert? inserted).2⟩

section
variable [UuidText] [Blake3] [IntentEncoding]

/-- A row that decodes: its columns repeat the journal, and bytes are stored
    exactly from the staged phase on. -/
structure Bound (row : CreationIndex × CreationRow) (material : ParentWrappedMaterial) : Prop where
  valid : row.2.journal.Valid
  given : row.2.journal.request.material = .ok material
  index : row.1 = creationIndex row.2.journal.request material
  phase : row.2.phase = row.2.journal.phase
  bytes : row.2.envelope.isSome = true ↔ row.2.phase ≠ .reserved

theorem decode_ok (decoded : decode row = .ok value) :
    value = row.2.journal ∧ ∃ material, Bound row material := by
  simp only [decode, eq_ok, not_or, not_not] at decoded
  obtain ⟨_, valid, material, given, _, ⟨index, phase⟩, _, stored, rfl⟩ := decoded
  refine ⟨rfl, material, CreationJournal.validate_eq_ok.mp valid, given, index, phase, ?_⟩
  rw [phase]
  cases envelope : row.2.envelope with
  | none =>
    rw [envelope, validateStored, refuseIf_eq_ok, not_not] at stored
    simp [stored]
  | some =>
    simp only [envelope, validateStored, eq_ok] at stored
    simp [stored.choose_spec.1]

/-- A journal that was found is a decoded row, or a committed retired one. -/
theorem journal_ok (found : journal db operation = .ok (some value)) :
    (∃ row material, storedJournal db operation = some row ∧ value = row.2.journal ∧
        Bound row material) ∨
      storedJournal db operation = none ∧ value.phase = .committed := by
  rw [journal] at found
  cases stored : storedJournal db operation with
  | some row =>
    simp only [stored, eq_ok, Option.some.injEq] at found
    obtain ⟨_, decoded, rfl⟩ := found
    obtain ⟨same, material, bound⟩ := decode_ok decoded
    exact .inl ⟨row, material, rfl, same, bound⟩
  | none =>
    simp only [stored, retiredJournal] at found
    split at found
    next => simp at found
    next =>
      simp only [eq_ok, Option.some.injEq, not_or, not_not]
        at found
      obtain ⟨_, _, _, ⟨_, phase⟩, rfl⟩ := found
      exact .inr ⟨rfl, phase⟩

/-- An unfinished journal is that of a stored row. -/
theorem stored_of_unfinished (found : journal db operation = .ok (some value))
    (unfinished : value.phase ≠ .committed) : ∃ row material,
      storedJournal db operation = some row ∧ value = row.2.journal ∧ Bound row material :=
  (journal_ok found).resolve_right fun retired => unfinished retired.2

theorem journal_none (absent : journal db operation = .ok none) :
    storedJournal db operation = none ∧ db.retiredCreationJournal.get? operation = none := by
  rw [journal] at absent
  cases stored : storedJournal db operation with
  | some =>
    simp only [stored, eq_ok, reduceCtorEq, and_false, exists_false] at absent
  | none =>
    simp only [stored, retiredJournal, select?_primary] at absent
    refine ⟨rfl, ?_⟩
    cases retired : db.retiredCreationJournal.get? operation with
    | none => rfl
    | some =>
      simp only [retired, Option.map_some, eq_ok, reduceCtorEq, and_false, exists_false] at absent

theorem requiredJournal_eq_ok :
    requiredJournal db operation = .ok value ↔ journal db operation = .ok (some value) := by
  simp only [requiredJournal, eq_ok, exists_eq_right]

theorem save_ok (stored : storedJournal db operation = some row) (saved : save db value = .ok db')
    (own : value.request.operation = operation) :
    value.Valid ∧ db' = { db with creationJournal := db'.creationJournal } ∧
      storedJournal db' = update (storedJournal db) operation
        (some (row.1, { row.2 with journal := value, phase := value.phase })) := by
  subst own
  simp only [save, encode, eq_ok] at saved
  obtain ⟨_, ⟨_, valid, _⟩, _, _, rfl⟩ := saved
  exact ⟨CreationJournal.validate_eq_ok.mp valid, rfl,
    find_modify_key CreationIndex.clash_of_operation stored⟩

/-- A journal whose bytes can be read is a stored row. -/
theorem stored_of_envelope (found : requiredJournal db operation = .ok value)
    (read : envelope db operation = .ok bytes) :
    ∃ row material, storedJournal db operation = some row ∧ value = row.2.journal ∧
      Bound row material ∧ row.2.envelope = some bytes := by
  obtain ⟨row, stored, bytesStored⟩ := envelope_ok read
  rcases journal_ok (requiredJournal_eq_ok.mp found) with
    ⟨_, material, same, journal, bound⟩ | ⟨absent, _⟩
  · cases stored.symm.trans same
    exact ⟨row, material, stored, journal, bound, bytesStored⟩
  · rw [absent] at stored
    cases stored

/-- Storing the journal that is there changes nothing. -/
theorem save_same (bound : Bound row material)
    (stored : storedJournal db row.2.journal.request.operation = some row)
    (saved : save db row.2.journal = .ok db') : db' = db := by
  simp only [save, eq_ok] at saved
  obtain ⟨_, _, _, _, rfl⟩ := saved
  have unchanged : db.creationJournal.modify
      (fun index _ => index.operationId == row.2.journal.request.operation)
      (fun r => { r with journal := row.2.journal, phase := row.2.journal.phase }) =
        db.creationJournal := by
    apply modify_eq_self
    intro other member selected
    -- the operation is the primary key, so only this row is selected
    have same : some other = some row := by
      rw [← stored]
      exact (storedJournal_eq_some.mpr ⟨member, by simpa using selected⟩).symm
    cases same
    simp [← bound.phase]
  rw [unchanged]

/-- Nothing is owed for a creation that may be withdrawn. -/
theorem withdrawable_ok {journal : CreationJournal} (passed : journal.withdrawable = .ok u) :
    journal.phase = .reserved ∧ journal.dispatchStarted = false ∨ journal.phase = .resolved := by
  simp only [CreationJournal.withdrawable, bind_eq_ok] at passed
  obtain ⟨_, _, closes⟩ := passed
  cases phase : journal.phase with
  | reserved =>
    rw [phase, refuseIf_eq_ok, Bool.not_eq_true] at closes
    exact .inl ⟨rfl, closes⟩
  | resolved => exact .inr rfl
  | staged | committed => simp [phase] at closes

/-- A row found under an operation is the one its journal is saved under. -/
theorem Bound.operation_eq (bound : Bound row material)
    (stored : storedJournal db operation = some row) :
    row.2.journal.request.operation = operation := by
  have named := (storedJournal_eq_some.mp stored).2
  rw [bound.index, creationIndex] at named
  exact named

end
end Creation

/-! ### Migration rows -/

theorem MigrationIndex.clash_of_operation (a b : MigrationIndex)
    (same : a.operationId = b.operationId) : a.Clash b := same

namespace Migration

/-- The stored row of a migration. -/
def storedMigration (db : Db) (operation : Uuid) : Option (MigrationIndex × MigrationRow) :=
  db.migrationJournal.find MigrationIndex.operationId operation

variable {row : MigrationIndex × MigrationRow} {operation : Uuid}

theorem storedMigration_eq_some :
    storedMigration db operation = some row ↔
      row ∈ db.migrationJournal ∧ row.1.operationId = operation :=
  find_eq_some MigrationIndex.clash_of_operation

section
variable [UuidText]

/-- A row that loads: its columns repeat the journal. -/
structure Bound (row : MigrationIndex × MigrationRow) : Prop where
  valid : row.2.journal.validate = .ok ()
  index : row.1 = migrationIndex row.2.journal.request
  committed : row.2.committed = (row.2.journal.phase == .committed)

theorem Bound.operation_eq (bound : Bound row) (stored : storedMigration db operation = some row) :
    row.2.journal.request.operation = operation := by
  rw [← (storedMigration_eq_some.mp stored).2, bound.index, migrationIndex]

omit [UuidText] in
/-- The selection of `load` is the lookup by operation. -/
theorem load_selects : (db.migrationJournal.select? fun index => index.operationId == operation) =
    storedMigration db operation := rfl

theorem load_eq_some :
    load db operation = .ok (some value) ↔
      ∃ row, storedMigration db operation = some row ∧ value = row.2.journal ∧ Bound row := by
  rw [load, load_selects]
  cases storedMigration db operation with
  | none => simp
  | some row =>
    simp only [eq_ok, Option.some.injEq, not_or, not_not, exists_eq_left']
    constructor
    · rintro ⟨_, valid, _, ⟨index, committed⟩, rfl⟩
      exact ⟨rfl, valid, index, committed⟩
    · rintro ⟨rfl, bound⟩
      exact ⟨(), bound.valid, (), ⟨bound.index, bound.committed⟩, rfl⟩

theorem load_none (absent : load db operation = .ok none) :
    storedMigration db operation = none := by
  rw [load, load_selects] at absent
  cases stored : storedMigration db operation with
  | none => rfl
  | some =>
    simp only [stored, eq_ok, reduceCtorEq, and_false, exists_false] at absent

theorem required_eq_ok :
    required db operation = .ok value ↔
      ∃ row, storedMigration db operation = some row ∧ value = row.2.journal ∧ Bound row := by
  simp only [required, eq_ok, exists_eq_right, load_eq_some]

theorem save_ok (stored : storedMigration db operation = some row)
    (saved : save db value = .ok db') (own : value.request.operation = operation) :
    value.validate = .ok () ∧ db' = { db with migrationJournal := db'.migrationJournal } ∧
      storedMigration db' = update (storedMigration db) operation
        (some (row.1, ⟨value.phase == .committed, value⟩)) := by
  subst own
  simp only [save, eq_ok] at saved
  obtain ⟨_, valid, _, _, rfl⟩ := saved
  exact ⟨valid, rfl, find_modify_key MigrationIndex.clash_of_operation stored⟩

/-- The three stored records are the request's own snapshots, and none is fenced. -/
structure Snapshots (db : Db) (request : MigrationRequest) : Prop where
  valid : request.Valid
  child : key db request.child.lid = .ok (some request.child)
  unfenced : ∀ lid, (migrationIndex request).names lid = true → ¬db.Fenced lid

theorem snapshots_ok (passed : snapshots db request = .ok ()) : Snapshots db request := by
  simp only [snapshots, eq_ok, requiredKey_eq_ok, checkAll_eq_ok, destructionGuard_eq_ok,
    List.forall_mem_cons, MigrationRequest.validateSnapshots] at passed
  obtain ⟨child, childKey, _, oldKey, _, newKey, _, ⟨childFree, oldFree, newFree, _⟩, _, valid,
    ⟨_, compared, accepted⟩, _⟩ := passed
  have childSame : request.child = child := eq_of_sameJson compared accepted
  refine ⟨MigrationRequest.validate_valid valid, childSame ▸ childKey, ?_⟩
  intro _ named
  simp only [migrationIndex, MigrationIndex.names, Bool.or_eq_true, beq_iff_eq] at named
  -- `key` returns a record under its own identifier
  rcases named with (rfl | rfl) | rfl
  · exact (key_eq_some.mp childKey).2 ▸ childFree
  · exact (key_eq_some.mp oldKey).2 ▸ oldFree
  · exact (key_eq_some.mp newKey).2 ▸ newFree

end
end Migration

/-! ### Destruction -/

theorem DestructionIndex.clash_of_lid (a b : DestructionIndex) (same : a.lid = b.lid) :
    a.Clash b := .inl same

namespace Destruction

/-- The stored row of a claim. -/
def storedClaim (db : Db) (lid : Lid) : Option (DestructionIndex × DestructionRow) :=
  db.destructionJournal.find DestructionIndex.lid lid

theorem storedClaim_eq_some :
    storedClaim db lid = some row ↔ row ∈ db.destructionJournal ∧ row.1.lid = lid :=
  find_eq_some DestructionIndex.clash_of_lid

theorem storedClaim_eq_none : storedClaim db lid = none ↔ ¬db.Fenced lid := by
  rw [storedClaim, find_eq_none, Db.Fenced]
  push Not
  rfl

theorem saveKey_ok (saved : saveKey db record expected = .ok db') :
    db' = { db with keys := db'.keys } ∧
      db'.keyRow = update db.keyRow record.lid (some (.of record)) := by
  simp only [saveKey, eq_ok, toI64_eq_ok, not_not] at saved
  obtain ⟨_, _, _, ⟨_, rfl⟩, _, ⟨_, rfl⟩, _, one, rfl⟩ := saved
  obtain ⟨_, stored, column⟩ := matchingRows_ne_zero (by rw [one]; decide)
  refine ⟨rfl, ?_⟩
  rw [← column]
  exact keyRow_updateKeyRow record record.occVersion stored

/-- The schedule table is written after the key, so the two writes commute. -/
theorem saveKey_schedules (saved : saveKey db record expected = .ok db')
    (deletionSchedules : Table Lid DeletionSchedule Eq) :
    { db' with deletionSchedules } = { db with keys := db'.keys, deletionSchedules } := by
  rw [(saveKey_ok saved).1]

theorem foldlM_includeRow_ok {rows : List (Lid × KeyRow)}
    (folded : rows.foldlM (includeRow lid) counts = .ok counts') :
    (rows.map (·.2.record)).foldlM (·.includeRecord lid ·) counts = .ok counts' := by
  induction rows generalizing counts with
  | nil => exact folded
  | cons _ _ ih =>
    simp only [List.foldlM_cons, includeRow, eq_ok] at folded
    obtain ⟨next, ⟨_, _, included⟩, later⟩ := folded
    rw [List.map_cons, List.foldlM_cons, included]
    exact ih later

section
variable [UuidText]

/-- An intent that is accepted leaves no journal in flight. -/
theorem not_inFlight_of_validateIntent (observed : dependencies db lid = .ok counts)
    (accepted : counts.validateIntent intent = .ok u) : ¬db.Creating lid ∧ ¬db.Migrating lid := by
  simp only [dependencies, eq_ok] at observed
  obtain ⟨_, _, _, fold, _, _, _, _, rfl⟩ := observed
  -- the scan of the records leaves the two counts as the queries made them
  obtain ⟨_, creating, migrating, _⟩ := foldlM_includeRecord_ok .nil (foldlM_includeRow_ok fold)
  obtain ⟨⟨creations, migrations⟩, _⟩ := validateIntent_eq_ok.mp accepted
  rw [creating, journalCounts, count_eq_zero] at creations
  rw [migrating, journalCounts, count_eq_zero] at migrations
  constructor
  · rintro ⟨row, member, pending, named⟩
    have settled := creations row member
    simp [pending, named] at settled
  · rintro ⟨row, member, pending, named⟩
    have settled := migrations row member
    simp [pending, named] at settled

theorem recordLossMarkers_ok (marked : recordLossMarkers db lid = .ok db') :
    db' = { db with destroyedWrappingParents := db'.destroyedWrappingParents } := by
  simp only [recordLossMarkers, bind_eq_ok] at marked
  obtain ⟨_, _, fold⟩ := marked
  refine foldlM_invariant
    (P := fun d => d = { db with destroyedWrappingParents := d.destroyedWrappingParents })
    ?_ fold rfl
  intro _ _ _ step frame
  simp only [markEdge, bind_eq_ok] at step
  obtain ⟨_, _, rest⟩ := step
  split at rest
  · cases pure_eq_ok.mp rest
    rw [frame]
  · cases pure_eq_ok.mp rest
    exact frame

end

theorem transition_ok (moved : transition lid record target now = .ok next) :
    record.transitionAllowed target = true ∧
      next = { record with
        wasCompromised := record.hasCompromiseHistory || target == .compromised
        state := target
        occVersion := wrappingSucc record.occVersion
        updatedAt := now } := by
  unfold transition at moved
  split at moved
  next => cases moved
  next returned =>
    cases moved
    -- a move that returned `Ok` was allowed
    rcases transitionTo_cases returned with ⟨failed, _⟩ | ⟨_, allowed, rfl⟩
    · cases failed
    · exact ⟨allowed, rfl⟩

theorem checkedRecord_ok (checked : checkedRecord db lid expected = .ok record) :
    key db lid = .ok (some record) ∧ record.occVersion = expected ∧
      wrappingSucc record.occVersion = record.occVersion + 1 := by
  simp only [checkedRecord, eq_ok, requiredKey_eq_ok, not_not, not_or, not_le] at checked
  obtain ⟨_, stored, _, rfl, _, ⟨_, below⟩, rfl⟩ := checked
  exact ⟨stored, rfl, wrappingSucc_eq_iff.mpr (below.trans (by decide))⟩

theorem prepareClaim_ok (prepared : prepareClaim record expected now = .ok claimed) :
    record.occVersion = expected ∧ record.state = .pendingDeletion ∧
      validateDestructionHistory record = .ok () ∧ record.occVersion + 2 ≤ i64Max ∧
      claimed = { record with occVersion := record.occVersion + 1, updatedAt := now } := by
  simp only [prepareClaim, eq_ok, not_or, not_not] at prepared
  obtain ⟨_, rfl, _, ⟨pending, _⟩, _, history, _, ⟨_, bounded⟩, rfl⟩ := prepared
  exact ⟨rfl, pending, history, by unfold i64Max at *; omega, rfl⟩

/-- The history does not depend on the counter or the clock. -/
theorem validateDestructionHistory_claimed (record : KeyRecord) (occVersion : Nat)
    (now : DateTime) :
    validateDestructionHistory { record with occVersion, updatedAt := now } =
      validateDestructionHistory record := by
  have versions (list : List KeyVersionRecord) (seen : List Nat) :
      validateVersions { record with occVersion, updatedAt := now } list seen =
        validateVersions record list seen := by
    induction list generalizing seen with
    | nil => rfl
    | cons version _ ih =>
      simp only [validateVersions, ih]
      cases version.material <;> rfl
  simp only [validateDestructionHistory, versions]
  rfl

theorem issue_ok (recovered : Bool) (assigned : operation.isNil = false)
    (history : validateDestructionHistory record = .ok ())
    (pending : record.state = .pendingDeletion) :
    ∃ claim, DestructionClaim.issue operation record recovered = .ok claim ∧
      claim.operation = operation ∧ claim.record = record := by
  unfold DestructionClaim.issue
  rw [dif_pos ⟨assigned, pending⟩]
  split
  next => exact ⟨_, rfl, rfl, rfl⟩
  next failed =>
    rw [history] at failed
    cases failed

theorem issueClaim_ok
    (issued : DestructionClaim.issue claimed.operation claimed.record claimed.recovered =
      .ok claim) : issueClaim (some claimed) = .ok (.claimed (some claim)) := by
  rw [issueClaim, issued]
  rfl

private theorem numbered_of_validateVersions
    (passed : validateVersions record versions seen = .ok u) :
    ∀ version ∈ versions, version.versionNumber ≠ 0 := by
  induction versions generalizing seen with
  | nil => simp
  | cons _ _ ih =>
    simp only [validateVersions, eq_ok, not_or] at passed
    obtain ⟨_, ⟨nonzero, _⟩, _, _, rest⟩ := passed
    exact List.forall_mem_cons.mpr ⟨nonzero, ih rest⟩

/-- A claimed record can be stored: no version of it is numbered zero. -/
theorem serializable_claim (claim : DestructionClaim) : serializable claim.record = true := by
  have history := claim.history
  simp only [validateDestructionHistory, eq_ok] at history
  obtain ⟨_, _, versions⟩ := history
  simp only [serializable, List.all_eq_true, Bool.or_eq_true, bne_iff_ne]
  exact fun version member => .inr (numbered_of_validateVersions versions version member)

/-- A claim completes the record that it was made for, while the counter has room. -/
theorem completedRecord_eq_ok :
    completedRecord claim current now = .ok record ↔
      current = claim.record ∧ claim.record.occVersion < i64Max ∧
      record = { claim.record with
        occVersion := claim.record.occVersion + 1, state := .destroyed, updatedAt := now } := by
  have stored := serializable_claim claim
  simp only [completedRecord, eq_ok, Option.filter_eq_some_iff, checkedSucc_eq_some,
    decide_eq_true_eq]
  constructor
  · rintro ⟨_, compared, _, accepted, _, ⟨⟨_, rfl⟩, bounded⟩, rfl⟩
    cases eq_of_sameJson compared accepted
    exact ⟨rfl, bounded, rfl⟩
  · rintro ⟨rfl, room, rfl⟩
    exact ⟨true, sameJson_eq_ok.mpr ⟨stored, stored, by simp⟩, (), by simp, _,
      ⟨⟨by unfold u64Max i64Max at *; omega, rfl⟩, room⟩, rfl⟩

end Destruction
end KeyRack.Sqlite
