import KeyRack.Properties.DestructionFence
import KeyRack.Properties.EnvelopeBinding

/-!
# Envelopes are kept while a key needs them

An envelope leaves the tables in two ways: the migration of its key replaces it,
or the destruction of its key erases it. A version that a publication or a
migration wrote therefore keeps its bytes until the next migration writes it
again or the key is destroyed. Reading them also takes a reference that leads to
them, which nothing checks when a creation is reserved.
-/
namespace KeyRack.Sqlite

open Fallible Migration Trace Function List Creation Option EnvelopeReference

/-! ### Journal entries -/

section
variable [UuidText]

/-- The text under which a journal holds an envelope. -/
def EnvelopeReference.text : EnvelopeReference → String
  | .creation operation => "creation:" ++ UuidText.display operation
  | .migration operation number => MigrationRequest.envelopeReference operation number

/-- The key still needs this entry: it is not destroyed, and one of its versions has
    the entry's text as its reference. -/
def Needs (record : KeyRecord) (entry : EnvelopeReference) : Prop :=
  record.state ≠ .destroyed ∧ ∃ version ∈ record.keyVersions, ∃ material,
    version.material = .parentWrapped material ∧
      material.wrappedMaterialRef.asStr = EnvelopeReference.text entry

/-- The text of a migration's reference tells its operation and its version. -/
theorem EnvelopeReference.text_eq_envelopeReference
    (same : text entry = MigrationRequest.envelopeReference operation number) :
    entry = .migration operation number := by
  have texts := congrArg String.toList same
  rw [toList_envelopeReference] at texts
  cases entry with
  | creation =>
    -- the tags differ in their first letter
    simp [text, String.toList_append] at texts
  | migration other =>
    rw [text, toList_envelopeReference, append_cancel_left_eq] at texts
    have parts := congrArg (Text.splitOnce ':') texts
    rw [Text.splitOnce_append (UuidText.colonless _), Text.splitOnce_append (UuidText.colonless _),
      Option.some.injEq, Prod.mk.injEq] at parts
    obtain ⟨displays, numbers⟩ := parts
    have operations : UuidText.parse (UuidText.display other) =
        UuidText.parse (UuidText.display operation) := by
      rw [String.toList_inj.mp displays]
    rw [UuidText.parse_display, UuidText.parse_display, Option.some.injEq] at operations
    rw [operations, Text.toString_injective numbers]

end

/-- The stored bytes of an entry. -/
def Db.EntryBytes (db : Db) : EnvelopeReference → Bytes → Prop
  | .creation operation, bytes =>
    ∃ row, storedJournal db operation = some row ∧ row.2.envelope = some bytes
  | .migration operation number, bytes => ((operation, number), bytes) ∈ db.migrationEnvelopes

/-- The entry was made for this key. -/
def Db.EntryOf (db : Db) (lid : Lid) : EnvelopeReference → Prop
  | .creation operation =>
    ∃ row, storedJournal db operation = some row ∧ row.1.childLid = lid
  | .migration operation _ => ∃ row, storedMigration db operation = some row ∧ row.1.childLid = lid

/-- The entry was made for this key and is committed. -/
def Db.CommittedFor (db : Db) (lid : Lid) : EnvelopeReference → Prop
  | .creation operation =>
    ∃ row, storedJournal db operation = some row ∧ row.1.childLid = lid ∧ row.2.phase = .committed
  | .migration operation _ =>
    ∃ row, storedMigration db operation = some row ∧ row.1.childLid = lid ∧ row.2.committed = true

section
variable [UuidText] [Blake3] [IntentEncoding]

/-- The committed entry of a key can be read. -/
structure Db.Retains (db : Db) (lid : Lid) (entry : EnvelopeReference) (bytes : Bytes) : Prop where
  committed : db.CommittedFor lid entry
  read : readReference db entry = .ok bytes

variable {db : Db} {lid : Lid} {entry : EnvelopeReference} {bytes : Bytes}

theorem Db.Retains.entryBytes (retains : db.Retains lid entry bytes) :
    db.EntryBytes entry bytes := by
  cases entry with
  | creation => exact committedEnvelope_ok retains.read
  | migration => exact (committedVersion_ok retains.read).1

/-! ### What a step does to the envelopes -/

/-- The two steps that retire the committed entries of a child. -/
inductive Retirement (db db' : Db) (child : Lid) : Op → Prop where
  | migrate {journal : MigrationJournal} (stored : storedMigration db operation = some row)
      (bound : Bound row) (staged : row.2.journal.phase = .staged)
      (valid : row.2.journal.request.Valid) (own : row.2.journal.request.child.lid = child)
      (request : journal.request = row.2.journal.request)
      (committed : storedMigration db' operation = some (row.1, ⟨true, journal⟩)) :
      Retirement db db' child (.commitMigration operation ownership)
  | complete {claim : DestructionClaim} (own : claim.record.lid = child)
      (stored : Destruction.storedClaim db child = some row)
      (completed : Destruction.storedClaim db' child =
        some (row.1, { row.2 with completed := true }))
      (destroyed : db'.keyRow child = some (.of (destroyedRecord claim.record now))) :
      Retirement db db' child (.completeDestruction claim now)

/-- The tables without the committed entries of a child. -/
structure Erases (db db' : Db) (child : Lid) : Prop where
  creations : db'.creationJournal = db.creationJournal.delete fun index row =>
    index.childLid == child && row.phase == .committed
  migrations : db'.migrationEnvelopes = db.migrationEnvelopes.delete fun staged _ =>
    db.migrationJournal.any fun index row =>
      index.operationId == staged.1 && index.childLid == child && row.committed

section
omit [UuidText] [Blake3] [IntentEncoding]

variable {db db' : Db} (erases : Erases db db' child)

include erases

theorem Erases.storedJournal (operation : Uuid) :
    storedJournal db' operation =
      (storedJournal db operation).filter fun row => !retiresRow child row := by
  rw [Creation.storedJournal, erases.creations]
  exact Table.find_delete CreationIndex.clash_of_operation

/-- The bytes of a migration leave if its row is a committed one of the child. -/
theorem Erases.mem_envelopes (stored : storedMigration db operation = some row) :
    ((operation, number), bytes) ∈ db'.migrationEnvelopes ↔
      ((operation, number), bytes) ∈ db.migrationEnvelopes ∧
        ¬(row.1.childLid = child ∧ row.2.committed = true) := by
  obtain ⟨rowMember, rowOperation⟩ := storedMigration_eq_some.mp stored
  rw [erases.migrations, Table.mem_delete, Table.any_eq_false]
  refine and_congr_right fun _ => ⟨fun none => ?_, fun apart other member => ?_⟩
  · have own := none row rowMember
    rintro ⟨sameChild, committed⟩
    simp [rowOperation, sameChild, committed] at own
  · by_cases named : other.1.operationId = operation
    · -- the operation is the primary key of the journal
      have unique : some other = some row :=
        (storedMigration_eq_some.mpr ⟨member, named⟩).symm.trans stored
      cases unique
      by_cases sameChild : row.1.childLid = child
      · simpa [named, sameChild] using apart
      · simp [sameChild]
    · simp [named]

end

variable {operation : Uuid} {db' : Db} {op : Op}

/-- Committed creations and staged bytes stay, but for the retirement of a child. -/
theorem Effect.envelopes (effect : Effect db op result db') :
    ((∀ operation row, storedJournal db operation = some row →
        row.2.phase = .committed → storedJournal db' operation = some row) ∧
      ∀ staged ∈ db.migrationEnvelopes, staged ∈ db'.migrationEnvelopes) ∨
      ∃ child, Retirement db db' child op ∧ Erases db db' child := by
  cases effect with
  | reserve validated valid unused unretired free rows =>
    exact .inl ⟨(CreationWrite.reserve validated valid unretired free).committed_kept unused rows,
      fun _ member => member⟩
  | advance stored bound unfinished step valid rows =>
    exact .inl ⟨(CreationWrite.advance bound unfinished step valid).committed_kept stored rows,
      fun _ member => member⟩
  | @publish _ _ _ _ _ _ owner revision stored bound resolved _ _ keyRows valid rows =>
    refine .inl ⟨CreationWrite.committed_kept (@CreationWrite.publish _ _ _ _ _ _ _ owner revision
      _ bound resolved ?_ valid) stored rows, fun _ member => member⟩
    exact (congrFun keyRows _).trans (update_self ..)
  | withdraw stored bound closed rows =>
    exact .inl ⟨(CreationWrite.withdraw bound closed).committed_kept stored rows,
      fun _ member => member⟩
  | stageMigration stored _ _ _ _ _ bytes =>
    exact .inl ⟨fun _ _ stored _ => stored, fun staged member =>
      (bytes staged).mpr (.inl member)⟩
  | migrate stored bound staged snapshots same _ _ _ _ rows =>
    have committed := (congrFun rows _).trans (update_self ..)
    exact .inr ⟨_, .migrate stored bound staged snapshots.valid rfl same.request committed, rfl,
      rfl⟩
  | complete stored _ _ _ _ _ keyRows rows =>
    refine .inr ⟨_, .complete rfl stored ?_ ?_, rfl, rfl⟩
    · exact (congrFun rows _).trans (update_self ..)
    · exact (congrFun keyRows _).trans (update_self ..)
  | _ => exact .inl ⟨fun _ _ stored _ => stored, fun _ member => member⟩

/-! ### Reading is decided by the entry alone -/

variable {row : CreationIndex × CreationRow}

theorem committedEnvelope_congr (before : storedJournal db operation = some row)
    (after : storedJournal db' operation = some row) :
    committedEnvelope db' operation = committedEnvelope db operation := by
  simp only [committedEnvelope, requiredJournal, journal, envelope, before, after]

theorem readReference_migration
    (same : storedMigration db' operation = storedMigration db operation)
    (kept : ((operation, number), bytes) ∈ db'.migrationEnvelopes)
    (read : readReference db (.migration operation number) = .ok bytes) :
    readReference db' (.migration operation number) = .ok bytes := by
  have staged : stagedEnvelope db' operation number = .ok bytes := stagedEnvelope_eq_ok.mpr kept
  simp only [readReference, committedVersion, eq_ok, required_eq_ok, same, staged] at read ⊢
  obtain ⟨value, found, u, committed, old, _, _, verified, rfl⟩ := read
  exact ⟨value, found, u, committed, old, rfl, (), verified, rfl⟩

/-- The entry of a key stays readable until the key's entries are retired. -/
theorem StorageStep.retains (step : StorageStep db (op, result) db')
    (retains : db.Retains lid entry bytes) :
    db'.Retains lid entry bytes ∨ Retirement db db' lid op := by
  obtain ⟨committed, read⟩ := retains
  cases entry with
  | creation operation =>
    obtain ⟨row, stored, own, phase⟩ := committed
    have kept (after : storedJournal db' operation = some row) :
        db'.Retains lid (.creation operation) bytes :=
      ⟨⟨row, after, own, phase⟩, (committedEnvelope_congr stored after).trans read⟩
    rcases step.effect.envelopes with ⟨creations, _⟩ | ⟨child, retirement, erases⟩
    · exact .inl (kept (creations operation row stored phase))
    · by_cases same : lid = child
      · exact .inr (same ▸ retirement)
      · refine .inl (kept ?_)
        rw [erases.storedJournal, stored, filter_some, if_pos]
        simp [retiresRow, own, same]
  | migration operation number =>
    obtain ⟨row, stored, own, phase⟩ := committed
    obtain ⟨_, after, _, final⟩ := step.migrations operation row stored
    cases final phase
    have kept (member : ((operation, number), bytes) ∈ db'.migrationEnvelopes) :
        db'.Retains lid (.migration operation number) bytes :=
      ⟨⟨row, after, own, phase⟩, readReference_migration (after.trans stored.symm) member read⟩
    have present : ((operation, number), bytes) ∈ db.migrationEnvelopes :=
      (committedVersion_ok read).1
    rcases step.effect.envelopes with ⟨_, migrations⟩ | ⟨child, retirement, erases⟩
    · exact .inl (kept (migrations _ present))
    · by_cases same : lid = child
      · exact .inr (same ▸ retirement)
      · refine .inl (kept ?_)
        -- the operation's row names another child
        refine (erases.mem_envelopes stored).mpr ⟨present, ?_⟩
        rintro ⟨sameChild, _⟩
        exact same (own.symm.trans sameChild)

/-! ### What a publication and a commit leave -/

/-- The call has stored this version, with its envelope under this entry. A retry
    finds the version there and changes nothing. -/
inductive Writes (db db' : Db) (lid : Lid) :
    Event → KeyVersionRecord → EnvelopeReference → Prop where
  | publish (operation : Uuid) (owner : CreationOwner) (revision : Nat) (record : KeyRecord)
      (version : KeyVersionRecord) (own : record.lid = lid) (first : db' ≠ db)
      (primary : record.primaryVersion = some version) :
      Writes db db' lid (.publishCreation operation owner revision, .ok (.record record)) version
        (.creation operation)
  | commit (operation : Uuid) (ownership : MigrationOwnership) (record : KeyRecord)
      (version : KeyVersionRecord) (own : record.lid = lid) (first : db' ≠ db)
      (member : version ∈ record.keyVersions) :
      Writes db db' lid (.commitMigration operation ownership, .ok (.record record)) version
        (.migration operation version.versionNumber)

/-- The key has this version with the material that was written, and the entry with
    its envelope can be read. -/
structure Db.Stands (db : Db) (lid : Lid) (version : KeyVersionRecord)
    (entry : EnvelopeReference) : Prop where
  current : ∃ record found, key db lid = .ok (some record) ∧
    record.getVersion version.versionNumber = some found ∧ found.material = version.material
  wrapped : ∃ material, version.material = .parentWrapped material
  retained : ∃ bytes, db.Retains lid entry bytes

variable {record : KeyRecord}

open Creation in
theorem publishA2_decodes (ran : publishA2 operation owner revision db = .ok (record, db'))
    (stored : storedJournal db operation = some row) : decode row = .ok row.2.journal := by
  simp only [publishA2, requiredJournal, journal, stored, eq_ok]
    at ran
  obtain ⟨_, ⟨_, ⟨_, decoded, rfl⟩, _⟩, _⟩ := ran
  rw [decoded, (decode_ok decoded).1]

variable {material : ParentWrappedMaterial}

open Creation in
/-- The bytes of a row that decoded can be read once the row is published. -/
theorem committedEnvelope_published (decoded : decode row = .ok row.2.journal)
    (bound : Bound row material) (staged : row.2.phase ≠ .reserved)
    (valid : (publishedJournal row.2.journal).Valid)
    (stored : storedJournal db operation = some (row.1, publishedRow row.2)) :
    ∃ bytes, committedEnvelope db operation = .ok bytes := by
  obtain ⟨bytes, present⟩ := isSome_iff_exists.mp (bound.bytes.mpr staged)
  have digest : ¬(bytes = [] ∨ bytes.length > maxCreationEnvelopeBytes ∨
      row.2.journal.envelopeDigest ≠ some (Blake3.hash bytes)) := by
    simp only [decode, present, validateStored, validateEnvelope, eq_ok]
      at decoded
    obtain ⟨_, _, _, _, _, _, _, ⟨_, _, _, _, checked⟩, _⟩ := decoded
    exact checked
  -- publication keeps the digest, so the same check passes for the new journal
  have checked : validateEnvelope (publishedJournal row.2.journal) bytes = .ok () := by
    simp only [validateEnvelope, eq_ok]
    exact ⟨(), CreationJournal.validate_eq_ok.mpr valid, digest⟩
  have decodes : decode (row.1, publishedRow row.2) = .ok (publishedJournal row.2.journal) := by
    simp only [decode, publishedRow, present, validateStored, eq_ok, and_true]
    refine ⟨(), CreationJournal.validate_eq_ok.mpr valid, material, bound.given, (), ?_, (), (),
      ?_, checked⟩
    · simp [bound.index, publishedJournal]
    · simp [publishedJournal]
  refine ⟨bytes, ?_⟩
  simp only [committedEnvelope, requiredJournal, journal, envelope, stored, decodes, eq_ok]
  exact ⟨_, ⟨_, ⟨_, rfl, rfl⟩, rfl⟩, (), by simp [publishedJournal], bytes,
    ⟨_, rfl, present⟩, (), checked, rfl⟩

variable {ownership : MigrationOwnership} {version : KeyVersionRecord}

/-- A published version is in the key table and can be read. -/
theorem stands_of_publish
    (step : StorageStep db (.publishCreation operation owner revision, .ok (.record record)) db')
    (first : db' ≠ db) (primary : record.primaryVersion = some version) :
    db'.Stands record.lid version (.creation operation) := by
  obtain ⟨_, impossible, _⟩ | ⟨_, ran, same⟩ := transact_cases step
  · cases impossible
  cases step.effect with
  | repeated => exact absurd rfl first
  | advance _ _ _ change => cases change
  | @publish _ row _ _ keys creations _ _ stored bound resolved _ _ keyRows valid rows =>
    have published : storedJournal { db with keys, creationJournal := creations }
        operation = some (row.1, publishedRow row.2) :=
      (congrFun rows operation).trans (update_self ..)
    have staged : row.2.phase ≠ .reserved := by
      rw [bound.phase, resolved]
      decide
    obtain ⟨_, found, wrapped⟩ := CreationRequest.material_ok bound.given
    cases primary.symm.trans found
    obtain ⟨bytes, read⟩ := committedEnvelope_published (publishA2_decodes ran stored) bound
      staged valid published
    refine ⟨⟨row.2.journal.request.record, version, ?_, ?_, rfl⟩, ⟨_, wrapped⟩, bytes,
      ⟨_, published, ?_, rfl⟩, read⟩
    · exact key_eq_some.mpr ⟨(congrFun keyRows _).trans (update_self ..), rfl⟩
    · rw [(CreationRequest.primaryVersion_number primary).2]
      exact primary
    · rw [bound.index, creationIndex]

/-- So are the versions of a committed migration. -/
theorem stands_of_commit
    (step : StorageStep db (.commitMigration operation ownership, .ok (.record record)) db')
    (first : db' ≠ db) (member : version ∈ record.keyVersions) :
    db'.Stands record.lid version (.migration operation version.versionNumber) := by
  obtain ⟨_, impossible, _⟩ | ⟨_, ran, same⟩ := transact_cases step
  · cases impossible
  cases same
  obtain ⟨row, stored, bound, _, rfl, ⟨_, same⟩ | ⟨staged, verified, snapshots, result, retired,
    keys, migrations, validated, _, keyRows, rows, rfl⟩⟩ := migrationCommit_ok ran
  · exact absurd same first
  have valid := snapshots.valid
  have committed : migrations.find MigrationIndex.operationId operation =
      some (row.1, ⟨true, { row.2.journal with result, phase := .committed }⟩) :=
    (congrFun rows operation).trans (update_self ..)
  simp only [verifyStaged, bind_eq_ok, checkAll_eq_ok] at verified
  obtain ⟨_, _, all⟩ := verified
  obtain ⟨bytes, present, checked⟩ := all version member
  have own : Bound (row.1, ⟨true, { row.2.journal with result, phase := .committed }⟩) :=
    ⟨validated, bound.index, rfl⟩
  -- the migration's row was not yet committed, so its own bytes are not retired
  have erases : Erases db { retireChild db row.2.journal.request.child.lid retired with
      keys, migrationJournal := migrations } row.2.journal.request.child.lid := ⟨rfl, rfl⟩
  have kept := (erases.mem_envelopes stored).mpr ⟨stagedEnvelope_eq_ok.mp present, by
    simp [bound.committed, staged]⟩
  refine ⟨⟨row.2.journal.request.proposed, version, ?_, valid.getVersion member, rfl⟩, ?_, bytes,
    ⟨_, committed, ?_, rfl⟩, ?_⟩
  · rw [valid.proposed_lid]
    exact key_eq_some.mpr ⟨(congrFun keyRows _).trans (update_self ..), valid.proposed_lid⟩
  · obtain ⟨material, made, _⟩ := valid.rewrapped version member
    exact ⟨material, made⟩
  · rw [bound.index, migrationIndex, valid.proposed_lid]
  · simp only [readReference, committedVersion, eq_ok]
    exact ⟨_, required_eq_ok.mpr ⟨_, committed, rfl, own⟩, (), by simp, bytes,
      stagedEnvelope_eq_ok.mpr kept, (), checked, rfl⟩

variable {event : Event}

theorem Writes.stands (writes : Writes db db' lid event version entry)
    (step : StorageStep db event db') : db'.Stands lid version entry := by
  cases writes with
  | publish _ _ _ _ _ own first primary =>
    exact own ▸ stands_of_publish step first primary
  | commit _ _ _ _ own first member =>
    exact own ▸ stands_of_commit step first member

/-! ### A written version stands until it is written again -/

/-- No write of the row loses a wrapped version, but a migration rewrites it. -/
theorem KeyWrite.versionKept (write : KeyWrite db db' op (some old) new)
    (found : old.getVersion number = some version)
    (wrapped : version.material = .parentWrapped material) :
    (∃ later, new.getVersion number = some later ∧ later.material = version.material) ∨
      Retirement db db' new.lid op := by
  cases write with
  | update change =>
    have history : Migration.hasWrapped old = true := by
      refine any_eq_true.mpr ⟨version, mem_of_find?_eq_some found, ?_⟩
      rw [wrapped]
      rfl
    have same : (latched _).keyVersions = old.keyVersions := change.versions history
    refine .inl ⟨version, ?_, rfl⟩
    rw [KeyRecord.getVersion, same]
    exact found
  | publish _ _ _ accepted =>
    cases accepted with
    | next _ _ _ _ _ proposal =>
      refine .inl ⟨{ version with isPrimary := false }, ?_, rfl⟩
      -- the old versions come first in the new history
      have kept : (old.keyVersions.map fun v => { v with isPrimary := false }).find?
          (fun v => v.versionNumber == number) = some { version with isPrimary := false } := by
        rw [List.find?_map]
        exact congrArg (Option.map _) found
      rw [proposal, CreationRequest.proposed, KeyRecord.getVersion, List.find?_append, kept,
        some_or]
  | migrate stored bound staged valid request committed =>
    exact .inr (.migrate stored bound staged valid valid.proposed_lid.symm request committed)
  | schedule | cancel | claim | complete => exact .inl ⟨version, found, rfl⟩

/-- The destruction of the key is complete. -/
def Db.Closed (db : Db) (lid : Lid) : Prop :=
  (∃ row, Destruction.storedClaim db lid = some row ∧ row.2.completed = true) ∧
    ∃ record, db.keyRow lid = some (.of record) ∧ record.state = .destroyed

theorem StorageStep.closed (step : StorageStep db event db') (exclusive : db.Exclusive)
    (closed : db.Closed lid) : db'.Closed lid := by
  obtain ⟨⟨row, stored, completed⟩, record, present, destroyed⟩ := closed
  obtain ⟨_, found, _, final⟩ := step.claims lid row stored
  cases final completed
  refine ⟨⟨row, found, completed⟩, record, ?_, destroyed⟩
  rcases step.completes exclusive stored with same | ⟨_, _, _, _, _, _, unfinished, _⟩
  · exact same.trans present
  · rw [completed] at unfinished
    cases unfinished

/-- A step that retires the entries of a key writes all its versions or closes it. -/
theorem Retirement.writes_or_closed (retirement : Retirement db db' lid op)
    (step : StorageStep db (op, result) db') (stored : key db lid = .ok (some record))
    (member : version ∈ record.keyVersions) :
    (∃ written entry, Writes db db' lid (op, result) written entry ∧
        written.versionNumber = version.versionNumber) ∨ db'.Closed lid := by
  cases retirement with
  | @migrate _ row _ _ found bound staged valid own _ committed =>
    -- the row of the migration has changed, so this is no retry
    have changed : db' ≠ db := by
      rintro rfl
      have column : row.2.committed = true :=
        congrArg (·.2.committed) (Option.some.inj (found.symm.trans committed))
      rw [bound.committed, staged] at column
      cases column
    cases step.effect with
    | failed | repeated => exact absurd rfl changed
    | advance _ _ _ change => cases change
    | ownMigration owns => cases owns
    | migrate otherStored _ _ snapshots =>
      cases found.symm.trans otherStored
      subst own
      cases stored.symm.trans snapshots.child
      have number : version.versionNumber ∈
          row.2.journal.request.proposed.keyVersions.map (·.versionNumber) := by
        rw [valid.numbers]
        exact mem_map_of_mem member
      obtain ⟨written, writtenMember, same⟩ := mem_map.mp number
      exact .inl ⟨written, _, .commit _ _ _ written valid.proposed_lid changed writtenMember,
        same⟩
  | complete _ _ completed destroyed =>
    exact .inr ⟨⟨_, completed, rfl⟩, _, destroyed, rfl⟩

theorem StorageStep.stands (step : StorageStep db event db') (stands : db.Stands lid version entry)
    (unwritten : ∀ written other, Writes db db' lid event written other →
      written.versionNumber ≠ version.versionNumber) :
    db'.Stands lid version entry ∨ db'.Closed lid := by
  obtain ⟨op, _⟩ := event
  obtain ⟨⟨record, found, stored, current, same⟩, ⟨material, wrapped⟩, bytes, retains⟩ := stands
  have number : found.versionNumber = version.versionNumber := by
    simpa using List.find?_some current
  have retired (retirement : Retirement db db' lid op) : db'.Closed lid := by
    rcases retirement.writes_or_closed step stored (mem_of_find?_eq_some current) with
      ⟨written, other, writes, again⟩ | closed
    · exact absurd (again.trans number) (unwritten written other writes)
    · exact closed
  obtain ⟨row, named⟩ := key_eq_some.mp stored
  rcases step.retains retains with kept | retirement
  · have unchanged (after : db'.keyRow lid = db.keyRow lid) : db'.Stands lid version entry :=
      ⟨⟨record, found, key_eq_some.mpr ⟨after.trans row, named⟩, current, same⟩,
        ⟨material, wrapped⟩, bytes, kept⟩
    rcases step.effect.keyRow with all | ⟨_, new, write, _, read, rows⟩
    · exact .inl (unchanged (congrFun all lid))
    · by_cases own : lid = new.lid
      · subst own
        -- the record that is written over is the one with our version
        cases stored.symm.trans read
        rcases write.versionKept current (same.trans wrapped) with ⟨later, there, material'⟩ |
          retirement
        · have after : key db' new.lid = .ok (some new) :=
            key_eq_some.mpr ⟨(congrFun rows _).trans (update_self ..), rfl⟩
          exact .inl ⟨⟨new, later, after, there, material'.trans same⟩, ⟨material, wrapped⟩,
            bytes, kept⟩
        · exact .inr (retired retirement)
      · exact .inl (unchanged (by rw [rows, update_of_ne own]))
  · exact .inr (retired retirement)

/-! ### What a retirement erases -/

variable {events : List Event}

/-- The bytes of the child's committed entries go, all others stay. -/
theorem Erases.entryBytes (erases : Erases db db' child)
    (staged : db.StagedBy events) (entry : EnvelopeReference) (bytes : Bytes) :
    db'.EntryBytes entry bytes ↔ db.EntryBytes entry bytes ∧ ¬db.CommittedFor child entry := by
  cases entry with
  | creation =>
    simp only [Db.EntryBytes, Db.CommittedFor, erases.storedJournal, filter_eq_some_iff]
    constructor
    · rintro ⟨row, ⟨stored, stays⟩, present⟩
      refine ⟨⟨row, stored, present⟩, ?_⟩
      rintro ⟨_, otherStored, own, committed⟩
      cases stored.symm.trans otherStored
      simp [retiresRow, own, committed] at stays
    · rintro ⟨⟨row, stored, present⟩, uncommitted⟩
      refine ⟨row, ⟨stored, ?_⟩, present⟩
      have apart : row.1.childLid = child → row.2.phase ≠ .committed := fun own committed =>
        uncommitted ⟨row, stored, own, committed⟩
      simpa [retiresRow, ← imp_iff_not_or] using apart
  | migration operation number =>
    constructor
    · intro present
      have before : ((operation, number), bytes) ∈ db.migrationEnvelopes := by
        have member := present
        rw [Db.EntryBytes, erases.migrations] at member
        exact (Table.mem_delete.mp member).1
      refine ⟨before, ?_⟩
      rintro ⟨_, stored, own, committed⟩
      exact ((erases.mem_envelopes stored).mp present).2 ⟨own, committed⟩
    · rintro ⟨before, uncommitted⟩
      -- staged bytes are always with a row of their operation
      obtain ⟨row, stored, _⟩ := staged.migrations _ before
      exact (erases.mem_envelopes stored).mpr ⟨before, fun ⟨own, committed⟩ =>
        uncommitted ⟨row, stored, own, committed⟩⟩

section
omit [UuidText] [Blake3] [IntentEncoding]

variable {db : Db}

theorem Db.committedFor_creation (idle : ¬db.Creating child)
    (own : db.EntryOf child (.creation operation)) :
    db.CommittedFor child (.creation operation) := by
  obtain ⟨row, stored, own⟩ := own
  refine ⟨row, stored, own, ?_⟩
  by_contra pending
  refine idle ⟨row, (storedJournal_eq_some.mp stored).1, pending, ?_⟩
  simp [CreationIndex.names, own]

theorem Db.committedFor_migration (idle : ¬db.Migrating child)
    (own : db.EntryOf child (.migration operation number)) :
    db.CommittedFor child (.migration operation number) := by
  obtain ⟨row, stored, own⟩ := own
  refine ⟨row, stored, own, ?_⟩
  by_contra pending
  refine idle ⟨row, (storedMigration_eq_some.mp stored).1, by simpa using pending, ?_⟩
  simp [MigrationIndex.names, own]

theorem Db.CommittedFor.entryOf (committed : db.CommittedFor child entry) :
    db.EntryOf child entry := by
  cases entry with
  | creation operation | migration operation number =>
    obtain ⟨row, stored, own, _⟩ := committed
    exact ⟨row, stored, own⟩

end

/-- The completion of a destruction erases the bytes of its key. -/
theorem entryBytes_complete (exclusive : db.Exclusive) (staged : db.StagedBy events)
    (step : StorageStep db (.completeDestruction claim now, .ok (.record record)) db')
    (first : db' ≠ db) (entry : EnvelopeReference) (bytes : Bytes) :
    db'.EntryBytes entry bytes ↔
      db.EntryBytes entry bytes ∧ (db.EntryOf record.lid entry → Needs record entry) := by
  cases step.effect with
  | repeated => exact absurd rfl first
  | advance _ _ _ change => cases change
  | @complete _ retired keys _ claims schedules _ stored =>
    have erases : Erases db { retireChild db claim.record.lid retired with
        keys, destructionJournal := claims, deletionSchedules := schedules } claim.record.lid :=
      ⟨rfl, rfl⟩
    rw [erases.entryBytes staged]
    refine and_congr_right fun _ => ⟨fun uncommitted own => ?_, fun needed committed => ?_⟩
    · -- a claimed key takes part in nothing unfinished, so its entries are committed
      obtain ⟨notMigrating, notCreating⟩ :=
        exclusive.not_participating (fenced_of_storedClaim stored)
      cases entry with
      | creation => exact absurd (Db.committedFor_creation notCreating own) uncommitted
      | migration => exact absurd (Db.committedFor_migration notMigrating own) uncommitted
    · exact (needed committed.entryOf).1 rfl

/-- A commit erases the bytes that the old versions of its key have referred to and
    keeps those it has staged itself. -/
theorem entryBytes_commit (exclusive : db.Exclusive) (staged : db.StagedBy events)
    (step : StorageStep db (.commitMigration operation ownership, .ok (.record record)) db')
    (first : db' ≠ db) (entry : EnvelopeReference) (bytes : Bytes) :
    db'.EntryBytes entry bytes ↔
      db.EntryBytes entry bytes ∧ (db.EntryOf record.lid entry → Needs record entry) := by
  cases step.effect with
  | repeated => exact absurd rfl first
  | advance _ _ _ change => cases change
  | @migrate _ row retired keys migrations _ _ stored bound phase snapshots =>
    have valid := snapshots.valid
    have erases : Erases db { retireChild db row.2.journal.request.child.lid retired with
        keys, migrationJournal := migrations } row.2.journal.request.child.lid := ⟨rfl, rfl⟩
    have migrating : db.Migrating row.2.journal.request.child.lid :=
      migrating_of_stored stored bound phase (by simp [migrationIndex, MigrationIndex.names])
    have pending : row.2.committed = false := by
      rw [bound.committed, phase]
      decide
    have named : row.1.childLid = row.2.journal.request.child.lid := by
      rw [bound.index, migrationIndex]
    -- the new record refers to this migration's own entries
    have needs (needed : Needs row.2.journal.request.proposed entry) :
        ∃ number, entry = .migration operation number := by
      obtain ⟨_, version, member, _, wrapped, reference⟩ := needed
      obtain ⟨_, same, _, text⟩ := valid.rewrapped version member
      cases wrapped.symm.trans same
      rw [bound.operation_eq stored] at text
      exact ⟨_, EnvelopeReference.text_eq_envelopeReference (reference.symm.trans text)⟩
    rw [erases.entryBytes staged, valid.proposed_lid]
    refine and_congr_right fun present => ⟨fun uncommitted own => ?_, fun needed committed => ?_⟩
    · cases entry with
      | creation =>
        exact absurd (Db.committedFor_creation (exclusive.not_creating migrating) own) uncommitted
      | migration other =>
        -- of the child's migrations only this one is unfinished
        obtain ⟨otherRow, otherStored, otherOwn⟩ := own
        have unfinished : otherRow.2.committed = false := by
          cases column : otherRow.2.committed with
          | false => rfl
          | true => exact absurd ⟨otherRow, otherStored, otherOwn, column⟩ uncommitted
        obtain ⟨rowMember, rowOperation⟩ := storedMigration_eq_some.mp stored
        obtain ⟨otherMember, otherOperation⟩ := storedMigration_eq_some.mp otherStored
        have rowNames : row.1.names row.2.journal.request.child.lid = true := by
          simp [MigrationIndex.names, named]
        have otherNames : otherRow.1.names row.2.journal.request.child.lid = true := by
          simp [MigrationIndex.names, otherOwn]
        obtain rfl : row = otherRow :=
          exclusive.migration_unique rowMember otherMember pending unfinished rowNames otherNames
        obtain rfl : operation = other := rowOperation.symm.trans otherOperation
        -- what it has staged is one of its proposed versions
        obtain ⟨_, againStored, _, _, _, _, _, version, _, zipped, numbered, _⟩ :=
          staged.migrations _ present
        cases stored.symm.trans againStored
        have member := (of_mem_zip zipped).1
        obtain ⟨material, made, _, text⟩ := valid.rewrapped version member
        refine ⟨?_, version, member, material, made, ?_⟩
        · rw [valid.proposal]
          rw [valid.enabled]
          decide
        · rw [text, bound.operation_eq stored, numbered, EnvelopeReference.text]
    · obtain ⟨_, rfl⟩ := needs (needed committed.entryOf)
      obtain ⟨_, otherStored, _, done⟩ := committed
      cases stored.symm.trans otherStored
      rw [pending] at done
      cases done

/-! ### Every run -/

/-- A reference that is read at all leads to the entry. -/
def Leads (version : KeyVersionRecord) (entry : EnvelopeReference) : Prop :=
  ∀ material parsed, version.material = .parentWrapped material →
    parseReference material.wrappedMaterialRef.asStr = .ok parsed → parsed = entry

/-- A published version leads to its creation if its reservation named itself; the
    reference of a migration is the journal's own. -/
theorem Writes.leads (writes : Writes db db' lid event version entry)
    (step : StorageStep db event db') (own : db.CreationsOwn) : Leads version entry := by
  intro material parsed wrapped read
  cases writes with
  | publish _ _ _ _ _ _ first primary =>
    cases step.effect with
    | repeated => exact absurd rfl first
    | advance _ _ _ change => cases change
    | publish stored bound =>
      obtain ⟨_, found, made⟩ := CreationRequest.material_ok bound.given
      cases primary.symm.trans found
      cases wrapped.symm.trans made
      obtain ⟨member, named⟩ := storedJournal_eq_some.mp stored
      rw [own _ member material bound.given parsed read, named]
  | commit _ _ _ version _ first member =>
    cases step.effect with
    | repeated => exact absurd rfl first
    | advance _ _ _ change => cases change
    | migrate stored bound _ snapshots =>
      obtain ⟨_, made, _, reference⟩ := snapshots.valid.rewrapped version member
      cases wrapped.symm.trans made
      rw [reference, bound.operation_eq stored] at read
      exact parseReference_envelopeReference read

/-- A version that stands fails to be read only for a lost parent or for a reference
    that is none. -/
theorem Db.Stands.snapshot_error (stands : db.Stands lid version entry)
    (leads : Leads version entry) (keys : db.KeysBound)
    (failed : migrationSnapshot db lid version.versionNumber = .error e) :
    e = .wrappingParentDestroyed ∨ ∃ material, version.material = .parentWrapped material ∧
      parseReference material.wrappedMaterialRef.asStr = .error e := by
  obtain ⟨⟨record, found, stored, current, same⟩, ⟨material, wrapped⟩, _, retains⟩ := stands
  have key : requiredKey db lid = .ok record := requiredKey_eq_ok.mpr stored
  have inner : found.material.requireWrapped "version is not wrapped" = .ok material := by
    rw [same, wrapped]
    rfl
  simp only [migrationSnapshot, key, current, inner, bind_eq_error, okOr_eq_error, okOr_eq_ok,
    refuseIf_eq_error, envelopeRef, keys.key_eq, reduceCtorEq, false_and, false_or, or_false,
    and_false, exists_false, Except.ok.injEq, exists_eq_left', Option.some.injEq, pure_eq_error]
    at failed
  rcases failed with ⟨_, lost⟩ | ⟨_, _, (unread | ⟨parsed, read, missing⟩) | ⟨_, _, rest⟩⟩
  · exact .inl lost.symm
  · exact .inr ⟨material, wrapped, unread⟩
  · -- the reference leads to the entry, and the entry can be read
    cases leads material parsed wrapped read
    rw [retains.read] at missing
    cases missing
  · -- the parent's own read is bound, so it fails only for a parent that is gone
    rcases rest with ⟨_, lost⟩ | ⟨_, _, _, lost⟩
    · exact .inl lost.symm
    · exact .inl lost.symm

/-- The last call of the run that has written this version of the key. -/
def WrittenBy (events : List Event) (db : Db) (lid : Lid) (version : KeyVersionRecord)
    (entry : EnvelopeReference) : Prop :=
  ∃ early event late before after, events = early ++ event :: late ∧
    Run Db.empty early before ∧ StorageStep before event after ∧
    Writes before after lid event version entry ∧
    Steps (fun s event t => StorageStep s event t ∧ ∀ written other,
      Writes s t lid event written other → written.versionNumber ≠ version.versionNumber)
      after late db

/-- The version that was written last stands in every live key. -/
theorem WrittenBy.stands (written : WrittenBy events db lid version entry)
    (stored : key db lid = .ok (some record)) (live : record.state ≠ .destroyed) :
    db.Stands lid version entry := by
  obtain ⟨_, _, _, before, _, _, run, step, writes, rest⟩ := written
  have exclusive : before.Exclusive :=
    run.invariant (fun _ _ _ step => step.exclusive) Db.exclusive_empty
  have kept : db.Exclusive ∧ (db.Stands lid version entry ∨ db.Closed lid) := by
    refine rest.invariant
      (P := fun s => s.Exclusive ∧ (s.Stands lid version entry ∨ s.Closed lid)) ?_
      ⟨step.exclusive exclusive, .inl (writes.stands step)⟩
    rintro s _ t ⟨step, unwritten⟩ ⟨exclusive, stands | closed⟩
    · exact ⟨step.exclusive exclusive, step.stands stands unwritten⟩
    · exact ⟨step.exclusive exclusive, .inr (step.closed exclusive closed)⟩
  rcases kept.2 with stands | ⟨_, _, row, destroyed⟩
  · exact stands
  · -- a closed key is not live
    cases (key_eq_some.mp stored).1.symm.trans row
    exact absurd destroyed live

theorem WrittenBy.leads (written : WrittenBy events db lid version entry)
    (named : ∀ event ∈ events, event.1.NamesItself) : Leads version entry := by
  obtain ⟨_, event, _, before, _, rfl, run, step, writes, _⟩ := written
  have own : before.CreationsOwn := by
    refine (run.restrict fun event past => named event (mem_append_left _ past)).invariant
      (fun _ _ _ step => step.1.creationsOwn step.2) ?_
    exact fun row member => absurd member (Table.not_mem_empty row)
  exact writes.leads step own

/-- **Envelope retention**: let every reservation of a run refer to its own entry if
    to any. Then in every state of the run a version of a live key that a publication
    or a migration has written last still has the written material, the bytes of its
    entry are stored, and a snapshot of it fails only for a lost parent or for a
    reference that is none. A commit or completion that takes place in this state
    keeps the bytes of other keys and those that the key needs, and no others. -/
theorem run_envelope_retained (db : Db) (events : List Event) (run : Run Db.empty events db)
    (named : ∀ event ∈ events, event.1.NamesItself) :
    (∀ lid record version entry, key db lid = .ok (some record) → record.state ≠ .destroyed →
      WrittenBy events db lid version entry →
      (∃ found, record.getVersion version.versionNumber = some found ∧
        found.material = version.material) ∧
      (∃ bytes, db.EntryBytes entry bytes) ∧
      ∀ e, migrationSnapshot db lid version.versionNumber = .error e →
        e = .wrappingParentDestroyed ∨ ∃ material, version.material = .parentWrapped material ∧
          parseReference material.wrappedMaterialRef.asStr = .error e) ∧
    ∀ op record db', (∃ operation ownership, op = .commitMigration operation ownership) ∨
        (∃ claim now, op = .completeDestruction claim now) →
      StorageStep db (op, .ok (.record record)) db' → db' ≠ db → ∀ entry bytes,
        (db'.EntryBytes entry bytes ↔
          db.EntryBytes entry bytes ∧ (db.EntryOf record.lid entry → Needs record entry)) := by
  have exclusive : db.Exclusive :=
    run.invariant (fun _ _ _ step => step.exclusive) Db.exclusive_empty
  have keys : db.KeysBound := run.invariant (fun _ _ _ step => step.keysBound) Db.keysBound_empty
  have staged : db.StagedBy events :=
    run.history (P := fun past s => s.StagedBy past) (fun _ _ _ _ step => step.stagedBy)
      Db.stagedBy_empty
  constructor
  · intro _ record _ entry stored live written
    have stands := written.stands stored live
    have leads := written.leads named
    refine ⟨?_, ?_, fun e => stands.snapshot_error leads keys⟩
    · obtain ⟨_, found, otherStored, current, same⟩ := stands.current
      cases stored.symm.trans otherStored
      exact ⟨found, current, same⟩
    · obtain ⟨bytes, retains⟩ := stands.retained
      exact ⟨bytes, retains.entryBytes⟩
  · intro _ _ _ retires step changed entry bytes
    rcases retires with ⟨_, _, rfl⟩ | ⟨_, _, rfl⟩
    · exact entryBytes_commit exclusive staged step changed entry bytes
    · exact entryBytes_complete exclusive staged step changed entry bytes

end

open Sample

/-- Everything before the publication of a creation under key 1. -/
def resolvingRun (request : CreationRequest) (closure : VerifiedA2Closure) : List Event × Db :=
  replay Db.empty [.createKey (residentRecord (sampleLid 1)), .reserveCreation request,
    .claimCreationDispatch request.operation sampleOwner,
    .stageCreation request.operation sampleOwner 1 [1, 2],
    .resolveCreation request.operation sampleOwner 2 closure]

def publishSample (request : CreationRequest) : Op :=
  .publishCreation request.operation sampleOwner 3

/-- The tables after the publication. -/
def publishedDb (request : CreationRequest) (closure : VerifiedA2Closure) : Db :=
  ((publishSample request).run (resolvingRun request closure).2).2

/-- The run that ends with the publication. -/
def publishedEvents (request : CreationRequest) (closure : VerifiedA2Closure) : List Event :=
  (resolvingRun request closure).1 ++ [(publishSample request, .ok (.record request.record))]

section
variable
  (returned : ((publishSample request).run (resolvingRun request closed).2).1 =
    .ok (.record request.record))

include returned

theorem run_published :
    Run Db.empty (publishedEvents request closed) (publishedDb request closed) :=
  (run_replay Db.empty _).append (.cons (storageStep_run returned) (.nil _))

theorem writtenBy_published (primary : request.record.primaryVersion = some version)
    (absent : ((resolvingRun request closed).2.keyRow request.record.lid).isSome = false)
    (present : key (publishedDb request closed) request.record.lid = .ok (some request.record)) :
    WrittenBy (publishedEvents request closed) (publishedDb request closed) request.record.lid
      version (.creation request.operation) := by
  have changed : publishedDb request closed ≠ (resolvingRun request closed).2 := by
    intro same
    rw [← same, (key_eq_some.mp present).1] at absent
    cases absent
  exact ⟨_, _, [], _, _, rfl, run_replay Db.empty _, storageStep_run returned,
    .publish _ _ _ _ version rfl changed primary, .nil _⟩

end

theorem creationRequest_namesItself : (Op.reserveCreation creationRequest).NamesItself :=
  (publishingOps_respect (.reserveCreation creationRequest) (by simp [publishingOps])
    Db.empty).namesItself

theorem publishedEvents_named (named : (Op.reserveCreation request).NamesItself) :
    ∀ event ∈ publishedEvents request closed, event.1.NamesItself := by
  intro event member
  have called : event.1 ∈ (publishedEvents request closed).map Prod.fst := mem_map_of_mem member
  rw [publishedEvents, map_append, resolvingRun, replay, Trace.map_fst_play] at called
  simp only [cons_append, nil_append, map_cons, map_nil, mem_cons, not_mem_nil, or_false] at called
  rcases called with same | same | same | same | same | same
  all_goals rw [same]
  · trivial
  · exact named
  all_goals trivial

/-- The version that both requests below publish. -/
def sampleVersion : KeyVersionRecord :=
  ⟨1, .parentWrapped (sampleMaterial (sampleLid 1) sampleReference), 0, true⟩

/-- The version that a publication has written keeps its bytes. -/
theorem run_envelope_retained_published :
    let db := publishedDb creationRequest sampleClosure
    (∃ bytes, db.EntryBytes (.creation ⟨1⟩) bytes) ∧
      ∀ e, migrationSnapshot db (sampleLid 2) 1 = .error e → e = .wrappingParentDestroyed ∨
        ∃ material, sampleVersion.material = .parentWrapped material ∧
          parseReference material.wrappedMaterialRef.asStr = .error e := by
  have evaluated : ((publishSample creationRequest).run
        (resolvingRun creationRequest sampleClosure).2).1 = .ok (.record creationRequest.record) ∧
      ((resolvingRun creationRequest sampleClosure).2.keyRow (sampleLid 2)).isSome = false ∧
      key (publishedDb creationRequest sampleClosure) (sampleLid 2) =
        .ok (some creationRequest.record) := by
    decide +kernel
  obtain ⟨returned, absent, stored⟩ := evaluated
  have written : WrittenBy _ _ (sampleLid 2) sampleVersion (.creation ⟨1⟩) :=
    writtenBy_published returned (by decide +kernel) absent stored
  have retained := (run_envelope_retained _ _ (run_published returned)
    (publishedEvents_named creationRequest_namesItself)).1 (sampleLid 2) creationRequest.record
      sampleVersion (.creation ⟨1⟩) stored (by decide +kernel) written
  exact retained.2

/-- The creation of key 2 by operation 2, under the reference of operation 1. -/
def misnamedRequest : CreationRequest :=
  sampleRequest ⟨2⟩ (wrappedRecord (sampleLid 2) (sampleLid 1) sampleReference)

def misnamedClosure : VerifiedA2Closure where
  claim :=
    { intentFingerprint := Blake3.hash (utf8 misnamedRequest.correlation)
      envelopeDigest := Blake3.hash [1, 2]
      fact := .sessionClosed "session" }
  verified := ⟨misnamedRequest, [1, 2], fun _ _ => .ok (), by decide +kernel⟩

/-- `reserve_creation` takes the reference as it is. The published key is enabled and
    its bytes are stored, but its snapshot looks for them in a journal entry that
    does not exist. -/
theorem misnamed_reference_misses_envelope :
    let events := publishedEvents misnamedRequest misnamedClosure
    let db := publishedDb misnamedRequest misnamedClosure
    Run Db.empty events db ∧ key db (sampleLid 2) = .ok (some misnamedRequest.record) ∧
      misnamedRequest.record.state = .enabled ∧
      WrittenBy events db (sampleLid 2) sampleVersion (.creation ⟨2⟩) ∧
      db.EntryBytes (.creation ⟨2⟩) [1, 2] ∧
      migrationSnapshot db (sampleLid 2) 1 = .error (invalid "creation not found") := by
  have evaluated : ((publishSample misnamedRequest).run
        (resolvingRun misnamedRequest misnamedClosure).2).1 = .ok (.record misnamedRequest.record) ∧
      ((resolvingRun misnamedRequest misnamedClosure).2.keyRow (sampleLid 2)).isSome = false ∧
      key (publishedDb misnamedRequest misnamedClosure) (sampleLid 2) =
        .ok (some misnamedRequest.record) ∧
      (storedJournal (publishedDb misnamedRequest misnamedClosure) ⟨2⟩).map
        (·.2.envelope) = some (some [1, 2]) ∧
      migrationSnapshot (publishedDb misnamedRequest misnamedClosure) (sampleLid 2) 1 =
        .error (invalid "creation not found") := by
    decide +kernel
  obtain ⟨returned, absent, stored, envelope, failed⟩ := evaluated
  have written : WrittenBy _ _ (sampleLid 2) sampleVersion (.creation ⟨2⟩) :=
    writtenBy_published returned (by decide +kernel) absent stored
  exact ⟨run_published returned, stored, by decide +kernel, written,
    map_eq_some_iff.mp envelope, failed⟩

end KeyRack.Sqlite
