import KeyRack.Properties.JournalTables
import KeyRack.Properties.KeyTable

/-!
# Which envelope a key reads

The bytes of a wrapped version are found by parsing the text of its material
reference, and the read checks the journal entry it arrives at but not that the
entry is the version's own. Callers that bring no foreign reference into a record
read only what was staged for them: every reference then leads to the committed
entry of its own key and version. A caller that does can read another key's bytes.
-/
namespace KeyRack.Sqlite

open Fallible Store Migration Creation Table

/-! ### References -/

section
variable [UuidText]

theorem toList_envelopeReference (operation : Uuid) (number : Nat) :
    (MigrationRequest.envelopeReference operation number).toList =
      "migration:".toList ++ ((UuidText.display operation).toList ++
        ':' :: (toString number).toList) := by
  simp [MigrationRequest.envelopeReference, String.toList_append]

variable {operation : Uuid}

/-- The reference a migration writes is read back as this migration's. -/
theorem parseReference_envelopeReference
    (read : parseReference (MigrationRequest.envelopeReference operation number) = .ok parsed) :
    parsed = .migration operation number := by
  -- the operation's text has no colon, so the first one behind the tag ends it
  have notCreation (rest : List Char) :
      ("migration:".toList ++ rest).dropPrefix? "creation:".toList = none := rfl
  have isMigration (rest : List Char) :
      ("migration:".toList ++ rest).dropPrefix? "migration:".toList = some rest :=
    List.dropPrefix?_append_of_beq rest (BEq.refl _)
  rw [parseReference, toList_envelopeReference, notCreation, isMigration] at read
  simp only [Option.bind_some, Text.splitOnce_append (UuidText.colonless operation), parseMigration,
    String.ofList_toList, UuidText.parse_display, eq_ok, Option.some.injEq] at read
  obtain ⟨_, rfl, m, parsedNumber, rfl⟩ := read
  rw [Text.parseDecimal_toString parsedNumber]

/-- The text is a reference that the backend resolves. -/
def JournalReference (text : String) : Prop := ∃ parsed, parseReference text = .ok parsed

variable [Blake3] [IntentEncoding]

/-- What a caller has to respect: a record brings in no reference to a journal
    entry, except one that its stored version already has, and a reserved creation
    refers to its own entry if to any. -/
def Op.Respects (db : Db) : Op → Prop
  | .createKey record => ∀ version ∈ record.keyVersions, ∀ material,
      version.material = .parentWrapped material →
        ¬JournalReference material.wrappedMaterialRef.asStr
  | .updateKey record => ∀ version ∈ record.keyVersions, ∀ material,
      version.material = .parentWrapped material →
        JournalReference material.wrappedMaterialRef.asStr →
        ∃ row, db.keyRow record.lid = some row ∧ ∃ stored ∈ row.record.keyVersions,
          stored.versionNumber = version.versionNumber ∧ stored.material = version.material
  | .reserveCreation request => ∀ material, request.material = .ok material → ∀ parsed,
      parseReference material.wrappedMaterialRef.asStr = .ok parsed →
        parsed = .creation request.operation
  | _ => True

def RespectfulStep (db : Db) (event : Event) (db' : Db) : Prop :=
  StorageStep db event db' ∧ event.1.Respects db

/-- The part of this about reserved creations alone. -/
def Op.NamesItself : Op → Prop
  | .reserveCreation request => ∀ material, request.material = .ok material → ∀ parsed,
      parseReference material.wrappedMaterialRef.asStr = .ok parsed →
        parsed = .creation request.operation
  | _ => True

variable {db : Db} {op : Op}

theorem Op.Respects.namesItself (respects : op.Respects db) : op.NamesItself := by
  cases op with
  | reserveCreation => exact respects
  | _ => trivial

/-- The entry that a reference leads to is the version's own. An entry that was
    retired has no bytes to read. -/
def OwnEntry (db : Db) (lid : Lid) (version : KeyVersionRecord) : EnvelopeReference → Prop
  | .creation operation => db.Retired operation ∨
      ∃ row, storedJournal db operation = some row ∧ row.2.phase = .committed ∧
        row.1.childLid = lid ∧ row.1.childVersion = version.versionNumber ∧
        ∃ material, row.2.journal.request.material = .ok material ∧
          version.material = .parentWrapped material
  | .migration operation number =>
      ∃ row, storedMigration db operation = some row ∧ row.2.committed = true ∧
        row.2.journal.request.child.lid = lid ∧ number = version.versionNumber ∧
        ∃ recorded ∈ row.2.journal.request.proposed.keyVersions,
          recorded.versionNumber = number ∧ recorded.material = version.material

variable {lid : Lid}

omit [UuidText] [Blake3] [IntentEncoding] in
theorem OwnEntry.congr
    (own : OwnEntry db lid a reference) (number : a.versionNumber = b.versionNumber)
    (material : a.material = b.material) : OwnEntry db lid b reference := by
  cases reference with
  | creation operation | migration operation target =>
    simp only [OwnEntry, ← number, ← material]
    exact own

/-- Every reference in the creation journal leads home. -/
def Db.CreationsOwn (db : Db) : Prop :=
  ∀ row ∈ db.creationJournal, ∀ material, row.2.journal.request.material = .ok material →
    ∀ parsed, parseReference material.wrappedMaterialRef.asStr = .ok parsed →
      parsed = .creation row.1.operationId

/-- Every reference in the key table and in the creation journal leads home. -/
structure Db.ReferencesOwn (db : Db) : Prop where
  versions : ∀ lid row, db.keyRow lid = some row → ∀ version ∈ row.record.keyVersions,
    ∀ material, version.material = .parentWrapped material → ∀ parsed,
      parseReference material.wrappedMaterialRef.asStr = .ok parsed → OwnEntry db lid version parsed
  creations : db.CreationsOwn
  retired : ∀ operation, db.Retired operation → storedJournal db operation = none

/-! ### Committed entries stay -/

omit [UuidText] [Blake3] [IntentEncoding] in
/-- A migration keeps its request, and a committed one is final. -/
def MigrationKept (a b : MigrationIndex × MigrationRow) : Prop :=
  b.2.journal.request = a.2.journal.request ∧ (a.2.committed = true → b = a)

variable {event : Event}

theorem StorageStep.migrations (step : StorageStep db event db') :
    Evolves MigrationKept (storedMigration db) (storedMigration db') := by
  obtain ⟨_, _⟩ := event
  have refl (row : MigrationIndex × MigrationRow) : MigrationKept row row := ⟨rfl, fun _ => rfl⟩
  rcases step.effect.migrationRow with same | ⟨_, _, _, write, read, rows⟩
  · rw [same]
    exact .refl refl _
  · rw [rows]
    refine .update refl fun row stored => ?_
    rw [read] at stored
    -- the three rewrites of a row start from an uncommitted one
    have unfinished (bound : Bound row) (uncommitted : row.2.journal.phase ≠ .committed)
        (committed : row.2.committed = true) : False := by
      rw [bound.committed, beq_iff_eq] at committed
      exact uncommitted committed
    cases write with
    | reserve => cases stored
    | own _ bound owned =>
      cases stored
      exact ⟨owned.request, fun committed => (unfinished bound owned.uncommitted committed).elim⟩
    | stage bound reserved same =>
      cases stored
      exact ⟨same.request, fun committed =>
        (unfinished bound (by rw [reserved]; decide) committed).elim⟩
    | commit bound staged same =>
      cases stored
      exact ⟨same.request,
        fun committed => (unfinished bound (by rw [staged]; decide) committed).elim⟩

/-- No write starts from a committed row. -/
theorem CreationWrite.uncommitted
    (write : CreationWrite db db' op result operation (some row) new) :
    row.2.phase ≠ .committed := by
  cases write with
  | advance _ unfinished => exact unfinished
  | publish bound resolved =>
    rw [bound.phase, resolved]
    decide
  | withdraw bound closed =>
    rw [bound.phase]
    rcases closed with ⟨reserved, _⟩ | resolved
    · rw [reserved]
      decide
    · rw [resolved]
      decide

/-- So it leaves the committed rows alone. -/
theorem CreationWrite.committed_kept (write : CreationWrite db db' op result operation old new)
    (read : storedJournal db operation = old)
    (rows : storedJournal db' = Function.update (storedJournal db) operation new)
    (other : Uuid) (row : CreationIndex × CreationRow)
    (stored : storedJournal db other = some row) (committed : row.2.phase = .committed) :
    storedJournal db' other = some row := by
  by_cases own : other = operation
  · subst own
    rw [stored] at read
    subst read
    exact absurd committed write.uncommitted
  · rw [rows, Function.update_of_ne own, stored]

/-- A committed creation stays or is retired. -/
theorem StorageStep.committedCreation (step : StorageStep db event db')
    (stored : storedJournal db operation = some row) (committed : row.2.phase = .committed) :
    storedJournal db' operation = some row ∨ db'.Retired operation := by
  rcases step.effect.creationRow with ⟨_, same | ⟨_, _, _, write, read, rows⟩⟩ | ⟨child, retires⟩
  · exact .inl (same ▸ stored)
  · exact .inl (write.committed_kept read rows operation row stored committed)
  · by_cases leaves : retiresRow child row = true
    · exact .inr ((retires.retired operation).mpr (.inr ⟨row, stored, leaves⟩))
    · refine .inl ?_
      rw [retires.rows, stored, Option.filter_some, if_pos]
      simpa using leaves

theorem StorageStep.retired (step : StorageStep db event db') (retired : db.Retired operation) :
    db'.Retired operation := by
  rcases step.effect.creationRow with ⟨same, _⟩ | ⟨_, retires⟩
  · rw [Db.Retired, same]
    exact retired
  · exact (retires.retired operation).mpr (.inl retired)

theorem OwnEntry.step (own : OwnEntry db lid version reference) (step : StorageStep db event db') :
    OwnEntry db' lid version reference := by
  cases reference with
  | creation =>
    rcases own with retired | ⟨row, stored, committed, facts⟩
    · exact .inl (step.retired retired)
    · rcases step.committedCreation stored committed with kept | retired
      · exact .inr ⟨row, kept, committed, facts⟩
      · exact .inl retired
  | migration operation =>
    obtain ⟨row, stored, committed, facts⟩ := own
    obtain ⟨_, stored', _, final⟩ := step.migrations operation row stored
    rw [final committed] at stored'
    exact ⟨row, stored', committed, facts⟩

/-! ### Every reference leads home -/

theorem StorageStep.unstored_of_retired (step : StorageStep db event db') (own : db.ReferencesOwn)
    (retired : db'.Retired operation) : storedJournal db' operation = none := by
  obtain ⟨_, _⟩ := event
  rcases step.effect.creationRow with ⟨unchanged, same | ⟨written, _, _, write, read, rows⟩⟩ |
    ⟨_, retires⟩
  · rw [Db.Retired, unchanged] at retired
    rw [same]
    exact own.retired operation retired
  · rw [Db.Retired, unchanged] at retired
    have unstored := own.retired operation retired
    by_cases same : operation = written
    · subst same
      rw [unstored] at read
      cases write with
      -- a reservation looks at the retired journals too
      | reserve _ _ unretired => exact absurd unretired retired
      | advance | publish | withdraw => cases read
    · rw [rows, Function.update_of_ne same, unstored]
  · rw [retires.rows]
    rcases (retires.retired operation).mp retired with before | ⟨_, stored, leaves⟩
    · rw [own.retired operation before, Option.filter_none]
    · rw [stored, Option.filter_some, if_neg]
      simpa using leaves

theorem StorageStep.creationsOwn (step : StorageStep db event db') (named : event.1.NamesItself)
    (own : db.CreationsOwn) : db'.CreationsOwn := by
  intro row member material given parsed read
  obtain ⟨_, _⟩ := event
  rcases step.effect.mem_creations member with before | ⟨_, old, write, stored⟩
  · exact own row before material given parsed read
  · cases write with
    | reserve => exact named material given parsed read
    -- later writes of the row keep its request
    | advance _ _ step =>
      have before := (storedJournal_eq_some.mp stored).1
      cases step <;> exact own _ before material given parsed read
    | publish =>
      have before := (storedJournal_eq_some.mp stored).1
      exact own _ before material given parsed read

/-- The versions that a write stores refer to their own entries. -/
theorem KeyWrite.ownEntry
    (write : KeyWrite db db' event.1 old new) (step : RespectfulStep db event db')
    (own : db.ReferencesOwn) (stored : key db new.lid = .ok old)
    (member : version ∈ new.keyVersions) (wrapped : version.material = .parentWrapped material)
    (read : parseReference material.wrappedMaterialRef.asStr = .ok parsed) :
    OwnEntry db' new.lid version parsed := by
  obtain ⟨_, _⟩ := event
  obtain ⟨step, respects⟩ := step
  -- a version that was stored before under the same number and material
  have carried {record : KeyRecord} {before : KeyVersionRecord}
      (current : key db new.lid = .ok (some record)) (there : before ∈ record.keyVersions)
      (number : before.versionNumber = version.versionNumber)
      (same : before.material = version.material) : OwnEntry db' new.lid version parsed := by
    have home := own.versions new.lid _ (key_eq_some.mp current).1 before there material
      (same.trans wrapped) parsed read
    exact (home.congr number same).step step
  cases write with
  | create =>
    exact absurd ⟨parsed, read⟩ (respects version member material wrapped)
  | update =>
    obtain ⟨_, present, _, there, number, same⟩ :=
      respects version member material wrapped ⟨parsed, read⟩
    cases present.symm.trans (key_eq_some.mp stored).1
    exact carried stored there number same
  | publish found bound _ accepted published =>
    obtain ⟨_, number, made, versions⟩ := accepted.versions bound.given
    rcases (versions version).mp member with rfl | ⟨_, rfl, _, there, rfl⟩
    · -- the new version refers to the entry that is committed with it
      cases made.symm.trans wrapped
      obtain ⟨rowMember, rowOperation⟩ := storedJournal_eq_some.mp found
      have home := own.creations _ rowMember _ bound.given parsed read
      rw [home, rowOperation]
      refine .inr ⟨_, published, rfl, ?_, ?_, _, bound.given, made⟩
      · rw [bound.index, creationIndex]
      · rw [bound.index, creationIndex, number]
    · exact carried stored there rfl rfl
  | migrate found bound _ valid request committed =>
    -- a migration writes its own references, whatever its caller brought
    obtain ⟨_, made, _, reference⟩ := valid.rewrapped version member
    cases made.symm.trans wrapped
    rw [reference] at read
    rw [parseReference_envelopeReference read, bound.operation_eq found]
    refine ⟨_, committed, rfl, ?_, rfl, version, ?_, rfl, rfl⟩
    · rw [request, valid.proposed_lid]
    · rw [request]
      exact member
  | schedule | cancel | claim | complete =>
    exact carried stored member rfl rfl

theorem RespectfulStep.referencesOwn (step : RespectfulStep db event db') (own : db.ReferencesOwn) :
    db'.ReferencesOwn := by
  refine ⟨?_, step.1.creationsOwn step.2.namesItself own.creations,
    fun _ => step.1.unstored_of_retired own⟩
  intro lid row stored version member material wrapped parsed read
  rcases step.1.keyRow_cases stored with before | ⟨_, _, write, current, rfl, rfl⟩
  · exact (own.versions lid row before version member material wrapped parsed read).step step.1
  · exact write.ownEntry step own current member wrapped read

omit [Blake3] [IntentEncoding] in
theorem Db.referencesOwn_empty : Db.empty.ReferencesOwn where
  versions _ _ stored := absurd (get?_eq_some.mp stored) (not_mem_empty _)
  creations row member := absurd member (not_mem_empty row)
  retired _ retired :=
    absurd (get?_eq_none.mpr fun row member => absurd member (not_mem_empty row))
      retired

/-! ### Every stored envelope was staged -/

/-- The event staged these bytes for the request of the creation. -/
def StagesCreation (operation : Uuid) (request : CreationRequest) (bytes : Bytes)
    (event : Event) : Prop :=
  ∃ owner revision journal, journal.request = request ∧
    event = (.stageCreation operation owner revision bytes, .ok (.creation journal))

/-- The event staged these bytes for one version of the migration's request. -/
def StagesMigration (operation : Uuid) (request : MigrationRequest) (number : Nat) (bytes : Bytes)
    (event : Event) : Prop :=
  ∃ ownership envelopes journal version, journal.request = request ∧
    (version, bytes) ∈ request.proposed.keyVersions.zip envelopes ∧
    version.versionNumber = number ∧
    event = (.stageMigration operation ownership envelopes, .ok (.migration journal))

/-- All bytes in the tables were staged by some event, for the entry they are with. -/
structure Db.StagedBy (db : Db) (events : List Event) : Prop where
  creations : ∀ row ∈ db.creationJournal, ∀ bytes, row.2.envelope = some bytes →
    ∃ event ∈ events, StagesCreation row.1.operationId row.2.journal.request bytes event
  migrations : ∀ staged ∈ db.migrationEnvelopes,
    ∃ row, storedMigration db staged.1.1 = some row ∧
      ∃ event ∈ events, StagesMigration staged.1.1 row.2.journal.request staged.1.2 staged.2 event

theorem Effect.mem_envelopes (effect : Effect db op result db')
    (member : staged ∈ db'.migrationEnvelopes) :
    staged ∈ db.migrationEnvelopes ∨
      ∃ row, storedMigration db' staged.1.1 = some row ∧
        StagesMigration staged.1.1 row.2.journal.request staged.1.2 staged.2 (op, result) := by
  cases effect with
  | stageMigration _ _ _ _ _ _ bytes rows =>
    rcases (bytes staged).mp member with before | ⟨version, _, zipped, rfl⟩
    · exact .inl before
    · have stored := (congrFun rows _).trans (Function.update_self ..)
      exact .inr ⟨_, stored, _, _, _, version, rfl, zipped, rfl, rfl⟩
  | migrate | complete => exact .inl (mem_delete.mp member).1
  | _ => exact .inl member

theorem StorageStep.stagedBy (step : StorageStep db event db')
    (staged : db.StagedBy events) : db'.StagedBy (events ++ [event]) := by
  obtain ⟨op, result⟩ := event
  constructor
  · intro row member bytes present
    have earlier (old : CreationIndex × CreationRow) (before : old ∈ db.creationJournal)
        (kept : old.2.envelope = some bytes) :
        ∃ event ∈ events ++ [(op, result)],
          StagesCreation old.1.operationId old.2.journal.request bytes event := by
      obtain ⟨event, past, stages⟩ := staged.creations old before bytes kept
      exact ⟨event, List.mem_append_left _ past, stages⟩
    rcases step.effect.mem_creations member with before | ⟨_, old, write, stored⟩
    · exact earlier row before present
    · cases write with
      | reserve => cases present
      | @advance _ _ _ _ old _ _ _ change =>
        obtain ⟨before, rfl⟩ := storedJournal_eq_some.mp stored
        cases change with
        | dispatch => exact earlier old before present
        | stage =>
          cases present
          exact ⟨_, List.mem_concat_self, _, _, _, rfl, rfl⟩
        | resolve => exact earlier old before present
      | @publish _ _ _ _ old => exact earlier old (storedJournal_eq_some.mp stored).1 present
  · intro envelope member
    rcases step.effect.mem_envelopes member with before | ⟨row, stored, stages⟩
    · -- the row of the migration may have moved on, with the same request
      obtain ⟨row, stored, event, past, stages⟩ := staged.migrations envelope before
      obtain ⟨later, stored', request, _⟩ := step.migrations _ row stored
      rw [← request] at stages
      exact ⟨later, stored', event, List.mem_append_left _ past, stages⟩
    · exact ⟨row, stored, _, List.mem_concat_self, stages⟩

theorem Db.stagedBy_empty : Db.empty.StagedBy [] where
  creations row member := absurd member (not_mem_empty row)
  migrations staged member := absurd member (not_mem_empty staged)

/-! ### Reading a snapshot -/

variable {version : Nat} {bytes : Bytes}

omit [UuidText] [Blake3] [IntentEncoding] in
theorem stagedEnvelope_eq_ok :
    stagedEnvelope db operation version = .ok bytes ↔
      ((operation, version), bytes) ∈ db.migrationEnvelopes := by
  have within : ∀ i j : Uuid × Nat, (i == (operation, version)) = true →
      (j == (operation, version)) = true → i = j := by
    intro i j first second
    exact (eq_of_beq first).trans (eq_of_beq second).symm
  rw [stagedEnvelope, okOr_eq_ok, Option.map_eq_some_iff]
  constructor
  · rintro ⟨_, selected, rfl⟩
    obtain ⟨member, named⟩ := select?_mem selected
    rw [← eq_of_beq named]
    exact member
  · intro member
    exact ⟨_, (select?_eq_some within).mpr ⟨member, beq_self_eq_true _⟩, rfl⟩

theorem committedEnvelope_ok (read : committedEnvelope db operation = .ok bytes) :
    ∃ row, storedJournal db operation = some row ∧ row.2.envelope = some bytes := by
  simp only [committedEnvelope, eq_ok] at read
  obtain ⟨_, _, _, _, _, stored, _, _, rfl⟩ := read
  exact envelope_ok stored

omit [IntentEncoding] in
theorem committedVersion_ok (read : committedVersion db operation version message = .ok bytes) :
    ((operation, version), bytes) ∈ db.migrationEnvelopes ∧
      ∃ row, storedMigration db operation = some row ∧ Bound row := by
  simp only [committedVersion, eq_ok] at read
  obtain ⟨_, found, _, _, _, staged, _, _, rfl⟩ := read
  obtain ⟨row, stored, _, bound⟩ := required_eq_ok.mp found
  exact ⟨stagedEnvelope_eq_ok.mp staged, row, stored, bound⟩

/-- A snapshot follows the reference of the version in the stored record. -/
theorem migrationSnapshot_ok (read : migrationSnapshot db lid version = .ok snapshot) :
    ∃ entry material parsed, db.keyRow lid = some (.of snapshot.record) ∧
      snapshot.record.getVersion version = some entry ∧
      entry.material = .parentWrapped material ∧
      parseReference material.wrappedMaterialRef.asStr = .ok parsed ∧
      readReference db parsed = .ok snapshot.envelope := by
  simp only [migrationSnapshot, eq_ok, requiredKey_eq_ok, envelopeRef, KeyMaterial.requireWrapped,
    wrapped?_eq_some] at read
  obtain ⟨_, stored, entry, found, material, wrapped, _, _, _, ⟨parsed, parses, bytes⟩, _, _,
    _, _, _, _, rfl⟩ := read
  exact ⟨entry, material, parsed, (key_eq_some.mp stored).1, found, wrapped, parses, bytes⟩

/-- The envelope of a snapshot was staged by a committed journal entry whose child
    is this key and version, and whose recorded material is the version's. -/
inductive Provenance (events : List Event) (db : Db) (lid : Lid) (version : Nat)
    (snapshot : WrappedKeySnapshot) : Prop where
  | creation (operation : Uuid) (row : CreationIndex × CreationRow) (entry : KeyVersionRecord)
      (material : ParentWrappedMaterial)
      (stored : storedJournal db operation = some row)
      (committed : row.2.phase = .committed) (child : row.1.childLid = lid)
      (number : row.1.childVersion = version)
      (found : snapshot.record.getVersion version = some entry)
      (recorded : row.2.journal.request.material = .ok material)
      (same : entry.material = .parentWrapped material)
      (bytes : row.2.envelope = some snapshot.envelope)
      (staged : ∃ event ∈ events,
        StagesCreation operation row.2.journal.request snapshot.envelope event)
  | migration (operation : Uuid) (row : MigrationIndex × MigrationRow)
      (entry recorded : KeyVersionRecord)
      (stored : storedMigration db operation = some row) (committed : row.2.committed = true)
      (child : row.2.journal.request.child.lid = lid)
      (found : snapshot.record.getVersion version = some entry)
      (proposed : row.2.journal.request.proposed.getVersion version = some recorded)
      (same : entry.material = recorded.material)
      (bytes : ((operation, version), snapshot.envelope) ∈ db.migrationEnvelopes)
      (staged : ∃ event ∈ events,
        StagesMigration operation row.2.journal.request version snapshot.envelope event)

/-- **Envelope binding**: in every run whose steps bring in no foreign reference, a
    snapshot that is read in any state of the run carries the bytes that were
    staged for this very key, version and material. -/
theorem run_envelope_bound (db : Db) (events : List Event)
    (run : Trace.Steps RespectfulStep Db.empty events db) (lid : Lid) (version : Nat)
    (snapshot : WrappedKeySnapshot) (read : migrationSnapshot db lid version = .ok snapshot) :
    Provenance events db lid version snapshot := by
  have begun : Db.empty.ReferencesOwn ∧ Db.empty.StagedBy [] :=
    ⟨Db.referencesOwn_empty, Db.stagedBy_empty⟩
  obtain ⟨own, staged⟩ : db.ReferencesOwn ∧ db.StagedBy events :=
    run.history (P := fun past s => s.ReferencesOwn ∧ s.StagedBy past)
      (fun _ _ _ _ step kept => ⟨step.referencesOwn kept.1, step.1.stagedBy kept.2⟩) begun
  obtain ⟨entry, material, parsed, stored, found, wrapped, parses, bytes⟩ :=
    migrationSnapshot_ok read
  have member : entry ∈ snapshot.record.keyVersions := List.mem_of_find?_eq_some found
  have number : entry.versionNumber = version := by simpa using List.find?_some found
  have home := own.versions lid _ stored entry member material wrapped parsed parses
  cases parsed with
  | creation operation =>
    obtain ⟨row, present, envelope⟩ := committedEnvelope_ok bytes
    rcases home with retired | ⟨_, otherStored, committed, child, childVersion, given, recorded,
      same⟩
    · -- a retired entry is not in the journal any more
      rw [own.retired operation retired] at present
      cases present
    · cases present.symm.trans otherStored
      obtain ⟨rowMember, named⟩ := storedJournal_eq_some.mp present
      have origin := staged.creations row rowMember _ envelope
      rw [named] at origin
      exact .creation operation row entry given present committed child
        (childVersion.trans number) found recorded same envelope origin
  | migration operation =>
    obtain ⟨envelope, row, present, bound⟩ := committedVersion_ok bytes
    obtain ⟨_, otherStored, committed, child, rfl, recorded, recordedMember, recordedNumber,
      same⟩ := home
    cases present.symm.trans otherStored
    -- the row that loads, the one the reference leads to and the one the bytes are with
    obtain ⟨_, presentAgain, origin⟩ := staged.migrations _ envelope
    cases present.symm.trans presentAgain
    have valid : row.2.journal.request.Valid := by
      have validated := bound.valid
      simp only [MigrationJournal.validate, bind_eq_ok] at validated
      obtain ⟨_, validated, _⟩ := validated
      exact MigrationRequest.validate_valid validated
    have proposed := valid.getVersion recordedMember
    rw [recordedNumber, number] at proposed
    rw [number] at envelope origin
    exact .migration operation row entry recorded present committed child found proposed same.symm
      envelope origin

end

open Sample

/-- Key 2 is made under key 1 through the journal. -/
def publishingOps : List Op :=
  [.createKey (residentRecord (sampleLid 1)), .reserveCreation creationRequest,
    .claimCreationDispatch ⟨1⟩ sampleOwner, .stageCreation ⟨1⟩ sampleOwner 1 [1, 2],
    .resolveCreation ⟨1⟩ sampleOwner 2 sampleClosure, .publishCreation ⟨1⟩ sampleOwner 3]

def publishedRun : List Event × Db := replay Db.empty publishingOps

theorem publishingOps_respect : ∀ op ∈ publishingOps, ∀ db, op.Respects db := by
  simp only [publishingOps, List.forall_mem_cons, List.not_mem_nil, false_implies, implies_true,
    and_true, Op.Respects]
  constructor
  · -- a resident version has no reference
    intro _ _ member material wrapped
    obtain rfl := List.mem_singleton.mp member
    cases wrapped
  · intro _ _ given _ read
    have own : creationRequest.material = .ok (sampleMaterial (sampleLid 1) sampleReference) := by
      decide +kernel
    cases own.symm.trans given
    have home : parseReference sampleReference.asStr = .ok (.creation ⟨1⟩) := by decide +kernel
    cases home.symm.trans read
    rfl

theorem run_envelope_bound_published :
    ∃ snapshot, migrationSnapshot publishedRun.2 (sampleLid 2) 1 = .ok snapshot ∧
      snapshot.envelope = [1, 2] ∧
      Provenance publishedRun.1 publishedRun.2 (sampleLid 2) 1 snapshot :=
  have run : Trace.Steps RespectfulStep Db.empty publishedRun.1 publishedRun.2 :=
    Trace.steps_play (fun db op => op.run db) (fun db op => op.Respects db) Db.empty publishingOps
      publishingOps_respect
  have read : migrationSnapshot publishedRun.2 (sampleLid 2) 1 =
      .ok ⟨creationRequest.record, residentRecord (sampleLid 1), [1, 2]⟩ := by decide +kernel
  ⟨_, read, rfl, run_envelope_bound _ _ run _ _ _ read⟩

/-- Key 3 with the reference of key 2's envelope. -/
def forgedRecord : KeyRecord := wrappedRecord (sampleLid 3) (sampleLid 1) sampleReference

def forgedRun : List Event × Db := replay Db.empty (publishingOps ++ [Op.createKey forgedRecord])

/-- `create_key` takes the reference as it is, and key 3 then reads the bytes that
    were staged for key 2. No journal entry has key 3 as its child. -/
theorem forged_reference_reads_foreign_envelope :
    Run Db.empty forgedRun.1 forgedRun.2 ∧
      ∃ snapshot, migrationSnapshot forgedRun.2 (sampleLid 3) 1 = .ok snapshot ∧
        snapshot.envelope = [1, 2] ∧
        ¬Provenance forgedRun.1 forgedRun.2 (sampleLid 3) 1 snapshot := by
  have evaluated : migrationSnapshot forgedRun.2 (sampleLid 3) 1 =
        .ok ⟨forgedRecord, residentRecord (sampleLid 1), [1, 2]⟩ ∧
      (forgedRun.2.creationJournal.any fun index _ => index.childLid == sampleLid 3) = false ∧
      (forgedRun.2.migrationJournal.any fun _ _ => true) = false := by
    decide +kernel
  obtain ⟨read, noCreation, noMigration⟩ := evaluated
  refine ⟨run_replay _ _, _, read, rfl, ?_⟩
  intro provenance
  cases provenance with
  | creation _ row _ _ stored _ child =>
    have other := any_eq_false.mp noCreation row
      (storedJournal_eq_some.mp stored).1
    simp [child] at other
  | migration _ row _ _ stored =>
    have other := any_eq_false.mp noMigration row (storedMigration_eq_some.mp stored).1
    cases other

end KeyRack.Sqlite
