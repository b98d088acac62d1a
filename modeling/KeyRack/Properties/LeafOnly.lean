import KeyRack.Lib.Schedule
import KeyRack.Properties.DriverRuns
import KeyRack.Properties.ExportRuns
import KeyRack.Service.Hierarchy

/-!
# Exportable keys have no children

The rule is enforced by two reads: a request that makes a key exportable looks for
children first, and a request that creates a child looks at the parent. The child's
publication is bound to the version of the parent that was read, so it never meets
an exportable one. The other write is bound to the version of its own key only, and
a child that was published after the look does not change that version.
-/
namespace KeyRack.Service

open Fallible Process Trace Store Sqlite Function List

section
variable {db db' : Db} {record parent : KeyRecord} {material : ParentWrappedMaterial}
  {owner : CreationOwner}

/-! ### Stored records -/

/-- The record was stored once, and nothing older is stored now. -/
def StoredSince (db : Db) (record : KeyRecord) : Prop :=
  ∃ row, db.keyRow record.lid = some row ∧
    NewerOrSame (fun row => row.record.occVersion) (.of record) row

theorem StoredSince.of_row (stored : db.keyRow record.lid = some (.of record)) :
    StoredSince db record := ⟨_, stored, .refl _ _⟩

/-- The record with the same version is the one that was stored. -/
theorem StoredSince.eq_of_version (stored : StoredSince db record)
    (read : key db record.lid = .ok (some current))
    (version : current.occVersion = record.occVersion) : current = record := by
  obtain ⟨_, present, newer⟩ := stored
  rw [(key_eq_some.mp read).1] at present
  cases present
  have same := congrArg KeyRow.record (newer.2 version)
  exact same

theorem storedSince_read (bound : db.KeysBound) (read : ReadAttempt (getKey db lid) reply)
    (returned : reply = .ok record) : StoredSince db record := by
  subst returned
  obtain ⟨own, stored⟩ := read_ok bound read
  apply StoredSince.of_row
  rw [own, stored]

/-- No stored key that another stored key names as its parent is exportable. -/
def LeafOnly (db : Db) : Prop :=
  ∀ parent row child row', db.keyRow parent = some row → db.keyRow child = some row' →
    child ≠ parent → row'.record.parentLid = some parent → row.record.exportability = .nonExportable

theorem LeafOnly.congr (leaf : LeafOnly db) (same : db'.keyRow = db.keyRow) : LeafOnly db' := by
  intro parent row child row' parentRow childRow
  rw [same] at parentRow childRow
  exact leaf parent row child row' parentRow childRow

/-- A write keeps the rule if its record is not exportable or has no children, and its
    parent is not exportable. -/
theorem LeafOnly.write (leaf : LeafOnly db)
    (rows : db'.keyRow = update db.keyRow new.lid (some (.of new)))
    (asParent : new.exportability = .nonExportable ∨ ∀ child row, db.keyRow child = some row →
      row.record.parentLid = some new.lid → child = new.lid)
    (asChild : ∀ parent row, parent ≠ new.lid → new.parentLid = some parent →
      db.keyRow parent = some row → row.record.exportability = .nonExportable) : LeafOnly db' := by
  intro parent row child row' parentRow childRow other names
  rw [rows, update_apply] at parentRow childRow
  split at parentRow
  next isParent =>
    cases parentRow
    rcases asParent with closed | childless
    · exact closed
    · rw [if_neg (isParent ▸ other)] at childRow
      rw [isParent] at names other
      exact absurd (childless child row' childRow names) other
  next notParent =>
    split at childRow
    next =>
      cases childRow
      exact asChild parent row notParent names parentRow
    next => exact leaf parent row child row' parentRow childRow other names

/-- The first version of a record is the one that was proposed. -/
theorem proposeVersion_primary (bare : record.keyVersions = [])
    (made : proposeVersion record none versionNumber material createdAt = .ok proposed) :
    proposed.primaryVersion = some ⟨versionNumber, .parentWrapped material, createdAt, true⟩ := by
  obtain ⟨_, _, rfl⟩ := made
  simp [KeyRecord.primaryVersion, KeyRecord.getVersion, bare]

theorem refuseUnwrappableParent_ok (passed : refuseUnwrappableParent parent = .ok u) :
    parent.exportability = .nonExportable := by
  simp only [refuseUnwrappableParent, eq_ok, not_or, not_not] at passed
  obtain ⟨_, _, _, _, _, _, _, ⟨closed, _⟩, _⟩ := passed
  exact closed

variable [UuidText]

/-! ### What a creation does with its replies -/

/-- A request that is bound to a parent which was not exportable. -/
structure WrapsUnder (parent : KeyRecord) (request : CreationRequest) : Prop where
  closed : parent.exportability = .nonExportable
  snapshot : request.expectedParentOcc = parent.occVersion
  named : ∀ material, request.material = .ok material → material.parent.lid = parent.lid

theorem wrappedMaterial_ok
    (made : wrappedMaterial providerName profile parent operation = .ok material) :
    material.parent.lid = parent.lid := by
  simp only [wrappedMaterial, eq_ok, VersionedKeyId.new_eq_ok, ParentWrappedMaterial.new] at made
  obtain ⟨_, ⟨named, _⟩, _, _, made⟩ := made
  split at made
  · cases made
    exact named
  · cases made

/-- The request for a bare record names the parent that its version is wrapped under. -/
theorem requestFor_wrapsUnder (closed : parent.exportability = .nonExportable)
    (primary : proposed.primaryVersion = some version)
    (wrapped : version.material = .parentWrapped material)
    (named : material.parent.lid = parent.lid)
    (asked : requestFor operation attempt owner proposed parent none = .ok request) :
    WrapsUnder parent request := by
  simp only [requestFor, eq_ok] at asked
  obtain ⟨_, _, rfl⟩ := asked
  apply WrapsUnder.mk closed rfl
  intro _ given
  simp only [CreationRequest.material, primary, okOr, bind, Except.bind, wrapped,
    Except.ok.injEq] at given
  rw [← given]
  exact named

theorem validate_nonExportable {request : CreationRequest}
    (valid : request.validate = .ok ()) : request.record.exportability = .nonExportable := by
  simp only [CreationRequest.validate, eq_ok, Bool.not_eq_true] at valid
  obtain ⟨_, _, _, _, _, _, _, _, _, supported, _⟩ := valid
  simp only [CreationRequest.unsupported, Bool.or_eq_false_iff, bne_eq_false_iff_eq] at supported
  obtain ⟨⟨⟨⟨⟨⟨⟨⟨⟨⟨⟨⟨_, _⟩, closed⟩, _⟩, _⟩, _⟩, _⟩, _⟩, _⟩, _⟩, _⟩, _⟩, _⟩ := supported
  exact closed

theorem validateRecords_parent {request : CreationRequest}
    (passed : request.validateRecords current parent = .ok ()) :
    parent.occVersion = request.expectedParentOcc := by
  simp only [CreationRequest.validateRecords, eq_ok, not_or, not_not] at passed
  obtain ⟨_, _, _, _, _, ⟨_, version, _⟩, _⟩ := passed
  exact version

variable [Blake3] [IntentEncoding]

abbrev HierarchyEvent : Type := Event HierarchyCall HierarchyCall.Reply

/-- A creation reserves what is bound to a parent that it has read. -/
def ReservesBound (past : List HierarchyEvent) : HierarchyCall → Prop
  | .driver (.reserveCreation request) =>
    ∃ lid parent, ⟨.getKey lid, .ok parent⟩ ∈ past ∧ WrapsUnder parent request
  | _ => True

section
variable {past : List HierarchyEvent}

theorem journaledVersion_returns
    (closed : parent.exportability = .nonExportable) (bare : record.keyVersions = []) :
    Returns ReservesBound past (fun _ request => WrapsUnder parent request)
      (journaledVersion owner providerName entry profile parent record none) := by
  apply returns_check_then
  intro _ _
  apply returns_check_then
  intro _ _
  apply returns_check_then
  intro _ _
  apply returns_observe_then trivial
  intro _
  apply returns_observe_then trivial
  intro _
  apply returns_check_then
  intro _ made
  have timed {past : List HierarchyEvent} :
      Returns ReservesBound past (fun _ _ => True) (versionTime record none) := returns_pure trivial
  apply Returns.bind timed
  intro _ _ _ _
  apply returns_check_then
  intro _ proposes
  apply returns_check_then
  intro _ asked
  apply returns_observe_then trivial
  intro _
  apply returns_check_then
  intro _ _
  apply returns_pure
  exact requestFor_wrapsUnder closed (proposeVersion_primary bare proposes) rfl
    (wrappedMaterial_ok made) asked

/-- The driver runs after the parent was read. -/
theorem runDriver_returns
    (read : ⟨.getKey lid, .ok parent⟩ ∈ past) (wraps : WrapsUnder parent request) :
    Returns ReservesBound past (fun _ _ => True) (runDriver request) := by
  apply returns_check_then
  intro _ _
  have driven : Obeys ReservesBound (fun _ _ => True) past
      ((drive request).run.embed HierarchyCall.driver fun _ reply => reply) := by
    apply (drive_keeps.embed (R := fun _ past => ⟨.getKey lid, .ok parent⟩ ∈ past) _ _ read).mono
    · intro _ _ _
      trivial
    · rintro _ _ c read allowed
      cases c with
      | reserveCreation =>
        cases allowed
        exact ⟨lid, parent, read, wraps⟩
      | _ => trivial
    · rintro _ _ c r read
      exact mem_append_left _ read
  apply returns_lift_then driven
  intro _ _ _ _
  apply returns_check
  intro _ _
  trivial

theorem createWrappedChild_returns :
    Returns ReservesBound past (fun _ _ => True)
      (createWrappedChild state owner providerName entry proposal) := by
  apply returns_check_then
  intro parentLid _
  apply returns_check_then
  intro _ _
  apply returns_check_then
  intro _ _
  apply returns_observe_then trivial
  intro _
  apply returns_check_then
  intro parent read
  cases mapErr_eq_ok.mp read
  apply returns_check_then
  intro _ eligible
  have closed := refuseUnwrappableParent_ok eligible
  apply returns_check_then
  intro _ _
  apply returns_check_then
  intro _ _
  apply Returns.bind (journaledVersion_returns closed rfl)
  intro later _ grows wraps
  have seen : ⟨.getKey parentLid, .ok parent⟩ ∈ later := by
    apply grows.subset
    simp
  apply Returns.bind (runDriver_returns seen wraps)
  rintro _ (_ | _) _ _
  · exact returns_pure trivial
  · exact returns_throw

theorem createChild_returns :
    Returns ReservesBound past (fun _ _ => True)
      (createChild state owner providerName entry record parentLid) := by
  have enforced : Returns ReservesBound past (fun _ _ => True)
      (enforceNoChildUnderExportableParent parentLid) := by
    apply returns_observe_then trivial
    intro _
    apply returns_check_then
    intro _ _
    apply returns_check
    intro _ _
    trivial
  apply Returns.bind enforced
  intro _ _ _ _
  apply returns_check_then
  intro _ _
  exact createWrappedChild_returns

end
/-! ### Whole requests -/

abbrev LeafEvent : Type := Event LeafCall LeafCall.Reply

/-- Writes of the two kinds of requests rest on a record that the request has read. -/
def LeafAllowed (past : List LeafEvent) : LeafCall → Prop
  | .exporting (.own (.updateKey updated)) => ∃ lid event record,
      ⟨.exporting (.own event.1), event.2⟩ ∈ past ∧ ShowsKey lid event record ∧
        Carries record updated
  | .creating (.driver (.reserveCreation request)) => ∃ lid parent,
      ⟨.creating (.getKey lid), .ok parent⟩ ∈ past ∧ WrapsUnder parent request
  | _ => True

theorem exportRequest_obeys (parsed : parseLid keyId = .ok lid) :
    Obeys LeafAllowed (fun _ _ => True) [] (exportRequest principal requestId keyId) := by
  have own : Obeys (Guarded (Among (WritesSeen lid))) (fun _ _ => True) []
      (makeKeyExportable principal requestId keyId).run :=
    Obeys.mono (makeKeyExportable_returns parsed) fun _ _ _ => trivial
  apply obeys_bind.mpr
  refine (own.embed_recorded (f := LeafCall.exporting) (h := fun _ r => r) (fun _ _ => rfl) ?_
    recorded_nil).mono fun _ _ _ => trivial
  intro _ _ c related allowed
  cases c with
  | own c =>
    cases c with
    | updateKey =>
      obtain ⟨_, within, event, record, member, shows, carries⟩ := allowed
      exact ⟨lid, event, record, related _ (within event member), shows, carries⟩
    | _ => trivial
  | _ => trivial

theorem childRequest_obeys :
    Obeys LeafAllowed (fun _ _ => True) []
      (childRequest state owner providerName entry record parentLid) := by
  have own : Obeys ReservesBound (fun _ _ => True) []
      (createChild state owner providerName entry record parentLid).run :=
    Obeys.mono createChild_returns fun _ _ _ => trivial
  apply obeys_bind.mpr
  refine (own.embed_recorded (f := LeafCall.creating) (h := fun _ r => r) (fun _ _ => rfl) ?_
    recorded_nil).mono fun _ _ _ => trivial
  intro _ _ c related allowed
  cases c with
  | driver c =>
    cases c with
    | reserveCreation =>
      obtain ⟨lid, parent, read, wraps⟩ := allowed
      exact ⟨lid, parent, related _ read, wraps⟩
    | _ => trivial
  | _ => trivial

theorem leafStarts_obeys {ι : Type} (starts : (leafRules ι).starts p) :
    Obeys LeafAllowed (fun _ _ => True) [] p := by
  rcases starts with ⟨_, _, _, _, parsed, rfl⟩ | ⟨_, _, _, _, _, _, _, rfl⟩
  · exact exportRequest_obeys parsed
  · exact childRequest_obeys

/-! ### What the backend does -/

theorem StoredSince.step (stored : StoredSince db record)
    (step : StorageStep db event db') : StoredSince db' record := by
  obtain ⟨row, present, newer⟩ := stored
  have evolves := step.evolves (NewerOrSame.refl fun row => row.record.occVersion)
    fun _ _ _ write => .of_succ write.succ.2
  obtain ⟨row', present', later⟩ := evolves record.lid row present
  exact ⟨row', present', .trans _ _ _ _ newer later⟩

variable {outcome : Except KeyRackError Reply} {operation : Uuid}

/-- An unfinished journal row was there before, or was reserved in this step. -/
theorem journal_origin (step : StorageStep db (op, outcome) db')
    (stored : Creation.storedJournal db' operation = some row)
    (unfinished : row.2.phase ≠ .committed) :
    (∃ old, Creation.storedJournal db operation = some old ∧ old.2.phase ≠ .committed ∧
      old.2.journal.request = row.2.journal.request) ∨
      op = .reserveCreation row.2.journal.request := by
  rcases step.effect.creationRow with ⟨_, same | ⟨_, _, _, write, read, rows⟩⟩ |
    ⟨_, retires⟩
  · rw [same] at stored
    exact .inl ⟨row, stored, unfinished, rfl⟩
  · rw [rows, update_apply] at stored
    split at stored
    next own =>
      subst own
      cases write with
      | reserve =>
        cases stored
        exact .inr rfl
      | advance _ open' moved =>
        cases stored
        refine .inl ⟨_, read, open', ?_⟩
        cases moved <;> rfl
      | publish =>
        cases stored
        exact absurd rfl unfinished
      | withdraw => cases stored
    next => exact .inl ⟨row, stored, unfinished, rfl⟩
  · rw [retires.rows] at stored
    have before := (Option.filter_eq_some_iff.mp stored).1
    exact .inl ⟨row, before, unfinished, rfl⟩

open Creation Stateful in
/-- A publication is of a stored journal, under the parent version that it was bound to. -/
theorem publishA2_parent (ran : publishA2 operation owner revision db = .ok (record, db')) :
    db' = db ∨ ∃ row material parent, storedJournal db operation = some row ∧
      Bound row material ∧ row.2.journal.phase = .resolved ∧
      key db material.parent.lid = .ok (some parent) ∧
      parent.occVersion = row.2.journal.request.expectedParentOcc := by
  simp only [publishA2, bind_eq_ok] at ran
  obtain ⟨_, found, retry, _, rest⟩ := ran
  cases retry with
  | some =>
    cases pure_eq_ok.mp rest
    exact .inl rfl
  | none =>
    simp only [publishResolved, bind_eq_ok, Prod.exists, toExcept_eq_ok, requiredKey_eq_ok] at rest
    obtain ⟨_, read, _, _, _, _, _, given, parent, present, _, _, _, _, published, _⟩ := rest
    obtain ⟨row, _, stored, rfl, bound, _⟩ := stored_of_envelope found read
    cases bound.given.symm.trans given
    obtain ⟨_, _, resolved, records, _⟩ := publication_ok published
    exact .inr ⟨row, _, parent, stored, bound, resolved, present, validateRecords_parent records⟩

/-! ### Along a run -/

abbrev LeafLabel (ι : Type) : Type := Label ι LeafCall LeafCall.Reply Sqlite.Event

abbrev LeafSystem (ι : Type) : Type := System Db ι LeafCall LeafCall.Reply Unit

/-- The record that an event shows to be stored. -/
inductive LeafShows : LeafEvent → KeyRecord → Prop where
  | exporting (lid : Lid) (c : ExportCall) (reply : c.Reply) (record : KeyRecord)
      (shows : ShowsKey lid ⟨c, reply⟩ record) : LeafShows ⟨.exporting (.own c), reply⟩ record
  | creating (lid : Lid) (parent : KeyRecord) :
      LeafShows ⟨.creating (.getKey lid), .ok parent⟩ parent

/-- The rule, and what it rests on: the stored rows have moved on from what was read, and
    every unfinished creation is bound to a parent that was not exportable. -/
structure LeafKept {ι : Type} (labels : List (LeafLabel ι)) (db : Db) : Prop where
  bound : db.KeysBound
  seen : ∀ i event record, .called i event ∈ labels → LeafShows event record → StoredSince db record
  journals : ∀ operation row, Creation.storedJournal db operation = some row →
    row.2.phase ≠ .committed →
    ∃ parent, WrapsUnder parent row.2.journal.request ∧ StoredSince db parent
  leaf : LeafOnly db

variable {ι : Type} [DecidableEq ι] {labels : List (LeafLabel ι)} {db db' : Db}
  {label : LeafLabel ι}

omit [DecidableEq ι] in
/-- A step that leaves the tables alone and shows stored records. -/
theorem LeafKept.idle (kept : LeafKept labels db)
    (shown : ∀ i event record, label = .called i event → LeafShows event record →
      StoredSince db record) : LeafKept (labels ++ [label]) db := by
  apply LeafKept.mk kept.bound _ kept.journals kept.leaf
  intro i event record member shows
  rcases mem_append.mp member with old | new
  · exact kept.seen i event record old shows
  · exact shown i event record (mem_singleton.mp new).symm shows

omit [DecidableEq ι] in
/-- A step of the backend. -/
theorem LeafKept.stored (kept : LeafKept labels db) (step : StorageStep db (op, outcome) db')
    (shown : ∀ i event record, label = .called i event → LeafShows event record →
      StoredSince db' record)
    (reserved : ∀ request, op = .reserveCreation request →
      ∃ parent, WrapsUnder parent request ∧ StoredSince db parent)
    (leaf : LeafOnly db') : LeafKept (labels ++ [label]) db' := by
  apply LeafKept.mk (step.keysBound kept.bound) _ _ leaf
  · intro i event record member shows
    rcases mem_append.mp member with old | new
    · exact (kept.seen i event record old shows).step step
    · exact shown i event record (mem_singleton.mp new).symm shows
  · intro operation _ stored unfinished
    rcases journal_origin step stored unfinished with ⟨old, before, open', same⟩ | new
    · obtain ⟨parent, wraps, since⟩ := kept.journals operation old before open'
      exact ⟨parent, same ▸ wraps, since.step step⟩
    · obtain ⟨parent, wraps, since⟩ := reserved _ new
      exact ⟨parent, wraps, since.step step⟩

/-- The write of a request that makes a key exportable keeps the rule if no other stored
    key names the key as its parent. -/
theorem LeafOnly.update (leaf : LeafOnly db)
    (step : StorageStep db (.updateKey updated, outcome) db') (carries : Carries record updated)
    (since : StoredSince db record) (childless : ∀ child row, db.keyRow child = some row →
      row.record.parentLid = some updated.lid → child = updated.lid) : LeafOnly db' := by
  rcases step.effect.keyRow with same | ⟨_, _, write, _, read, rows⟩
  · exact leaf.congr same
  cases write with
  | @update previous _ change =>
    apply leaf.write rows (.inr childless)
    intro parent row other names parentRow
    -- the record that is written over is the one that was read, under the same parent
    have read : key db record.lid = .ok (some previous) := carries.lid ▸ read
    have newer : record.occVersion ≤ previous.occVersion := by
      obtain ⟨_, present, newer⟩ := since
      rw [(key_eq_some.mp read).1] at present
      cases present
      exact newer.1
    have version : updated.occVersion = previous.occVersion + 1 := change.occVersion
    have unchanged : previous = record := by
      apply since.eq_of_version read
      rcases carries.next with _ | ⟨_, _⟩
      · omega
      · omega
    have parentLid : previous.parentLid = some parent := by
      rw [unchanged, ← carries.parentLid]
      exact names
    have stored : db.keyRow updated.lid = some (.of previous) := by
      rw [carries.lid]
      exact (key_eq_some.mp read).1
    exact leaf parent row updated.lid (.of previous) parentRow stored (Ne.symm other) parentLid

section
variable (kept : LeafKept labels db)
include kept

omit [DecidableEq ι] in
/-- A publication keeps the rule: its parent still is what the creation was bound to. -/
theorem LeafKept.publish
    (step : StorageStep db (.publishCreation operation owner revision, outcome) db') :
    LeafOnly db' := by
  rcases transact_cases step with ⟨e, _, rfl⟩ | ⟨_, ran, _⟩
  · exact kept.leaf
  rcases publishA2_parent ran with rfl | ⟨row, material, current, stored, bound, resolved, found,
    version⟩
  · exact kept.leaf
  rcases step.effect.keyRow with same | ⟨_, _, write, _, read, rows⟩
  · exact kept.leaf.congr same
  cases write with
  | @publish _ row _ _ _ _ stored' =>
    cases stored.symm.trans stored'
    have valid : row.2.journal.request.validate = .ok () := bound.valid.request
    apply kept.leaf.write rows (.inl (validate_nonExportable valid))
    intro parent _ _ names present
    -- the parent is the one that the creation is bound to, in the version it was read
    have unfinished : row.2.phase ≠ .committed := by
      rw [bound.phase, resolved]
      decide
    obtain ⟨bindsTo, wraps, since⟩ := kept.journals operation row stored unfinished
    have named : material.parent.lid = bindsTo.lid := wraps.named material bound.given
    have same : parent = material.parent.lid := by
      obtain ⟨_, checked⟩ := CreationRequest.validate_valid valid
      cases checked.given.symm.trans bound.given
      exact Option.some.inj (names.symm.trans checked.parentLid)
    have unchanged : current = bindsTo := by
      apply since.eq_of_version (named ▸ found)
      rw [version, wraps.snapshot]
    rw [same, (key_eq_some.mp found).1] at present
    cases present
    rw [KeyRow.of_record, unchanged]
    exact wraps.closed

/-- An answer to a call of a request that makes a key exportable. -/
theorem LeafKept.exporting (answers : c.Answers db reply db')
    (allowed : LeafAllowed (own i labels) (.exporting (.own c)))
    (childless : ∀ updated, c = .updateKey updated → ∀ child row, db.keyRow child = some row →
      row.record.parentLid = some updated.lid → child = updated.lid) :
    LeafKept (labels ++ [.called i ⟨.exporting (.own c), reply⟩]) db' := by
  cases answers with
  | getKey _ _ read =>
    apply kept.idle
    rintro j _ _ ⟨⟩ (⟨_, _, _, _, shows⟩ | _)
    cases shows with
    | read => exact storedSince_read kept.bound read rfl
  | getKeyForUse _ _ read =>
    apply kept.idle
    rintro j _ _ ⟨⟩ (⟨_, _, _, _, shows⟩ | _)
    cases shows with
    | readForUse => exact storedSince_read kept.bound read rfl
  | listChildren =>
    apply kept.idle
    rintro j _ _ ⟨⟩ (⟨_, _, _, _, shows⟩ | _)
    cases shows
  | elsewhere _ _ other =>
    apply kept.idle
    rintro j _ _ ⟨⟩ (⟨_, _, _, _, shows⟩ | _)
    cases shows with
    | read | readForUse | wrote => cases other
  | updateKey updated _ _ attempt =>
    obtain ⟨lid, event, record, member, shows, carries⟩ := allowed
    have since := kept.seen i _ record (mem_own.mp member) (.exporting lid _ _ record shows)
    rcases attempt.cases with ⟨rfl, e, rfl⟩ | ⟨_, step, returned⟩
    · apply kept.idle
      rintro j _ _ ⟨⟩ (⟨_, _, _, _, shows⟩ | _)
      cases shows
    · apply kept.stored step
      · rintro j _ _ ⟨⟩ (⟨_, _, _, _, shows⟩ | _)
        cases shows with
        | wrote =>
          cases returned () rfl
          apply StoredSince.of_row
          exact step.effect.latched_stored (.inr rfl)
      · intro _ reserves
        cases reserves
      · exact kept.leaf.update step carries since (childless updated rfl)

/-- An answer to a call of a creation. -/
theorem LeafKept.creating (answers : c.Answers db reply db')
    (allowed : LeafAllowed (own i labels) (.creating c)) :
    LeafKept (labels ++ [.called i ⟨.creating c, reply⟩]) db' := by
  cases answers with
  | getKey _ _ read =>
    apply kept.idle
    rintro j _ _ ⟨⟩ (_ | _)
    exact storedSince_read kept.bound read rfl
  | elsewhere _ _ other =>
    apply kept.idle
    rintro j _ _ ⟨⟩ (_ | _)
    cases other
  | driver c reply _ answered =>
    -- nothing that the driver is told shows a record
    have silent : ∀ {db : Db}, ∀ j event record,
        (.called i ⟨.creating (.driver c), reply⟩ : LeafLabel ι) = .called j event →
        LeafShows event record → StoredSince db record := by
      rintro _ j _ _ ⟨⟩ (_ | _)
    cases answered with
    | snapshot | provider => exact kept.idle silent
    | storage _ _ _ _ _ stores attempt =>
      rcases attempt.cases with ⟨rfl, _⟩ | ⟨_, step, _⟩
      · exact kept.idle silent
      apply kept.stored step silent
      · rintro _ rfl
        cases stores with
        | reserve =>
          obtain ⟨lid, parent, member, wraps⟩ := allowed
          exact ⟨parent, wraps, kept.seen i _ parent (mem_own.mp member) (.creating lid parent)⟩
      · cases stores with
        | publish => exact kept.publish step
        | _ =>
          rcases step.effect.keyRow with same | ⟨_, _, write, _⟩
          · exact kept.leaf.congr same
          · cases write

omit [DecidableEq ι] in
/-- What others do meanwhile. -/
theorem LeafKept.meanwhile (step : StorageStep db event db') (keeps : KeepsHierarchy db db') :
    LeafKept (labels ++ [.environment event]) db' := by
  have journal : Creation.storedJournal db' = Creation.storedJournal db := by
    unfold Creation.storedJournal
    rw [keeps.creationJournal]
  apply LeafKept.mk (step.keysBound kept.bound)
  · intro i event record member shows
    rcases mem_concat.mp member with old | new
    · exact (kept.seen i event record old shows).step step
    · cases new
  · intro operation row stored unfinished
    rw [journal] at stored
    obtain ⟨parent, wraps, since⟩ := kept.journals operation row stored unfinished
    exact ⟨parent, wraps, since.step step⟩
  · intro parent row child row' parentRow childRow other names
    obtain ⟨old, present, _, exportability⟩ := keeps.keys parent row parentRow
    obtain ⟨old', present', parentLid, _⟩ := keeps.keys child row' childRow
    rw [exportability]
    apply kept.leaf parent old child old' present present' other
    rw [← parentLid]
    exact names

end

/-- A write that makes a key exportable finds no other stored key under it. -/
def Unreferenced (db : Db) : LeafLabel ι → Prop
  | .called _ ⟨.exporting (.own (.updateKey updated)), _⟩ => ∀ child row,
      db.keyRow child = some row → row.record.parentLid = some updated.lid → child = updated.lid
  | _ => True

theorem LeafKept.step (step : Step (leafRules ι) s label t)
    (childless : Unreferenced s.world label) (allowed : label.Allowed LeafAllowed labels)
    (kept : LeafKept labels s.world) : LeafKept (labels ++ [label]) t.world := by
  cases step with
  | start => exact kept.idle (by rintro _ _ _ ⟨⟩)
  | drop _ _ _ _ _ left =>
    cases left
    exact kept.idle (by rintro _ _ _ ⟨⟩)
  | environment _ _ changed => exact kept.meanwhile changed.1 changed.2
  | call _ c _ _ _ _ answered =>
    cases c with
    | creating => exact kept.creating answered allowed
    | exporting c =>
      cases c with
      | own =>
        apply kept.exporting answered allowed
        rintro _ rfl
        exact childless
      | _ =>
        cases answered
        apply kept.idle
        rintro _ _ _ ⟨⟩ (_ | _)

/-- No key is exportable while another stored key names it as its parent, as long as each
    write that makes a key exportable finds no child. -/
theorem leaf_only_kept {events : List Sqlite.Event} (ran : Run Db.empty events db)
    (settled : ∀ operation row, Creation.storedJournal db operation = some row →
      row.2.phase = .committed) (leaf : LeafOnly db) {s : LeafSystem ι}
    (steps : Steps (fun s label t => Step (leafRules ι) s label t ∧ Unreferenced s.world label)
      ⟨db, fun _ => .idle⟩ labels s) : LeafOnly s.world := by
  have initial : LeafKept ([] : List (LeafLabel ι)) db := by
    have bound : db.KeysBound := ran.invariant (fun _ _ _ step => step.keysBound) Db.keysBound_empty
    apply LeafKept.mk bound _ _ leaf
    · intro _ _ _ member
      cases member
    · intro operation row stored unfinished
      exact absurd (settled operation row stored) unfinished
  have guided := steps_guided_of (P := fun past s => LeafKept past s.world)
    (fun _ _ _ step => step.1) (fun _ => leafStarts_obeys)
    (fun _ s _ t step allowed _ kept => kept.step step.1 step.2 allowed) steps
    (fun _ => rfl) initial
  exact guided.2.leaf

end
open Sample

/-- Surroundings in which every call of either kind succeeds. -/
def leafAnswer (db : Db) : (c : LeafCall) → c.Reply × Db
  | .exporting c => exportAnswer db c
  | .creating c => match c with
    | .getKey lid => (getKey db lid, db)
    | .newUuid => (⟨1⟩, db)
    | .now => (9, db)
    | .wrappingCreationProvider _ _ => (.ok (), db)
    | .driver (.closeCreation request) =>
      (request.fingerprint.map (⟨·, Blake3.hash [1, 2], .sessionClosed "session"⟩), db)
    | .driver c => sampleAnswer db c

theorem leafAnswer_answers (i : Nat) (db : Db) (c : LeafCall) :
    (leafRules Nat).answers db i c (leafAnswer db c).1 (leafAnswer db c).2 := by
  cases c with
  | exporting c => exact exportAnswer_answers db c
  | creating c =>
    cases c with
    | getKey lid => exact .getKey lid _ (.inl rfl)
    | driver c =>
      cases c with
      | closeCreation => exact .driver _ _ _ (.provider _ _ rfl)
      | _ => exact .driver _ _ _ (sampleAnswer_answers db _)
    | _ => exact .elsewhere _ _ rfl

def wrappingState : ServiceState where
  wrapping _ := some ⟨sampleDomain, sampleMechanism⟩
  resolve _ := .ok ⟨0, .software⟩

def childRecord : KeyRecord :=
  { residentRecord (sampleLid 2) with parentLid := some (sampleLid 1), keyVersions := [] }

def openingRequest : LeafProg Unit := exportRequest .system "open" (sampleLid 1).display

def wrappingRequest : LeafProg Unit :=
  childRequest wrappingState sampleOwner ⟨"hsm"⟩ ⟨0, .software⟩ childRecord (sampleLid 1)

/-- One request has looked for children and is about to make the key exportable. -/
def opening := solo leafAnswer 7 parentDb openingRequest

theorem parentDb_ran : Run Db.empty [(.createKey (residentRecord (sampleLid 1)), .ok .done)]
    parentDb := .cons (storageStep_run (by decide +kernel)) (.nil _)

theorem parentDb_settled (operation : Uuid) (row : CreationIndex × CreationRow)
    (stored : Creation.storedJournal parentDb operation = some row) : row.2.phase = .committed := by
  cases stored

/-- No key has a parent. -/
def rootsOnly (db : Db) : Bool := !db.keys.any fun _ row => row.record.parentLid.isSome

variable {db : Db}

theorem parentLid_eq_none (roots : rootsOnly db = true)
    (stored : db.keyRow child = some row) : row.record.parentLid = none := by
  rw [rootsOnly, Bool.not_eq_true', Table.any_eq_false] at roots
  simpa using roots _ (Table.get?_eq_some.mp stored)

theorem leafOnly_of_roots (roots : rootsOnly db = true) : LeafOnly db := by
  intro _ _ _ _ _ childRow _ names
  rw [parentLid_eq_none roots childRow] at names
  cases names

theorem openingRequest_starts : (leafRules Nat).starts openingRequest :=
  .inl ⟨_, _, _, sampleLid 1, by decide +kernel, rfl⟩

theorem wrappingRequest_starts : (leafRules Nat).starts wrappingRequest :=
  .inr ⟨_, _, _, _, _, _, rfl, rfl⟩

def leafPlayer : Player (leafRules Nat) Bool Unit where
  program opens := if opens then openingRequest else wrappingRequest
  starts
    | true => openingRequest_starts
    | false => wrappingRequest_starts
  answer db i _ c := some ⟨leafAnswer db c, leafAnswer_answers i db c⟩

/-- Another request creates a child before the first one goes on. -/
def racing : List (Move Nat Bool Unit Sqlite.Event) :=
  .start 0 true :: replicate 7 (.advance 0 ()) ++
    .start 1 false :: replicate 15 (.advance 1 ()) ++ replicate 3 (.advance 0 ())

theorem racing_exportable :
    ((leafPlayer.plays ⟨parentDb, fun _ => .idle⟩ racing).any fun played =>
      (played.1.2.world.keyRow (sampleLid 1)).any (fun row =>
        row.record.exportability == .exportable) &&
      (played.1.2.world.keyRow (sampleLid 2)).any fun row =>
        row.record.parentLid == some (sampleLid 1)) = true := by decide +kernel

/-- A child that is published between the look and the write ends up under an exportable
    key. -/
theorem leaf_only_raced :
    ¬∀ (events : List Sqlite.Event) (db : Db), Run Db.empty events db →
      (∀ operation row, Creation.storedJournal db operation = some row →
        row.2.phase = .committed) → LeafOnly db →
      ∀ (labels : List (LeafLabel Nat)) (s : LeafSystem Nat),
        Steps (Step (leafRules Nat)) ⟨db, fun _ => .idle⟩ labels s → LeafOnly s.world := by
  intro claimed
  obtain ⟨⟨_, steps⟩, -, rows⟩ := (Option.any_eq_true _ _).mp racing_exportable
  have leaf := claimed _ parentDb parentDb_ran parentDb_settled
    (leafOnly_of_roots (by decide +kernel)) _ _ steps
  obtain ⟨parent, child⟩ := (Bool.and_eq_true _ _).mp rows
  obtain ⟨row, stored, exportable⟩ := (Option.any_eq_true _ _).mp parent
  obtain ⟨row', stored', names⟩ := (Option.any_eq_true _ _).mp child
  have closed := leaf _ row _ row' stored stored' (by decide +kernel) (beq_iff_eq.mp names)
  rw [beq_iff_eq, closed] at exportable
  cases exportable

/-- Steps of the requests under the condition on their writes. -/
abbrev CheckedSteps : LeafSystem Nat → List (LeafLabel Nat) → LeafSystem Nat → Prop :=
  Steps fun s label t => Step (leafRules Nat) s label t ∧ Unreferenced s.world label

def writesKey : LeafEvent → Bool
  | ⟨.exporting (.own (.updateKey _)), _⟩ => true
  | _ => false

theorem unreferenced_of_silent (silent : writesKey event = false)
    (db : Db) : Unreferenced db (.called i event) := by
  unfold Unreferenced
  split
  next called =>
    cases called
    cases silent
  next => trivial

/-- Steps that write no record meet the condition. -/
theorem steps_silent {events : List LeafEvent}
    (steps : Steps (Step (leafRules Nat)) s (events.map fun event => .called i event) t)
    (silent : (events.all fun event => !writesKey event) = true) :
    CheckedSteps s (events.map fun event => .called i event) t := by
  have all : ∀ label ∈ events.map fun event => (.called i event : LeafLabel Nat),
      ∀ db, Unreferenced db label := by
    intro label member db
    obtain ⟨event, among, rfl⟩ := mem_map.mp member
    have quiet := all_eq_true.mp silent event among
    exact unreferenced_of_silent (by simpa using quiet) db
  apply (steps.restrict all).imp
  intro s _ t step
  exact ⟨step.1, step.2 s.world⟩

/-- So does a step in a state without children. -/
theorem unreferenced_of_roots (roots : rootsOnly db = true) (label : LeafLabel Nat) :
    Unreferenced db label := by
  unfold Unreferenced
  split
  next =>
    intro _ _ stored names
    rw [parentLid_eq_none roots stored] at names
    cases names
  next => trivial

theorem steps_among_roots
    (steps : Steps (Step (leafRules Nat)) s labels t) (one : labels.length = 1)
    (roots : rootsOnly s.world = true) : CheckedSteps s labels t := by
  cases steps with
  | nil => cases one
  | cons first rest =>
    cases rest with
    | cons => cases one
    | nil => exact .cons ⟨first, unreferenced_of_roots roots _⟩ (.nil _)

/-- The request makes the key exportable before anyone else comes. -/
def granting := solo leafAnswer 1 opening.2.1 opening.2.2

def granted := solo leafAnswer 30 granting.2.1 granting.2.2

/-- The creation of a child is refused afterwards. -/
def refused := solo leafAnswer 30 granted.2.1 wrappingRequest

/-- A key that is made exportable before the other request looks at it gets no child. -/
theorem leaf_only_kept_refused :
    ((refused.2.1.keyRow (sampleLid 1)).any fun row =>
      row.record.exportability == .exportable) = true ∧ LeafOnly refused.2.1 := by
  constructor
  · decide +kernel
  have looked := steps_silent (steps_solo (leafAnswer_answers 0) 7 openingRequest
    (fun _ => .idle) parentDb) (by decide +kernel)
  have wrote := steps_among_roots (steps_solo (leafAnswer_answers 0) 1 opening.2.2
    (fun _ => .idle) opening.2.1) (by decide +kernel) (by decide +kernel)
  have ended := steps_silent (steps_solo (leafAnswer_answers 0) 30 granting.2.2
    (fun _ => .idle) granting.2.1) (by decide +kernel)
  have turnedDown := steps_silent (steps_solo (leafAnswer_answers 1) 30 wrappingRequest
    (update (fun _ => .idle) 0 (.live granted.2.2)) granted.2.1) (by decide +kernel)
  exact leaf_only_kept parentDb_ran parentDb_settled (leafOnly_of_roots (by decide +kernel))
    (.cons ⟨step_started rfl openingRequest_starts, trivial⟩ (looked.append (wrote.append
      (ended.append (.cons ⟨step_started rfl wrappingRequest_starts, trivial⟩ turnedDown)))))

end KeyRack.Service
