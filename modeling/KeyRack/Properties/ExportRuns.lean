import KeyRack.Properties.Authorization
import KeyRack.Properties.KeyTable

/-!
# Exported key material

A request hands out key material only after the record it read carried the export
latch, or after its own write of the latch has committed. Requests write over the
version that they read, so a write that would take the latch back comes too late:
no stored record loses it.
-/
namespace KeyRack.Service

open Fallible Process Trace Store Sqlite Function Option

/-! ### What a request writes -/

/-- The key is exportable, and the time of its first export is recorded. -/
def Exported (record : KeyRecord) : Prop :=
  record.exportability = .exportable ∧ record.firstExportedAt.isSome = true

variable {record : KeyRecord}

theorem LatchedBy.exports (latched : LatchedBy record next)
    (exported : Exported record) : Exported next := by
  obtain ⟨isOpen, stamped⟩ := exported
  obtain ⟨stamp, latch⟩ := isSome_iff_exists.mp stamped
  constructor
  · apply latched.exportable _ isOpen
    simp [latch]
  · simp [latched.exported stamp latch]

/-- A record made from one that was read: it has the same version, and cannot be stored,
    or at most the next one, and keeps the latches. -/
structure Carries (record updated : KeyRecord) : Prop where
  lid : updated.lid = record.lid
  parentLid : updated.parentLid = record.parentLid
  next : updated.occVersion = record.occVersion ∨
    updated.occVersion ≤ record.occVersion + 1 ∧ LatchedBy record updated

variable {updated : KeyRecord}

theorem carries_apply (call : KeyCall) (record : KeyRecord) :
    Carries record (call.apply record).2 := by
  rcases call.apply_cases record with same | ⟨_, change⟩
  · rw [same]
    exact ⟨rfl, rfl, .inl rfl⟩
  · have latched := change.latchedBy
    generalize (call.apply record).2 = updated at change latched
    cases change with
    | state | exportability | exported =>
      exact ⟨rfl, rfl, .inr ⟨Nat.mod_le _ _, latched⟩⟩

theorem transitioned_carries {target : Exportability}
    (moved : transitioned record target now = .ok updated) : Carries record updated := by
  unfold transitioned at moved
  split at moved
  next => cases moved
  next returned =>
    cases moved
    have carries := carries_apply (.transitionExportability target now) record
    rwa [KeyCall.apply, returned] at carries

theorem markExported_exported (isOpen : record.exportability = .exportable) :
    Exported (record.markExported now) := by
  unfold KeyRecord.markExported
  split
  next => exact ⟨isOpen, rfl⟩
  next latch => simp [Exported, isOpen, latch]

theorem Carries.withVersions (carries : Carries record updated)
    (keyVersions : List KeyVersionRecord) : Carries record { updated with keyVersions } := by
  obtain ⟨lid, parentLid, same | ⟨version, latched⟩⟩ := carries
  · exact ⟨lid, parentLid, .inl same⟩
  · have kept : LatchedBy record { updated with keyVersions } :=
      ⟨latched.history, latched.destroyed, latched.exported, latched.exportable⟩
    exact ⟨lid, parentLid, .inr ⟨version, kept⟩⟩

theorem replaceHandle_ok (replaced : replaceHandle record versionNumber handle = .ok updated) :
    ∃ keyVersions, updated = { record with keyVersions } := by
  unfold replaceHandle at replaced
  simp only at replaced
  split at replaced
  next =>
    cases replaced
    exact ⟨_, rfl⟩
  next =>
    split at replaced
    next => cases replaced
    next =>
      cases replaced
      exact ⟨_, rfl⟩

/-! ### What a request does with its replies -/

abbrev ExportEvent : Type := Event ExportCall ExportCall.Reply

/-- The record that an event shows to be stored. -/
inductive ShowsKey (lid : Lid) : ExportEvent → KeyRecord → Prop where
  | read (record : KeyRecord) : ShowsKey lid ⟨.getKey lid, .ok record⟩ record
  | readForUse (record : KeyRecord) : ShowsKey lid ⟨.getKeyForUse lid, .ok record⟩ record
  | wrote (record : KeyRecord) : ShowsKey lid ⟨.updateKey record, .ok ()⟩ (latched record)

/-- A request writes what it has made from a record that it has seen. -/
def WritesSeen (lid : Lid) (past : List ExportEvent) : ExportCall → Prop
  | .updateKey updated =>
    ∃ event record, event ∈ past ∧ ShowsKey lid event record ∧ Carries record updated
  | _ => True

/-- Material is handed out for a record seen with the latch set. -/
def HandsOutExported (lid : Lid) (past : List ExportEvent) (result : ExportReply) : Prop :=
  ∀ material keySpec keyVersion, result = .keyMaterial material keySpec keyVersion →
    ∃ event record, event ∈ past ∧ ShowsKey lid event record ∧ Exported record

section
variable {lid : Lid} {past : List ExportEvent} {α β : Type}

/-- A check whose error is translated. -/
theorem returns_mapErr_then {ε : Type} {x : Except ε β} {g : ε → Status}
    (passed : ∀ b, x = .ok b → Returns (WritesSeen lid) past ensures (f b)) :
    Returns (WritesSeen lid) past ensures ((liftM (mapErr x g) : ExportOp β) >>= f) := by
  apply returns_check_then
  intro b succeeded
  exact passed b (mapErr_eq_ok.mp succeeded)

variable {event : ExportEvent}

/-- A write of a record that was made from one seen before. -/
theorem WritesSeen.of_carries (member : event ∈ past) (shows : ShowsKey lid event record)
    (carries : Carries record updated) : WritesSeen lid past (.updateKey updated) :=
  ⟨event, record, member, shows, carries⟩

theorem keyMetadata_returns (record : KeyRecord) :
    Returns (WritesSeen lid) past (HandsOutExported lid) (keyMetadata record) := by
  apply returns_observe_then trivial
  intro reply
  apply returns_mapErr_then
  intro versions _
  apply returns_pure
  nofun

theorem persistExport_returns (member : event ∈ past) (shows : ShowsKey lid event record)
    (isOpen : record.exportability = .exportable) :
    Returns (WritesSeen lid) past
      (fun later _ => ∃ event record, event ∈ later ∧ ShowsKey lid event record ∧ Exported record)
      (persistExport record) := by
  unfold persistExport
  split
  · next latch =>
    apply returns_pure
    exact ⟨event, record, member, shows, isOpen, by simp [latch]⟩
  · apply returns_observe_then trivial
    intro now
    have carries := carries_apply (.markExported now) record
    apply returns_observe_then
    · exact .of_carries (List.mem_append_left _ member) shows carries
    · intro reply
      apply returns_check
      intro _ stored
      cases mapErr_eq_ok.mp stored
      refine ⟨_, _, ?_, .wrote (record.markExported now), markExported_exported isOpen⟩
      apply List.mem_append_right
      exact List.mem_singleton_self _

theorem exportMaterial_returns (keyVersion : UInt32) :
    Returns (WritesSeen lid) past (HandsOutExported lid) (exportMaterial lid keyVersion) := by
  apply returns_observe_then trivial
  intro reply
  apply returns_mapErr_then
  rintro record rfl
  apply returns_check_then
  intro _ permitted
  have isOpen : record.exportability = .exportable := by
    simp only [refuseIf_eq_ok, not_or, not_not] at permitted
    exact permitted.1
  apply returns_check_then
  intro version _
  apply returns_observe_then trivial
  intro entry
  apply returns_mapErr_then
  intro entry _
  apply returns_mapErr_then
  intro handle _
  apply returns_observe_then trivial
  intro exported
  apply returns_mapErr_then
  intro material _
  apply Returns.bind (persistExport_returns _ (.readForUse record) isOpen)
  · intro later _ _ shown
    apply returns_pure
    intro _ _ _ _
    exact shown
  · simp

theorem openExport_returns (member : event ∈ past) (shows : ShowsKey lid event record) :
    Returns (WritesSeen lid) past (HandsOutExported lid) (openExport record) := by
  apply returns_mapErr_then
  intro _ _
  apply returns_observe_then trivial
  intro resolved
  apply returns_mapErr_then
  intro entry _
  apply returns_check_then
  intro primary _
  apply returns_mapErr_then
  intro handle _
  apply returns_observe_then trivial
  intro told
  apply returns_mapErr_then
  intro _ _
  apply returns_observe_then trivial
  intro now
  apply returns_check_then
  intro updated moved
  apply returns_observe_then
  · refine .of_carries ?_ shows (transitioned_carries moved)
    simp [member]
  · intro reply
    apply returns_mapErr_then
    intro _ _
    exact keyMetadata_returns updated

theorem revokeVersions_returns (handles : List (Nat × KeyHandle))
    (carries : Carries record updated) :
    Returns (WritesSeen lid) past (fun _ last => Carries record last)
      (revokeVersions handles updated) := by
  induction handles generalizing past updated with
  | nil => exact returns_pure carries
  | cons first _ ih =>
    apply returns_observe_then trivial
    intro resolved
    apply returns_mapErr_then
    intro entry _
    apply returns_observe_then trivial
    intro revoked
    apply returns_mapErr_then
    rintro (_ | _) _
    · exact ih carries
    · apply returns_mapErr_then
      intro replaced changed
      obtain ⟨keyVersions, rfl⟩ := replaceHandle_ok changed
      exact ih (carries.withVersions keyVersions)

theorem closeExport_returns (member : event ∈ past) (shows : ShowsKey lid event record) :
    Returns (WritesSeen lid) past (HandsOutExported lid) (closeExport record) := by
  apply returns_mapErr_then
  intro _ _
  apply returns_observe_then trivial
  intro now
  apply returns_check_then
  intro updated moved
  apply returns_mapErr_then
  intro handles _
  apply Returns.bind (revokeVersions_returns handles (transitioned_carries moved))
  intro later last grows carries
  apply returns_observe_then
  · apply WritesSeen.of_carries _ shows carries
    apply grows.subset
    simp [member]
  · intro reply
    apply returns_mapErr_then
    intro _ _
    exact keyMetadata_returns last

end

/-! ### The executor around an operation -/

section
variable {Own : Type} {OwnReply : Own → Type} {α : Type}

/-- The events of a handler's own part, among those of the handler. -/
abbrev Within (ownPast : List (Event Own OwnReply)) (past : List (ServiceEvent OwnReply)) : Prop :=
  Process.Recorded ServiceCall.own (fun _ reply => reply) ownPast past

/-- A call that is allowed among the events of the own part. -/
def Among (ownAllowed : List (Event Own OwnReply) → Own → Prop)
    (past : List (ServiceEvent OwnReply)) (c : Own) : Prop :=
  ∃ ownPast, Within ownPast past ∧ ownAllowed ownPast c

variable {past : List (ServiceEvent OwnReply)}

theorem authorizeWithResourceAttrs_obeys {guard : List (ServiceEvent OwnReply) → Own → Prop}
    (ctx : OpContext) (resourceAttrs : PdpAttributes) :
    Obeys (Guarded guard) (fun _ _ => True) past
      (authorizeWithResourceAttrs ctx resourceAttrs : Handler OwnReply Status Unit).run := by
  apply obeys_check_then fun _ _ => trivial
  intro _ _
  apply obeys_check_then fun _ _ => trivial
  intro context _
  apply (authorizeRequest_obeys _).mono
  intro _ _ _
  trivial

/-- What an operation ensures, the executor that runs it ensures. -/
theorem executeWithResourceAttrs_returns {ensures : List (Event Own OwnReply) → α → Prop}
    (ctx : OpContext) (resourceAttrs : PdpAttributes)
    (obeys : Obeys ownAllowed (fun later ended => ∀ value, ended.outcome = some (.ok value) →
      ensures later value) ownPast operation) (within : Within ownPast past) :
    Returns (Guarded (Among ownAllowed)) past
      (fun later value => ∃ ownLater, Within ownLater later ∧ ensures ownLater value)
      (ExceptT.mk (executeWithResourceAttrs ctx resourceAttrs operation)) := by
  apply obeys_bind.mpr
  apply (authorizeWithResourceAttrs_obeys ctx resourceAttrs).extends.mono
  rintro now (denied | ⟨⟨⟩⟩) ⟨grows, -⟩
  · apply obeys_bind.mpr
    apply (emitAuthorizationFailure_obeys ctx denied.code).extends.mono
    intro later _ longer
    exact ⟨grows.trans longer.1, nofun⟩
  · apply obeys_bind.mpr
    apply obeys_bind.mpr
    have ran : Obeys (Guarded (Among ownAllowed)) (fun later ended => ∃ ownLater,
        Within ownLater later ∧ ∀ value, ended.outcome = some (.ok value) →
          ensures ownLater value) now (ownPart operation) := by
      apply obeys.embed_recorded (fun _ _ => rfl) _ (within.extend grows)
      intro ownPast past c related allowed
      exact ⟨ownPast, related, allowed⟩
    apply ran.extends.mono
    rintro _ ended ⟨longer, ownLater, related, ensured⟩
    apply obeys_bind.mpr
    apply (emitEvent_obeys _).extends.mono
    rintro _ audited ⟨longest, -⟩
    apply And.intro (grows.trans (longer.trans longest))
    intro value returned
    have outcome : ended.outcome = some (.ok value) := by
      revert returned
      rcases ended.outcome with _ | (_ | _) <;> rcases audited with _ | ⟨⟨⟩⟩ <;> simp
    exact ⟨ownLater, related.extend longest, ensured value outcome⟩

end

/-! ### Whole requests -/

section
variable {lid : Lid} {past : List (ServiceEvent ExportCall.Reply)}

/-- What every request does. -/
abbrev HandlerReturns (lid : Lid) (past : List (ServiceEvent ExportCall.Reply))
    (handler : ExportHandler ExportReply) : Prop :=
  Returns (Guarded (Among (WritesSeen lid))) past
    (fun later reply => ∃ ownLater, Within ownLater later ∧ HandsOutExported lid ownLater reply)
    handler

theorem ended_obeys {α : Type} {ensures : List ExportEvent → α → Prop} {op : ExportOp α}
    (returns : Returns ownAllowed ownPast ensures op) :
    Obeys ownAllowed (fun later ended => ∀ value, ended.outcome = some (.ok value) →
      ensures later value) ownPast op.ended := by
  apply obeys_bind.mpr
  apply Obeys.mono returns
  rintro _ _ ⟨_, ensured⟩ value outcome
  exact ensured value (Option.some.inj outcome)

variable {keyId : String}

section
variable (parsed : parseLid keyId = .ok lid)
include parsed

theorem getKeyMaterial_returns (keyVersion : UInt32) :
    HandlerReturns lid past (getKeyMaterial principal requestId keyId keyVersion) := by
  apply returns_check_then
  intro named same
  cases parsed.symm.trans same
  apply returns_observe_then
  · exact ⟨[], recorded_nil, trivial⟩
  intro reply
  apply returns_check_then
  intro record _
  apply returns_check_then
  intro _ _
  apply returns_check_then
  intro _ _
  apply returns_observe_then trivial
  intro unused
  exact executeWithResourceAttrs_returns _ _ (ended_obeys (exportMaterial_returns keyVersion))
    recorded_nil

theorem makeKeyExportable_returns :
    HandlerReturns lid past (makeKeyExportable principal requestId keyId) := by
  apply returns_check_then
  intro named same
  cases parsed.symm.trans same
  apply returns_observe_then
  · exact ⟨[], recorded_nil, trivial⟩
  intro reply
  apply returns_check_then
  intro record read
  cases mapErr_eq_ok.mp read
  apply returns_observe_then
  · exact ⟨[], recorded_nil, trivial⟩
  intro children
  apply returns_check_then
  intro dependents _
  apply returns_check_then
  intro _ _
  apply returns_observe_then trivial
  intro unused
  have opened := openExport_returns (List.mem_singleton_self _)
    (.read record : ShowsKey lid _ record)
  apply executeWithResourceAttrs_returns _ _ (ended_obeys opened)
  apply recorded_singleton
  simp

theorem revokeKeyExportability_returns :
    HandlerReturns lid past (revokeKeyExportability principal requestId keyId) := by
  apply returns_check_then
  intro named same
  cases parsed.symm.trans same
  apply returns_observe_then
  · exact ⟨[], recorded_nil, trivial⟩
  intro reply
  apply returns_check_then
  intro record read
  cases mapErr_eq_ok.mp read
  apply returns_observe_then trivial
  intro unused
  have closed := closeExport_returns (List.mem_singleton_self _)
    (.read record : ShowsKey lid _ record)
  apply executeWithResourceAttrs_returns _ _ (ended_obeys closed)
  apply recorded_singleton
  simp

end

theorem starts_returns {ι : Type} [UuidText] [Blake3] [IntentEncoding]
    (starts : (exportRules ι lid).starts p) : HandlerReturns lid [] (ExceptT.mk p) := by
  obtain ⟨_, _, _, parsed, rfl | rfl | ⟨keyVersion, rfl⟩⟩ := starts
  · exact makeKeyExportable_returns parsed
  · exact revokeKeyExportability_returns parsed
  · exact getKeyMaterial_returns parsed keyVersion

end

/-! ### The stored record -/

/-- A row is replaced by a newer one only, and not by one without the latch. -/
def Follows (row row' : KeyRow) : Prop :=
  NewerOrSame (fun row => row.record.occVersion) row row' ∧
    (Exported row.record → Exported row'.record)

theorem Follows.refl (row : KeyRow) : Follows row row := ⟨.refl _ row, id⟩

theorem Follows.trans (a b c : KeyRow) (first : Follows a b) (second : Follows b c) : Follows a c :=
  ⟨.trans _ a b c first.1 second.1, second.2 ∘ first.2⟩

theorem getKey_ok (bound : db.KeysBound) (read : getKey db lid = .ok record) :
    record.lid = lid ∧ db.keyRow lid = some (.of record) := by
  simp only [getKey, eq_ok, Table.select?_primary, map_eq_some_iff] at read
  obtain ⟨_, ⟨row, found, rfl⟩, rfl⟩ := read
  obtain ⟨own, column⟩ := bound lid row found
  apply And.intro own
  rw [KeyRow.of, ← column]
  exact found

theorem read_ok (bound : db.KeysBound) (read : ReadAttempt (getKey db lid) (.ok record)) :
    record.lid = lid ∧ db.keyRow lid = some (.of record) := by
  rcases read with value | ⟨_, failed⟩
  · exact getKey_ok bound value.symm
  · cases failed

section
variable [UuidText] [Blake3] [IntentEncoding]

/-- A write over a record that was seen: if it is stored, the record was still there. -/
theorem updateKey_follows
    (step : StorageStep db (.updateKey updated, outcome) db') (carries : Carries record updated)
    (stored : db.keyRow record.lid = some row) (follows : Follows (.of record) row) :
    Evolves Follows db.keyRow db'.keyRow := by
  rcases step.effect.keyRow with same | ⟨_, _, write, _, read, rows⟩
  · rw [same]
    exact .refl Follows.refl _
  cases write with
  | @update previous _ change =>
    rw [rows]
    apply Evolves.update Follows.refl
    intro replaced present
    cases (key_eq_some.mp read).1.symm.trans present
    have current : row = .of previous := by
      have found := (key_eq_some.mp read).1
      rw [show (latched updated).lid = record.lid from carries.lid, stored] at found
      exact Option.some.inj found
    subst current
    constructor
    · exact .of_succ change.occVersion
    · have newer : record.occVersion ≤ previous.occVersion := follows.1.1
      have version : updated.occVersion = previous.occVersion + 1 := change.occVersion
      rcases carries.next with _ | ⟨_, latched⟩
      · omega
      · have unchanged : KeyRow.of previous = .of record := by
          apply follows.1.2
          simp only [KeyRow.of_record]
          omega
        intro exported
        rw [unchanged] at exported
        have kept : Exported updated := LatchedBy.exports latched exported
        exact kept

abbrev ExportLabel (ι : Type) : Type :=
  Label ι (ServiceCall ExportCall) (ServiceCall.Reply ExportCall.Reply) Sqlite.Event

abbrev ExportSystem (ι : Type) : Type :=
  System Db ι (ServiceCall ExportCall) (ServiceCall.Reply ExportCall.Reply)
    (Except Status ExportReply)

/-- Every record that a request has seen is of this key, and the stored row follows it. -/
structure Tracks {ι : Type} (lid : Lid) (labels : List (ExportLabel ι)) (db : Db) : Prop where
  bound : db.KeysBound
  seen : ∀ i event record, .called i ⟨.own event.1, event.2⟩ ∈ labels → ShowsKey lid event record →
    record.lid = lid ∧ ∃ row, db.keyRow lid = some row ∧ Follows (.of record) row

variable {ι : Type} [DecidableEq ι] {lid : Lid} {db db' : Db} {labels : List (ExportLabel ι)}

omit [DecidableEq ι] in
/-- A step keeps what was seen, if the stored row follows and what it shows is stored. -/
theorem Tracks.append (tracks : Tracks lid labels db) (bound : db'.KeysBound)
    (evolves : ∀ row, db.keyRow lid = some row → ∃ row', db'.keyRow lid = some row' ∧
      Follows row row')
    (shown : ∀ i event record, label = .called i ⟨.own event.1, event.2⟩ →
      ShowsKey lid event record → record.lid = lid ∧ db'.keyRow lid = some (.of record)) :
    Tracks lid (labels ++ [label]) db' := by
  apply Tracks.mk bound
  intro i event record member shows
  rcases List.mem_append.mp member with old | new
  · obtain ⟨own, row, stored, follows⟩ := tracks.seen i event record old shows
    obtain ⟨row', stored', later⟩ := evolves row stored
    exact ⟨own, row', stored', Follows.trans _ _ _ follows later⟩
  · obtain ⟨own, stored⟩ := shown i event record (List.mem_singleton.mp new).symm shows
    exact ⟨own, _, stored, Follows.refl _⟩

omit [DecidableEq ι] in
/-- A step that leaves the tables alone and shows what is stored. -/
theorem Tracks.idle (tracks : Tracks lid labels db)
    (shown : ∀ i event record, label = .called i ⟨.own event.1, event.2⟩ →
      ShowsKey lid event record → record.lid = lid ∧ db.keyRow lid = some (.of record)) :
    Tracks lid (labels ++ [label]) db :=
  tracks.append tracks.bound (Evolves.refl Follows.refl _ lid) shown

/-- The answer to a call of a request. -/
theorem Tracks.answered (tracks : Tracks lid labels db) (answers : c.Answers db reply db')
    (allowed : Among (WritesSeen lid) (own i labels) c) :
    Tracks lid (labels ++ [.called i ⟨.own c, reply⟩]) db' := by
  cases answers with
  | getKey _ _ read =>
    apply tracks.idle
    rintro j ⟨c, r⟩ _ ⟨⟩ shows
    cases shows with
    | read => exact read_ok tracks.bound read
  | getKeyForUse _ _ read =>
    apply tracks.idle
    rintro j ⟨c, r⟩ _ ⟨⟩ shows
    cases shows with
    | readForUse => exact read_ok tracks.bound read
  | listChildren =>
    apply tracks.idle
    rintro j ⟨c, r⟩ _ ⟨⟩ shows
    cases shows
  | elsewhere _ _ other =>
    apply tracks.idle
    rintro j ⟨c, r⟩ _ ⟨⟩ shows
    cases shows with
    | read | readForUse | wrote => cases other
  | updateKey updated _ _ attempt =>
    -- what is written was made from a record that this request has seen
    obtain ⟨_, within, event, record, member, shows, carries⟩ := allowed
    obtain ⟨named, row, stored, follows⟩ :=
      tracks.seen i event record (mem_own.mp (within event member)) shows
    have located : db.keyRow record.lid = some row := by rw [named, stored]
    rcases attempt.cases with ⟨rfl, e, rfl⟩ | ⟨_, step, returned⟩
    · apply tracks.idle
      rintro j ⟨c, r⟩ _ ⟨⟩ shows
      cases shows
    · apply tracks.append (step.keysBound tracks.bound)
        (updateKey_follows step carries located follows lid)
      rintro j ⟨c, r⟩ _ ⟨⟩ shows
      cases shows with
      | wrote =>
        cases returned () rfl
        have own : updated.lid = lid := carries.lid.trans named
        have present := step.effect.latched_stored (.inr rfl)
        rw [own] at present
        exact ⟨own, present⟩

/-- Every step of the system keeps what the requests have seen. -/
theorem Tracks.step (step : Step (exportRules ι lid) s label t)
    (allowed : label.Allowed (Guarded (Among (WritesSeen lid))) labels)
    (tracks : Tracks lid labels s.world) : Tracks lid (labels ++ [label]) t.world := by
  cases step with
  | start =>
    apply tracks.idle
    rintro j _ _ ⟨⟩
  | drop _ _ _ _ _ left =>
    cases left
    apply tracks.idle
    rintro j _ _ ⟨⟩
  | environment _ _ changed =>
    obtain ⟨stored, keeps⟩ := changed
    apply tracks.append (stored.keysBound tracks.bound)
    · intro row present
      have newer := stored.evolves (NewerOrSame.refl fun row => row.record.occVersion)
        fun _ _ _ write => .of_succ write.succ.2
      obtain ⟨row', present', version⟩ := newer lid row present
      obtain ⟨exportability, stamp⟩ := keeps row row' present present'
      refine ⟨row', present', version, ?_⟩
      simp only [Exported, exportability, stamp, imp_self]
    · rintro j _ _ ⟨⟩
  | call _ c _ _ _ _ answered =>
    cases c with
    | own => exact tracks.answered answered allowed
    | _ =>
      cases answered
      apply tracks.idle
      rintro j _ _ ⟨⟩

/-- Along a run, what the requests have seen is tracked, and a request that returned key
    material has seen the latch. -/
theorem exportSteps_track (bound : db.KeysBound)
    (steps : Steps (Step (exportRules ι lid)) ⟨db, fun _ => .idle⟩ labels s) :
    Tracks lid labels s.world ∧ ∀ i material keySpec keyVersion,
      s.threads i = .live (.done (.ok (.keyMaterial material keySpec keyVersion))) →
      ∃ event record, .called i ⟨.own event.1, event.2⟩ ∈ labels ∧ ShowsKey lid event record ∧
        Exported record := by
  have start : Tracks lid ([] : List (ExportLabel ι)) db := by
    apply Tracks.mk bound
    intro i event record member
    cases member
  obtain ⟨following, tracks⟩ := steps_guided
    (P := fun labels (s : ExportSystem ι) => Tracks lid labels s.world)
    (fun p starts => starts_returns starts)
    (fun _ s _ t step allowed _ tracks => tracks.step step allowed) steps
    (fun _ => rfl) start
  apply And.intro tracks
  intro i material keySpec keyVersion returned
  obtain ⟨_, handsOut⟩ := following.live i _ returned
  obtain ⟨_, within, latch⟩ := handsOut _ rfl
  obtain ⟨event, record, member, shows, exported⟩ := latch _ _ _ rfl
  exact ⟨event, record, mem_own.mp (within event member), shows, exported⟩

/-- **Export latch**: in every interleaving of export requests for a key, from any state
    of the tables, once a request has returned key material the stored record is
    exportable with the time of its first export, then and in every later state. -/
theorem exported_material_latched (lid : Lid) (db : Db) (events : List Sqlite.Event)
    (ran : Run Db.empty events db) (past more : List (ExportLabel ι))
    (now later : ExportSystem ι)
    (before : Steps (Step (exportRules ι lid)) ⟨db, fun _ => .idle⟩ past now)
    (after : Steps (Step (exportRules ι lid)) now more later)
    (i : ι) (material : Bytes) (keySpec : KeySpec) (keyVersion : Nat)
    (returned : now.threads i = .live (.done (.ok (.keyMaterial material keySpec keyVersion)))) :
    ∃ row, later.world.keyRow lid = some row ∧ row.record.exportability = .exportable ∧
      row.record.firstExportedAt.isSome = true := by
  have bound : db.KeysBound := ran.invariant (fun _ _ _ step => step.keysBound) Db.keysBound_empty
  obtain ⟨_, sawLatch⟩ := exportSteps_track bound before
  obtain ⟨tracks, _⟩ := exportSteps_track bound (before.append after)
  obtain ⟨event, record, called, shows, exported⟩ := sawLatch i _ _ _ returned
  -- the stored row follows the record that was seen
  obtain ⟨_, row, stored, follows⟩ :=
    tracks.seen i event record (List.mem_append_left more called) shows
  obtain ⟨exportability, stamp⟩ := follows.2 exported
  exact ⟨row, stored, exportability, stamp⟩

end
open Sample

/-- Surroundings in which everything is permitted and every backend call succeeds. -/
def exportAnswer (db : Db) :
    (c : ServiceCall ExportCall) → ServiceCall.Reply ExportCall.Reply c × Db
  | .newRequestId => ("request", db)
  | .evaluate request => (.ok (permitFor request.requestId), db)
  | .emit _ => (.ok (), db)
  | .getHsmConnection _ => (.error "not found", db)
  | .joinTask => (true, db)
  | .own c => match c with
    | .getKey lid => (getKey db lid, db)
    | .getKeyForUse lid => (getKeyForUse db lid, db)
    | .listChildren lid => (.ok (listChildren db lid), db)
    | .updateKey record => settle (updateKey record) db
    | .destroyedWrappingVersions _ => (.ok [], db)
    | .resolveForVersion _ _ => (.ok ⟨0, .software⟩, db)
    | .exportKeyMaterial _ _ => (.ok [1, 2, 3], db)
    | .makeKeyExportable _ _ => (.ok (), db)
    | .revokeKeyExportability _ _ => (.ok none, db)
    | .now => (9, db)

theorem exportAnswer_answers (db : Db) (c : ServiceCall ExportCall) :
    exportAnswers db c (exportAnswer db c).1 (exportAnswer db c).2 := by
  cases c with
  | own c =>
    cases c with
    | getKey lid => exact .getKey lid _ (.inl rfl)
    | getKeyForUse lid => exact .getKeyForUse lid _ (.inl rfl)
    | listChildren lid => exact .listChildren lid _ (.inl rfl)
    | updateKey record =>
      have settled : Attempt (.updateKey record) (fun _ => .done) db
          (settle (updateKey record) db).1 (settle (updateKey record) db).2 := .settle rfl db
      exact .updateKey record _ _ settled
    | _ => exact .elsewhere _ _ rfl
  | _ => exact (rfl : db = db)

def openRecord : KeyRecord := { residentRecord (sampleLid 1) with exportability := .exportable }

def openDb : Db := (replay Db.empty [.createKey openRecord]).2

def revokeRequest : ServiceProg ExportCall.Reply (Except Status ExportReply) :=
  (revokeKeyExportability .system "revoke" (sampleLid 1).display).run

def materialRequest : ServiceProg ExportCall.Reply (Except Status ExportReply) :=
  (getKeyMaterial .system "export" (sampleLid 1).display 0).run

/-- One request has read the key and is about to revoke its exportability. -/
def revoking := solo exportAnswer 1 openDb revokeRequest

/-- Another one exports the material meanwhile. -/
def exporting := solo exportAnswer 20 revoking.2.1 materialRequest

/-- Then the first one goes on. -/
def revoked := solo exportAnswer 20 exporting.2.1 revoking.2.2

/-- The two requests as participants 0 and 1. -/
def racingThreads (first second : ServiceProg ExportCall.Reply (Except Status ExportReply)) :
    Nat → Thread (ServiceProg ExportCall.Reply (Except Status ExportReply)) :=
  update (update (fun _ => .idle) 1 (.live second)) 0 (.live first)

theorem racing_exported :
    ∃ labels, Steps (Step (exportRules Nat (sampleLid 1))) ⟨openDb, fun _ => .idle⟩ labels
      ⟨exporting.2.1, racingThreads exporting.2.2 revoking.2.2⟩ := by
  have parsed : parseLid (sampleLid 1).display = .ok (sampleLid 1) := by decide +kernel
  have answers (i : Nat) : ∀ db c, (exportRules Nat (sampleLid 1)).answers db i c
      (exportAnswer db c).1 (exportAnswer db c).2 := exportAnswer_answers
  have first := steps_solo (answers 1) 1 revokeRequest (fun _ => .idle) openDb
  have second := steps_solo (answers 0) 20 materialRequest
    (update (fun _ => .idle) 1 (.live revoking.2.2)) revoking.2.1
  refine ⟨_, .cons (step_started rfl ?_) (first.append (.cons (step_started rfl ?_) second))⟩
  · exact ⟨_, _, _, parsed, .inr (.inl rfl)⟩
  · exact ⟨_, _, _, parsed, .inr (.inr ⟨0, rfl⟩)⟩

theorem racing_revoked :
    ∃ labels, Steps (Step (exportRules Nat (sampleLid 1)))
      ⟨exporting.2.1, racingThreads exporting.2.2 revoking.2.2⟩ labels
      ⟨revoked.2.1, racingThreads exporting.2.2 revoked.2.2⟩ := by
  have swap (second : ServiceProg ExportCall.Reply (Except Status ExportReply)) :
      racingThreads exporting.2.2 second = update
        (update (fun _ => .idle) 0 (.live exporting.2.2)) 1 (.live second) :=
    update_comm (by decide) _ _ _
  have answers : ∀ db c, (exportRules Nat (sampleLid 1)).answers db 1 c
      (exportAnswer db c).1 (exportAnswer db c).2 := exportAnswer_answers
  rw [swap, swap]
  exact ⟨_, steps_solo answers 20 revoking.2.2 _ _⟩

def handsOut : Except Status ExportReply → Bool
  | .ok (.keyMaterial _ _ _) => true
  | _ => false

/-- A revocation that had read the key before the export conflicts with the latch. -/
theorem exported_material_latched_revoked :
    (revoked.2.2.result?.any fun
      | .error status => status.code == .aborted
      | .ok _ => false) = true ∧
    ∃ row, revoked.2.1.keyRow (sampleLid 1) = some row ∧
      row.record.exportability = .exportable ∧ row.record.firstExportedAt.isSome = true := by
  constructor
  · decide +kernel
  obtain ⟨past, before⟩ := racing_exported
  obtain ⟨more, after⟩ := racing_revoked
  have returned : exporting.2.2.result?.any handsOut = true := by decide +kernel
  obtain ⟨outcome, ended, handed⟩ := (any_eq_true _ _).mp returned
  have done := Prog.result?_eq_some.mp ended
  rcases outcome with _ | (⟨material, keySpec, keyVersion⟩ | ⟨_, _⟩)
  · simp [handsOut] at handed
  · have live : racingThreads exporting.2.2 revoking.2.2 0 =
        .live (.done (.ok (.keyMaterial material keySpec keyVersion))) := by
      rw [racingThreads, update_self, done]
    exact exported_material_latched (sampleLid 1) openDb _ (run_replay Db.empty _) past more _ _
      before after 0 material keySpec keyVersion live
  · simp [handsOut] at handed

end KeyRack.Service
