import KeyRack.Properties.DeletionWorkers

/-!
# Which keys a listing returns

The query takes the first rows of the table before any condition is checked, and
no page names a next one. A key beyond the limit is therefore never returned, and
a deletion scan, which lists with the default limit, never attempts it.
-/
namespace KeyRack.Sqlite

open Process List

/-! ### Following the cursor -/

/-- The items of the pages from a filter on, until a page names no next one. -/
inductive Pages (db : Db) : KeyFilter → List KeyRecord → Prop where
  | last (filter : KeyFilter) (ends : (listKeys db filter).nextCursor = none) :
      Pages db filter (listKeys db filter).items
  | more (filter : KeyFilter) (cursor : String) (items : List KeyRecord)
      (continues : (listKeys db filter).nextCursor = some cursor)
      (rest : Pages db { filter with cursor := some cursor } items) :
      Pages db filter ((listKeys db filter).items ++ items)

variable {db : Db} {filter : KeyFilter}

/-- There is one page. -/
theorem pages_iff : Pages db filter items ↔ items = (listKeys db filter).items := by
  constructor
  · intro pages
    cases pages with
    | last => rfl
    | more _ _ _ continues => cases continues
  · rintro rfl
    exact .last filter rfl

/-- The rows that the query takes. -/
def KeyFilter.limitRows (filter : KeyFilter) : Nat := filter.limit.getD 100

theorem listKeys_items :
    (listKeys db filter).items =
      ((storedRecords db).take filter.limitRows).filter filter.admits := rfl

/-- The page has every matching record exactly if none is beyond the limit. -/
theorem listKeys_perm_iff :
    (listKeys db filter).items.Perm ((storedRecords db).filter filter.admits) ↔
      ∀ record ∈ (storedRecords db).drop filter.limitRows, filter.admits record = false := by
  have split : (storedRecords db).filter filter.admits =
      (listKeys db filter).items ++
        ((storedRecords db).drop filter.limitRows).filter filter.admits := by
    rw [listKeys_items, ← filter_append, take_append_drop]
  have empty : ((storedRecords db).drop filter.limitRows).filter filter.admits = [] ↔
      ∀ record ∈ (storedRecords db).drop filter.limitRows, filter.admits record = false := by
    simp [filter_eq_nil_iff]
  rw [split, ← empty]
  constructor
  · intro same
    have lengths := same.length_eq
    rw [length_append] at lengths
    exact eq_nil_of_length_eq_zero (by omega)
  · intro none
    rw [none, append_nil]

end KeyRack.Sqlite

namespace KeyRack.Service

open Process Sqlite

/-! ### Which keys a scan attempts -/

/-- The key waits for its deletion, and the time has come. -/
def Due (now : DateTime) (record : KeyRecord) : Prop :=
  record.state = .pendingDeletion ∧ pastDue now record = true

theorem scanFilter_admits : scanFilter.admits record = true ↔ record.state = .pendingDeletion := by
  simp only [KeyFilter.admits, KeyFilter.ownerOk, scanFilter, Option.all_some, Option.isNone_none,
    Bool.true_or, Bool.and_true, List.all_nil, beq_iff_eq]
  exact eq_comm

/-- In every execution of the scan in which its listing read this state, each due
    key is attempted. -/
def ScanAttemptsAll (defaultRef : ProviderRef) (now : DateTime) (db : Db) : Prop :=
  ∀ events result, Execution (runDeletionScanAt defaultRef now).run
      (⟨.listKeys scanFilter, .ok (listKeys db scanFilter)⟩ :: events) result →
    ∀ record ∈ storedRecords db, Due now record → Attempted events record.lid

theorem scan_attempted
    (execution : Execution (scanRecords defaultRef now records).run events result) (lid : Lid) :
    Attempted events lid ↔ ∃ record ∈ records, pastDue now record = true ∧ record.lid = lid := by
  have obeys : Obeys (Scanning defaultRef) _ [] (scanRecords defaultRef now records).run :=
    scanRecords_obeys
  have attempts := obeys.execution execution lid
  rw [List.nil_append] at attempts
  rw [attempts]
  constructor
  · rintro (⟨_, _, _, impossible⟩ | found)
    · cases impossible
    · exact found
  · exact Or.inr

theorem scanAttemptsAll_iff :
    ScanAttemptsAll defaultRef now db ↔
      ∀ record ∈ storedRecords db, Due now record →
        ∃ listed ∈ (storedRecords db).take 100, Due now listed ∧ listed.lid = record.lid := by
  have listed (lid : Lid) :
      (∃ record ∈ (listKeys db scanFilter).items, pastDue now record = true ∧ record.lid = lid) ↔
        ∃ record ∈ (storedRecords db).take 100, Due now record ∧ record.lid = lid := by
    have limit : scanFilter.limitRows = 100 := rfl
    simp only [listKeys_items, limit, List.mem_filter, scanFilter_admits, Due]
    constructor
    · rintro ⟨record, ⟨member, pending⟩, due, own⟩
      exact ⟨record, member, ⟨pending, due⟩, own⟩
    · rintro ⟨record, member, ⟨pending, due⟩, own⟩
      exact ⟨record, ⟨member, pending⟩, due, own⟩
  constructor
  · intro all record member due
    have : ∀ c : WorkerCall, Nonempty c.Reply := fun c => ⟨.error .panicked⟩
    obtain ⟨events, result, execution⟩ :=
      exists_execution (scanRecords defaultRef now (listKeys db scanFilter).items).run
    have attempted := all events result (.call _ _ _ _ _ execution) record member due
    exact (listed record.lid).mp ((scan_attempted execution record.lid).mp attempted)
  · intro covered _ _ execution record member due
    cases execution with
    | call _ _ _ _ _ rest =>
      exact (scan_attempted rest record.lid).mpr
        ((listed record.lid).mpr (covered record member due))

section
variable [UuidText] [Blake3] [IntentEncoding]

/-- **Listing**: following the cursor of a listing ends, with the same items each
    time, and they are the stored keys that satisfy the filter exactly if no such
    key is beyond the rows that the limit takes; one deletion scan attempts every
    due key exactly if none is beyond the first hundred rows. -/
theorem listing_complete_iff (db : Db) (events : List Sqlite.Event)
    (run : Run Db.empty events db) (filter : KeyFilter) (defaultRef : ProviderRef)
    (now : DateTime) :
    (∃ items, Pages db filter items ∧ (∀ other, Pages db filter other → other = items) ∧
      (items.Perm ((storedRecords db).filter filter.admits) ↔
        ∀ record ∈ (storedRecords db).drop (filter.limit.getD 100), filter.admits record = false)) ∧
    (ScanAttemptsAll defaultRef now db ↔
      ∀ record ∈ (storedRecords db).drop 100, ¬Due now record) := by
  constructor
  · exact ⟨_, pages_iff.mpr rfl, fun _ pages => pages_iff.mp pages, listKeys_perm_iff⟩
  · have bound : db.KeysBound := run.invariant (fun _ _ _ step => step.keysBound) Db.keysBound_empty
    have distinct := bound.storedRecords_nodup
    rw [← List.take_append_drop 100 (storedRecords db), List.map_append,
      List.nodup_append] at distinct
    rw [scanAttemptsAll_iff]
    constructor
    · intro covered record member due
      -- a listed key with the same identifier would be a second row of this key
      obtain ⟨_, taken, _, same⟩ := covered record (List.mem_of_mem_drop member) due
      exact distinct.2.2 _ (List.mem_map_of_mem taken) _ (List.mem_map_of_mem member) same
    · intro none record member due
      rw [← List.take_append_drop 100 (storedRecords db), List.mem_append] at member
      rcases member with taken | dropped
      · exact ⟨record, taken, due, rfl⟩
      · exact absurd due (none record dropped)

end

open Sample

theorem listing_complete_iff_scheduled : ScanAttemptsAll ⟨"hsm"⟩ 20 scheduledDb := by
  refine (listing_complete_iff scheduledDb _ (run_replay _ _) {} ⟨"hsm"⟩ 20).2.mpr ?_
  exact fun _ impossible => by cases impossible

/-- Two keys, listed with a limit of one: the second is on no page. -/
theorem limited_listing_misses_key :
    ¬∀ (db : Db) (events : List Sqlite.Event) (filter : KeyFilter), Run Db.empty events db →
      ∃ items, Pages db filter items ∧ items.Perm ((storedRecords db).filter filter.admits) := by
  intro always
  obtain ⟨_, pages, same⟩ := always _ _ { limit := some 1 } (run_replay Db.empty
    [.createKey (residentRecord (sampleLid 1)), .createKey (residentRecord (sampleLid 3))])
  have lengths := same.length_eq
  rw [pages_iff.mp pages] at lengths
  revert lengths
  decide +kernel

end KeyRack.Service
