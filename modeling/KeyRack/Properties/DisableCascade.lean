import KeyRack.Properties.KeyTable
import KeyRack.Service.Domain

/-!
# The reach of the disable cascade

The cascade goes down from a child only if it has disabled that child itself.
What it disables is therefore what a chain of enabled keys leads to; a key that is
not enabled shields everything beneath it.
-/
namespace KeyRack.Service

open Fallible Loop Sqlite Relation List

/-! ### Keys and their children -/

def Enabled (db : Db) (lid : Lid) : Prop :=
  ∃ row, db.keyRow lid = some row ∧ row.record.state = .enabled

/-- The stored key names this parent. -/
def Child (db : Db) (parent lid : Lid) : Prop :=
  ∃ row, db.keyRow lid = some row ∧ row.record.parentLid = some parent

/-- Downwards reachable, the key itself included. -/
def Beneath (db : Db) : Lid → Lid → Prop := ReflTransGen (Child db)

/-- Reachable through keys that are all enabled, the first one apart. -/
def EnabledChain (db : Db) : Lid → Lid → Prop :=
  ReflTransGen fun parent lid => Child db parent lid ∧ Enabled db lid

variable {db : Db} {parent : Lid} {record : KeyRecord}

theorem mem_listChildren (bound : db.KeysBound) :
    record ∈ listChildren db parent ↔
      db.keyRow record.lid = some (.of record) ∧ record.parentLid = some parent := by
  simp only [listChildren, storedRecords, mem_filter, mem_map, beq_iff_eq, and_congr_left_iff]
  intro _
  constructor
  · rintro ⟨⟨lid, row⟩, member, rfl⟩
    have stored : db.keyRow lid = some row := Table.get?_eq_some.mpr member
    obtain ⟨own, column⟩ := bound lid row stored
    rw [own, stored, KeyRow.of, ← column]
  · intro stored
    exact ⟨_, Table.get?_eq_some.mp stored, rfl⟩

/-! ### Disabling one key -/

/-- The tables after one key was disabled: its row is another one, with the same
    parent. -/
structure Disables (db : Db) (lid : Lid) (db' : Db) : Prop where
  bound : db'.KeysBound
  kept : ∀ other, other ≠ lid → db'.keyRow other = db.keyRow other
  child : ∀ parent, Child db' parent lid ↔ Child db parent lid
  disabled : ¬Enabled db' lid

namespace Disables

variable {db db' : Db} {lid : Lid}

theorem enabled_iff (disables : Disables db lid db') :
    Enabled db' other ↔ Enabled db other ∧ other ≠ lid := by
  by_cases same : other = lid
  · subst same
    simp [disables.disabled]
  · simp [Enabled, disables.kept other same, same]

theorem child_iff (disables : Disables db lid db') :
    Child db' parent other ↔ Child db parent other := by
  by_cases same : other = lid
  · subst same
    exact disables.child parent
  · simp only [Child, disables.kept other same]

end Disables

variable {db' : Db}

/-- An update that moves a stored key to the disabled state. -/
theorem disables_of_update (bound : db.KeysBound)
    (stored : db.keyRow record.lid = some (.of record)) (ran : updateKey new db = .ok (u, db'))
    (same : new.lid = record.lid) (parent : new.parentLid = record.parentLid)
    (state : new.state = .disabled) : Disables db record.lid db' := by
  obtain ⟨_, _, keys, _, _, _, rows, rfl⟩ := updateKey_ok ran
  rw [same] at rows
  have written : keys.get? record.lid = some (.of (latched new)) := by
    rw [rows, Function.update_self]
  have kept (other : Lid) (ne : other ≠ record.lid) : keys.get? other = db.keyRow other := by
    rw [rows, Function.update_of_ne ne]
  refine ⟨fun other row found => ?_, kept, fun _ => ?_, ?_⟩
  · by_cases own : other = record.lid
    · rw [own] at found
      cases written.symm.trans found
      exact ⟨same.trans own.symm, rfl⟩
    · exact bound other row ((kept other own).symm.trans found)
  · simp only [Child, Db.keyRow, written]
    rw [← Db.keyRow, stored]
    simp only [Option.some.injEq, exists_eq_left', KeyRow.of_record, latched, parent]
  · rintro ⟨_, found, enabled⟩
    cases written.symm.trans found
    simp [latched, state] at enabled

variable {s' : Cascade}

/-- A child is left alone, if it is not enabled, or disabled and queued. -/
theorem disableChild_ok (bound : s.db.KeysBound) (stored : s.db.keyRow child.lid = some (.of child))
    (ran : disableChild clock s child = .ok s') :
    (child.state ≠ .enabled ∧ s' = s) ∨
      (child.state = .enabled ∧ Disables s.db child.lid s'.db ∧
        s'.queue = child.lid :: s.queue) := by
  unfold disableChild at ran
  split at ran
  next enabled =>
    have allowed : child.transitionAllowed .disabled = true := by
      simp [KeyRecord.transitionAllowed, enabled, KeyState.canTransitionTo,
        KeyState.validTransitions]
    split at ran
    next moved =>
      rcases transitionTo_cases moved with ⟨_, _, forbidden⟩ | ⟨impossible, _⟩
      · rw [allowed] at forbidden
        cases forbidden
      · cases impossible
    next next moved =>
      rcases transitionTo_cases moved with ⟨impossible, _⟩ | ⟨_, _, rfl⟩
      · cases impossible
      · split at ran
        next => cases ran
        next updated =>
          cases ran
          exact .inr ⟨enabled, disables_of_update bound stored updated rfl rfl rfl, rfl⟩
  next idle =>
    cases ran
    exact .inl ⟨idle, rfl⟩

variable {lid : Lid}

theorem disableTarget_ok (bound : db.KeysBound)
    (ran : disableTarget clock lid db = .ok (record, db')) : Disables db lid db' := by
  simp only [disableTarget, getKeyForUse, getKey, eq_ok, Prod.mk.injEq, Table.select?_primary,
    Option.map_eq_some_iff] at ran
  obtain ⟨_, _, _, ⟨_, ⟨row, found, rfl⟩, rfl⟩, _, moved, ⟨_, _⟩, updated, rfl, rfl⟩ := ran
  obtain ⟨own, column⟩ := bound lid row found
  have stored : db.keyRow row.record.lid = some (.of row.record) := by
    rw [own, KeyRow.of, ← column]
    exact found
  obtain ⟨_, rfl⟩ := Destruction.transition_ok moved
  have disables := disables_of_update bound stored updated rfl rfl rfl
  rw [own] at disables
  exact disables

/-! ### The invariant of the cascade -/

/-- What holds between the tables before the call and those of the cascade; `left` are
    the links still to be looked at. A key disabled so far is queued, or nothing enabled
    is left directly beneath it. -/
structure Cascading (start : Db) (lid : Lid) (left : Lid → Lid → Prop) (s : Cascade) : Prop where
  bound : s.db.KeysBound
  child : ∀ parent key, Child s.db parent key ↔ Child start parent key
  shrinks : ∀ key, Enabled s.db key → Enabled start key
  root : ¬Enabled s.db lid
  reached : ∀ key, Enabled start key → ¬Enabled s.db key → EnabledChain start lid key
  queued : ∀ key ∈ s.queue, EnabledChain start lid key
  swept : ∀ key, key = lid ∨ (Enabled start key ∧ ¬Enabled s.db key) →
    key ∈ s.queue ∨ ∀ below, Child start key below → Enabled s.db below → left key below

namespace Cascading

variable {s : Cascade}

theorem of_target (disables : Disables start lid db') (count : Nat) :
    Cascading start lid (fun _ _ => False) ⟨db', [lid], count⟩ where
  bound := disables.bound
  child _ _ := disables.child_iff
  shrinks _ enabled := (disables.enabled_iff.mp enabled).1
  root := disables.disabled
  reached key enabled disabled := by
    have same : key = lid := by
      by_contra other
      exact disabled (disables.enabled_iff.mpr ⟨enabled, other⟩)
    rw [same]
    exact .refl
  queued key member := by
    rw [mem_singleton.mp member]
    exact .refl
  swept key visited := by
    refine .inl (mem_singleton.mpr ?_)
    rcases visited with same | ⟨enabled, disabled⟩
    · exact same
    · by_contra other
      exact disabled (disables.enabled_iff.mpr ⟨enabled, other⟩)

/-- The links to keys that are not enabled need no look. -/
theorem narrow (cascading : Cascading start lid left s)
    (links : ∀ above below, left above below → Enabled s.db below → left' above below) :
    Cascading start lid left' s where
  __ := cascading
  swept key visited := (cascading.swept key visited).imp_right fun closed below link on =>
    links key below (closed below link on) on

/-- One more key on an enabled chain is disabled and queued. -/
theorem disable {key : Lid} (cascading : Cascading start lid left s)
    (chain : EnabledChain start lid key) (disables : Disables s.db key s'.db)
    (queue : s'.queue = key :: s.queue)
    (links : ∀ above below, left above below → below ≠ key → left' above below) :
    Cascading start lid left' s' where
  bound := disables.bound
  child parent other := disables.child_iff.trans (cascading.child parent other)
  shrinks other enabled := cascading.shrinks other (disables.enabled_iff.mp enabled).1
  root enabled := cascading.root (disables.enabled_iff.mp enabled).1
  reached other before after := by
    by_cases same : other = key
    · rw [same]
      exact chain
    · exact cascading.reached other before fun enabled =>
        after (disables.enabled_iff.mpr ⟨enabled, same⟩)
  queued other member := by
    rw [queue] at member
    rcases mem_cons.mp member with rfl | old
    · exact chain
    · exact cascading.queued other old
  swept other visited := by
    rw [queue]
    by_cases same : other = key
    · exact .inl (same ▸ mem_cons_self)
    · have before : other = lid ∨ (Enabled start other ∧ ¬Enabled s.db other) := by
        refine visited.imp_right fun ⟨was, now⟩ => ⟨was, fun enabled => ?_⟩
        exact now (disables.enabled_iff.mpr ⟨enabled, same⟩)
      refine (cascading.swept other before).imp (mem_cons_of_mem _) ?_
      intro closed below link on
      obtain ⟨enabled, ne⟩ := disables.enabled_iff.mp on
      exact links other below (closed below link enabled) ne

/-- With an empty queue, the keys still enabled are those no enabled chain leads to. -/
theorem enabled_iff (cascading : Cascading start lid (fun _ _ => False) s) (empty : s.queue = [])
    {key : Lid} : Enabled s.db key ↔ Enabled start key ∧ ¬EnabledChain start lid key := by
  have disabled (other : Lid) (chain : EnabledChain start lid other) :
      (other = lid ∨ Enabled start other) ∧ ¬Enabled s.db other := by
    -- down the chain: beneath a key that was disabled nothing enabled is left
    induction chain with
    | refl => exact ⟨.inl rfl, cascading.root⟩
    | @tail above below chain link ih =>
      refine ⟨.inr link.2, fun enabled => ?_⟩
      have visited := ih.1.imp_right fun was => And.intro was ih.2
      rcases cascading.swept above visited with queued | closed
      · rw [empty] at queued
        cases queued
      · exact closed below link.1 enabled
  constructor
  · intro enabled
    exact ⟨cascading.shrinks key enabled, fun chain => (disabled key chain).2 enabled⟩
  · rintro ⟨was, unchained⟩
    by_contra now
    exact unchained (cascading.reached key was now)

end Cascading

/-! ### Rounds of the cascade -/

theorem enabled_finite (db : Db) : {key | Enabled db key}.Finite := by
  refine (db.keys.rows.map (·.1)).finite_toSet.subset ?_
  rintro key ⟨row, found, _⟩
  exact mem_map.mpr ⟨(key, row), Table.get?_eq_some.mp found, rfl⟩

/-- The keys that may still be taken from the queue. -/
noncomputable def outstanding (s : Cascade) : Nat := s.queue.length + {key | Enabled s.db key}.ncard

theorem outstanding_disable {key : Lid} (enabled : Enabled s.db key)
    (disables : Disables s.db key s'.db) (queue : s'.queue = key :: s.queue) :
    outstanding s' = outstanding s := by
  have fewer : {other | Enabled s'.db other} = {other | Enabled s.db other} \ {key} := by
    ext other
    exact disables.enabled_iff
  have count := Set.ncard_sdiff_singleton_add_one (s := {other | Enabled s.db other})
    (a := key) enabled (enabled_finite s.db)
  rw [outstanding, outstanding, queue, fewer, length_cons]
  omega

/-- The rows the rest of a list of children was read from are still there. -/
def Rows (db : Db) (parent : Lid) (children : List KeyRecord) : Prop :=
  (children.map (·.lid)).Nodup ∧ ∀ record ∈ children,
    db.keyRow record.lid = some (.of record) ∧ record.parentLid = some parent

theorem foldlM_disableChild_ok {start : Db} (chain : EnabledChain start lid parent)
    {children : List KeyRecord} (rows : Rows s.db parent children)
    (cascading : Cascading start lid (fun above below => above = parent ∧
      ∃ record ∈ children, record.lid = below) s)
    (ran : children.foldlM (disableChild clock) s = .ok s') :
    Cascading start lid (fun _ _ => False) s' ∧ outstanding s' = outstanding s := by
  induction children generalizing s with
  | nil =>
    cases ran
    refine ⟨cascading.narrow ?_, rfl⟩
    rintro _ _ ⟨_, _, impossible, _⟩ _
    cases impossible
  | cons child rest ih =>
    rw [foldlM_cons, bind_eq_ok] at ran
    obtain ⟨middle, first, others⟩ := ran
    obtain ⟨stored, link⟩ := rows.2 child mem_cons_self
    obtain ⟨fresh, nodup⟩ := nodup_cons.mp rows.1
    have isEnabled : Enabled s.db child.lid ↔ child.state = .enabled := by
      simp [Enabled, stored]
    have linked : Child start parent child.lid :=
      (cascading.child parent child.lid).mp ⟨_, stored, link⟩
    have links (above below : Lid) (left : above = parent ∧
        ∃ record ∈ child :: rest, record.lid = below) (ne : below ≠ child.lid) :
        above = parent ∧ ∃ record ∈ rest, record.lid = below := by
      obtain ⟨same, record, member, rfl⟩ := left
      rcases mem_cons.mp member with rfl | later
      · exact absurd rfl ne
      · exact ⟨same, record, later, rfl⟩
    rcases disableChild_ok cascading.bound stored first with
      ⟨idle, rfl⟩ | ⟨enabled, disables, queue⟩
    · refine ih ⟨nodup, fun record member => rows.2 record (mem_cons_of_mem _ member)⟩ ?_
        others
      refine cascading.narrow fun above below left on => links above below left ?_
      rintro rfl
      exact idle (isEnabled.mp on)
    · have reached : EnabledChain start lid child.lid :=
        chain.tail ⟨linked, cascading.shrinks _ (isEnabled.mpr enabled)⟩
      have rest : Rows middle.db parent rest := by
        refine ⟨nodup, fun record member => ?_⟩
        have other : record.lid ≠ child.lid := fun same =>
          fresh (mem_map.mpr ⟨record, member, same⟩)
        rw [disables.kept _ other]
        exact rows.2 record (mem_cons_of_mem _ member)
      obtain ⟨done, count⟩ := ih rest (cascading.disable reached disables queue links) others
      exact ⟨done, count.trans (outstanding_disable (isEnabled.mpr enabled) disables queue)⟩

theorem rows_listChildren (bound : db.KeysBound) (parent : Lid) :
    Rows db parent (listChildren db parent) := by
  refine ⟨?_, fun _ member => (mem_listChildren bound).mp member⟩
  have distinct := bound.storedRecords_nodup
  exact distinct.sublist (filter_sublist.map _)

/-- A further round keeps the invariant and leaves one key fewer. -/
theorem cascadeStep_next (cascading : Cascading start lid (fun _ _ => False) s)
    (round : cascadeStep clock s = .ok (.next s')) :
    Cascading start lid (fun _ _ => False) s' ∧ outstanding s' < outstanding s := by
  unfold cascadeStep at round
  split at round
  next => cases round
  next parent queue popped =>
    simp only [eq_ok, Control.next.injEq] at round
    obtain ⟨_, ran, rfl⟩ := round
    have chain := cascading.queued parent (popped ▸ mem_cons_self)
    -- the key that was taken is the one whose links are open now
    have opened : Cascading start lid (fun above below => above = parent ∧
        ∃ record ∈ listChildren s.db parent, record.lid = below) { s with queue } := by
      refine { cascading with
        queued := fun key member => cascading.queued key (popped ▸ mem_cons_of_mem _ member)
        swept := fun key visited => ?_ }
      rcases cascading.swept key visited with queued | closed
      · rw [popped] at queued
        rcases mem_cons.mp queued with rfl | still
        · refine .inr fun below link on => ⟨rfl, ?_⟩
          obtain ⟨row, found, named⟩ := (cascading.child key below).mpr link
          obtain ⟨own, column⟩ := cascading.bound below row found
          refine ⟨row.record, (mem_listChildren cascading.bound).mpr ⟨?_, named⟩, own⟩
          rw [own, found, KeyRow.of, ← column]
        · exact .inl still
      · exact .inr fun below link on => (closed below link on).elim
    have rows : Rows { s with queue }.db parent _ := rows_listChildren cascading.bound parent
    obtain ⟨done, count⟩ := foldlM_disableChild_ok chain rows opened ran
    refine ⟨done, ?_⟩
    rw [count]
    simp only [outstanding, popped, length_cons]
    omega

/-! ### Whole calls -/

/-- The keys that a successful call leaves enabled. -/
theorem disableKey_enabled_iff {fuel : Nat} (bound : db.KeysBound)
    (returned : disableKey fuel clock lid db = some (.ok result db')) :
    (∀ parent key, Child db' parent key ↔ Child db parent key) ∧
      ∀ key, Enabled db' key ↔ Enabled db key ∧ ¬EnabledChain db lid key := by
  unfold disableKey at returned
  split at returned
  next => cases returned
  next target =>
    obtain ⟨outcome, ran, shape⟩ := Option.map_eq_some_iff.mp returned
    cases outcome with
    | error => cases shape
    | ok done =>
      cases shape
      obtain ⟨s, cascading, last⟩ := run_last
        (fun s _ holds round => (cascadeStep_next holds round).1)
        (Cascading.of_target (disableTarget_ok bound target) 0) ran
      change _ = Except.ok (Control.done _) at last
      unfold cascadeStep at last
      split at last
      next empty =>
        cases last
        exact ⟨cascading.child, fun _ => cascading.enabled_iff empty⟩
      next => simp only [eq_ok, reduceCtorEq, and_false, exists_false] at last

theorem disableKey_returns (bound : db.KeysBound) :
    ∃ fuel outcome, disableKey fuel clock lid db = some outcome := by
  unfold disableKey
  cases target : disableTarget clock lid db with
  | error => exact ⟨0, _, rfl⟩
  | ok reached =>
    obtain ⟨_, ran⟩ := run_returns
      (fun s s' holds (round : cascadeStep clock s = .ok (.next s')) =>
        (cascadeStep_next holds round).1) outstanding
      (fun s _ holds round => (cascadeStep_next holds round).2)
      (Cascading.of_target (disableTarget_ok bound target) 0) (Nat.lt_succ_self _)
    exact ⟨_, _, congrArg (Option.map _) ran⟩

/-- **Cascade**: disabling a key ends; and if it succeeds, no enabled key is left
    beneath it exactly if every enabled key beneath it was reached through enabled
    keys only. -/
theorem disable_cascade_iff (db : Db) (bound : db.KeysBound) (clock : Lid → DateTime) (lid : Lid) :
    (∃ fuel outcome, disableKey fuel clock lid db = some outcome) ∧
    ∀ fuel result db', disableKey fuel clock lid db = some (.ok result db') →
      ((∀ key, Beneath db' lid key → ¬Enabled db' key) ↔
        ∀ key, Beneath db lid key → Enabled db key → EnabledChain db lid key) := by
  refine ⟨disableKey_returns bound, fun _ _ db' returned => ?_⟩
  obtain ⟨child, enabled⟩ := disableKey_enabled_iff bound returned
  have same : Child db' = Child db := funext fun parent => funext fun key =>
    propext (child parent key)
  simp only [Beneath, same, enabled, not_and, not_not]

open Sample

/-- A root, a key beneath it in the given state, and an enabled key beneath that one. -/
def generationOps (middle : KeyState) : List Op :=
  [.createKey (residentRecord (sampleLid 1)),
    .createKey { residentRecord (sampleLid 2) with
      parentLid := some (sampleLid 1), state := middle },
    .createKey { residentRecord (sampleLid 3) with parentLid := some (sampleLid 2) }]

abbrev generations (middle : KeyState) : Db := (replay Db.empty (generationOps middle)).2

theorem generations_bound (middle : KeyState) : (generations middle).KeysBound :=
  (run_replay Db.empty (generationOps middle)).invariant (fun _ _ _ step => step.keysBound)
    Db.keysBound_empty

/-- Where every key is enabled, the whole hierarchy is disabled. -/
theorem disable_cascade_iff_enabled :
    ∃ result db', disableKey 4 (fun _ => 7) (sampleLid 1) (generations .enabled) =
        some (.ok result db') ∧ result.cascadeCount = 2 ∧
      ∀ key, Beneath db' (sampleLid 1) key → ¬Enabled db' key := by
  have returned : (disableKey 4 (fun _ => 7) (sampleLid 1) (generations .enabled)).any (fun
      | .ok result _ => result.cascadeCount == 2
      | .error _ _ => false) = true := by decide +kernel
  obtain ⟨outcome, ran, counted⟩ := (Option.any_eq_true _ _).mp returned
  cases outcome with
  | error => cases counted
  | ok result db' =>
    refine ⟨result, db', ran, by simpa using counted, ?_⟩
    refine ((disable_cascade_iff _ (generations_bound .enabled) _ _).2 _ _ _ ran).mpr ?_
    have all : ∀ row ∈ (generations .enabled).keys.rows, row.2.record.state = .enabled := by
      decide +kernel
    intro _ beneath _
    have links (parent below : Lid) (link : Child (generations .enabled) parent below) :
        Child (generations .enabled) parent below ∧ Enabled (generations .enabled) below := by
      obtain ⟨row, found, named⟩ := link
      exact ⟨⟨row, found, named⟩, row, found, all (below, row) (Table.get?_eq_some.mp found)⟩
    exact ReflTransGen.mono links _ _ beneath

/-- A disabled key in between: the enabled key beneath it stays enabled. -/
theorem disabled_key_shields_descendants :
    ¬∀ (db : Db) (events : List Sqlite.Event) (clock : Lid → DateTime) (lid : Lid) (fuel : Nat)
      (result : DisableKeyResult) (db' : Db), Run Db.empty events db →
      disableKey fuel clock lid db = some (.ok result db') →
      ∀ key, Beneath db' lid key → ¬Enabled db' key := by
  intro always
  have returned : (disableKey 2 (fun _ => 7) (sampleLid 1) (generations .disabled)).any (fun
      | .ok _ db' =>
        (db'.keyRow (sampleLid 2)).any (·.record.parentLid == some (sampleLid 1)) &&
          (db'.keyRow (sampleLid 3)).any fun row =>
            row.record.parentLid == some (sampleLid 2) && row.record.state == .enabled
      | .error _ _ => false) = true := by decide +kernel
  obtain ⟨outcome, ran, rows⟩ := (Option.any_eq_true _ _).mp returned
  cases outcome with
  | error => cases rows
  | ok _ db' =>
    simp only [Bool.and_eq_true, Option.any_eq_true, beq_iff_eq] at rows
    obtain ⟨⟨child, storedChild, above⟩, last, storedLast, between, enabled⟩ := rows
    have beneath : Beneath db' (sampleLid 1) (sampleLid 3) :=
      (Relation.ReflTransGen.single ⟨child, storedChild, above⟩).tail ⟨last, storedLast, between⟩
    exact always _ _ _ _ _ _ _ (run_replay Db.empty (generationOps .disabled)) ran _ beneath
      ⟨last, storedLast, enabled⟩

end KeyRack.Service
