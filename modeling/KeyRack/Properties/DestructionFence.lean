import KeyRack.Properties.JournalTables
import KeyRack.Properties.KeyTable

/-!
# The destruction fence

From the commit of a claim on, nothing new is wrapped under the claimed key, and
its row waits for the one completion of that claim. Publication and the commit of
a migration never look at the fence. That they cannot pass it is the exclusion of
the journals: a claimed key takes part in neither.
-/
namespace KeyRack.Sqlite

open Store Creation Migration Destruction

/-- The record has a version with this number wrapped under `parent`. -/
def WrapsVersion (record : KeyRecord) (parent : Lid) (number : Nat) : Prop :=
  ∃ version ∈ record.keyVersions, version.versionNumber = number ∧
    ∃ material, version.material = .parentWrapped material ∧ material.parent.lid = parent

variable {parent : Lid} {number : Nat}

theorem WrapsVersion.wrapsUnder (wraps : WrapsVersion record parent number) :
    WrapsUnder record parent := by
  obtain ⟨version, member, _, material, wrapped, under⟩ := wraps
  exact ⟨version, member, material, wrapped, under⟩

/-- A stored version, of a key that is not destroyed, wrapped under `parent`. -/
def Db.Depends (db : Db) (parent child : Lid) (number : Nat) : Prop :=
  ∃ row, db.keyRow child = some row ∧ row.record.state ≠ .destroyed ∧
    WrapsVersion row.record parent number

/-- A claim keeps its operation, and a completed one is final. -/
def ClaimKept (a b : DestructionIndex × DestructionRow) : Prop :=
  b.1 = a.1 ∧ (a.2.completed = true → b = a)

theorem ClaimKept.refl (a : DestructionIndex × DestructionRow) : ClaimKept a a :=
  ⟨rfl, fun _ => rfl⟩

theorem ClaimKept.trans (a b c : DestructionIndex × DestructionRow) (ab : ClaimKept a b)
    (bc : ClaimKept b c) : ClaimKept a c := by
  refine ⟨bc.1.trans ab.1, fun completed => ?_⟩
  -- a final row is still final in the middle
  have middle := ab.2 completed
  rw [bc.2 (middle ▸ completed), middle]

section
variable [UuidText] [Blake3] [IntentEncoding]

/-! ### Claims stay -/

variable {db : Db} {event : Event}

theorem StorageStep.claims (step : StorageStep db event db') :
    Evolves ClaimKept (storedClaim db) (storedClaim db') := by
  obtain ⟨_, _⟩ := event
  rcases step.effect.claimRow with same | ⟨_, _, _, write, read, rows⟩
  · rw [same]
    exact .refl ClaimKept.refl _
  · rw [rows]
    refine .update ClaimKept.refl fun _ stored => ?_
    rw [read] at stored
    cases write with
    | claim => cases stored
    | complete _ _ unfinished =>
      cases stored
      exact ⟨rfl, fun completed => absurd (unfinished.symm.trans completed) Bool.false_ne_true⟩

theorem run_claims (run : Run db events db') :
    Evolves ClaimKept (storedClaim db) (storedClaim db') :=
  .of_steps ClaimKept.refl ClaimKept.trans (fun _ _ _ step => step.claims) run

variable {lid : Lid} {row : DestructionIndex × DestructionRow}

omit [UuidText] [Blake3] [IntentEncoding] in
theorem fenced_of_storedClaim (stored : storedClaim db lid = some row) : db.Fenced lid :=
  ⟨row, storedClaim_eq_some.mp stored⟩

/-- A claim that was returned is stored under its operation. -/
theorem Effect.claimed
    {fresh : {operation : Uuid // operation.isNil = false}} {claim : DestructionClaim}
    (effect : Effect db (.claimDestruction lid expectedOcc now fresh)
      (.ok (.claimed (some claim))) db') :
    ∃ row, storedClaim db' lid = some row ∧ row.1.operationId = claim.operation := by
  cases effect with
  | repeated repeats => exact repeats.elim
  | advance _ _ _ step => cases step
  | recover stored _ _ operation => exact ⟨_, stored, operation.symm⟩
  | claim _ _ _ _ _ operation _ _ rows =>
    exact ⟨_, (congrFun rows lid).trans (Function.update_self ..), operation.symm⟩

/-! ### What a claimed key keeps away -/

omit [Blake3] [IntentEncoding] in
theorem migrating_of_stored {row : MigrationIndex × MigrationRow}
    (stored : storedMigration db operation = some row) (bound : Bound row)
    (staged : row.2.journal.phase = .staged)
    (named : (migrationIndex row.2.journal.request).names lid = true) : db.Migrating lid := by
  refine ⟨row, (storedMigration_eq_some.mp stored).1, ?_, bound.index ▸ named⟩
  rw [bound.committed, staged]
  decide

theorem creating_of_stored {row : CreationIndex × CreationRow}
    (stored : storedJournal db operation = some row)
    (bound : Bound row material) (resolved : row.2.journal.phase = .resolved)
    (named : (creationIndex row.2.journal.request material).names lid = true) :
    db.Creating lid := by
  refine ⟨row, (storedJournal_eq_some.mp stored).1, ?_, bound.index ▸ named⟩
  rw [bound.phase, resolved]
  decide

/-- Under a claimed key no write wraps a version that was not wrapped there. -/
theorem KeyWrite.wraps
    (write : KeyWrite db db' op old new) (exclusive : db.Exclusive) (fenced : db.Fenced parent)
    (live : new.state ≠ .destroyed) (wraps : WrapsVersion new parent number) :
    ∃ record, old = some record ∧ record.state ≠ .destroyed ∧
      WrapsVersion record parent number := by
  obtain ⟨notMigrating, notCreating⟩ := exclusive.not_participating fenced
  cases write with
  -- the direct writes check the fence of every parent in the record
  | create unfenced => exact absurd fenced (unfenced.2 parent wraps.wrapsUnder)
  | update change => exact absurd fenced (change.unfenced.2 parent wraps.wrapsUnder)
  | @publish _ row material _ _ _ stored bound resolved accepted =>
    obtain ⟨version, member, number, inner, wrapped, under⟩ := wraps
    obtain ⟨_, _, given, versions⟩ := accepted.versions bound.given
    rcases (versions version).mp member with rfl | ⟨record, rfl, kept, keptMember, rfl⟩
    · -- the new version is wrapped under the parent that the row names
      cases given.symm.trans wrapped
      have named : (creationIndex row.2.journal.request material).names parent = true := by
        simp [creationIndex, CreationIndex.names, under]
      exact absurd (creating_of_stored stored bound resolved named) notCreating
    · have enabled : record.state = .enabled := by
        cases accepted
        assumption
      exact ⟨record, rfl, by rw [enabled]; decide, kept, keptMember, number, inner, wrapped, under⟩
  | @migrate _ row _ _ stored bound staged valid =>
    -- every version of the proposal is wrapped under the new parent, which the row names
    obtain ⟨version, member, _, _, wrapped, under⟩ := wraps
    obtain ⟨_, same, target, _⟩ := valid.rewrapped version member
    cases wrapped.symm.trans same
    have named : (migrationIndex row.2.journal.request).names parent = true := by
      simp [migrationIndex, MigrationIndex.names, ← target, under]
    exact absurd (migrating_of_stored stored bound staged named) notMigrating
  | schedule _ allowed | cancel _ allowed =>
    exact ⟨_, rfl, not_destroyed_of_transitionAllowed allowed, wraps⟩
  | claim pending => exact ⟨_, rfl, by rw [pending]; decide, wraps⟩
  | complete => exact absurd rfl live

/-- The only write of a claimed key's row is the completion of its claim. -/
theorem KeyWrite.completes
    (write : KeyWrite db db' op old new) (exclusive : db.Exclusive) (fenced : db.Fenced new.lid) :
    ∃ claim now row, op = .completeDestruction claim now ∧ new.state = .destroyed ∧
      storedClaim db new.lid = some row ∧ row.1.operationId = claim.operation ∧
      row.2.completed = false ∧ storedClaim db' new.lid =
        some (row.1, { row.2 with completed := true }) := by
  obtain ⟨notMigrating, notCreating⟩ := exclusive.not_participating fenced
  cases write with
  | create unfenced => exact absurd fenced unfenced.1
  | update change => exact absurd fenced change.unfenced.1
  | @publish _ row material _ _ _ stored bound resolved =>
    have named : (creationIndex row.2.journal.request material).names
        row.2.journal.request.record.lid = true := by
      simp [creationIndex, CreationIndex.names]
    exact absurd (creating_of_stored stored bound resolved named) notCreating
  | @migrate _ row _ _ stored bound staged valid =>
    have named : (migrationIndex row.2.journal.request).names
        row.2.journal.request.proposed.lid = true := by
      simp [migrationIndex, MigrationIndex.names, valid.proposed_lid]
    exact absurd (migrating_of_stored stored bound staged named) notMigrating
  | schedule unfenced | cancel unfenced => exact absurd fenced unfenced
  | claim _ unclaimed => exact absurd fenced unclaimed
  | complete stored operation unfinished completed =>
    exact ⟨_, _, _, rfl, rfl, stored, operation, unfinished, completed⟩

theorem StorageStep.depends (step : StorageStep db event db') (exclusive : db.Exclusive)
    (fenced : db.Fenced parent) (depends : db'.Depends parent child number) :
    db.Depends parent child number := by
  obtain ⟨row, stored, live, wraps⟩ := depends
  rcases step.keyRow_cases stored with before | ⟨_, _, write, read, own, rfl⟩
  · exact ⟨row, before, live, wraps⟩
  · obtain ⟨record, rfl, wasLive, wrapped⟩ := write.wraps exclusive fenced live wraps
    exact ⟨.of record, own ▸ (key_eq_some.mp read).1, wasLive, wrapped⟩

/-- A step changes a claimed key's row only by completing its claim. -/
theorem StorageStep.completes (step : StorageStep db event db') (exclusive : db.Exclusive)
    (stored : storedClaim db lid = some row) :
    db'.keyRow lid = db.keyRow lid ∨
      ∃ claim now reply record, event = (.completeDestruction claim now, .ok reply) ∧
        claim.operation = row.1.operationId ∧ row.2.completed = false ∧
        db'.keyRow lid = some (.of record) ∧ record.state = .destroyed ∧
        storedClaim db' lid = some (row.1, { row.2 with completed := true }) := by
  obtain ⟨_, _⟩ := event
  rcases step.effect.keyRow with same | ⟨_, new, write, ⟨reply, rfl⟩, _, rows⟩
  · exact Or.inl (congrFun same lid)
  · by_cases own : lid = new.lid
    · subst own
      obtain ⟨claim, now, _, rfl, destroyed, found, operation, unfinished, completed⟩ :=
        write.completes exclusive (fenced_of_storedClaim stored)
      -- the row the completion has closed is the claim we started from
      cases found.symm.trans stored
      exact Or.inr ⟨claim, now, reply, new, rfl, operation.symm, unfinished,
        (congrFun rows _).trans (Function.update_self ..), destroyed, completed⟩
    · exact Or.inl (by rw [rows, Function.update_of_ne own])

/-- After the completion the row is final. -/
theorem run_destroyed (run : Run db events db') (exclusive : db.Exclusive)
    (stored : storedClaim db lid = some row) (completed : row.2.completed = true) :
    db'.keyRow lid = db.keyRow lid := by
  -- the exclusion and the completed claim hold in every state, so no step completes again
  have final : db'.Exclusive ∧ storedClaim db' lid = some row ∧
      db'.keyRow lid = db.keyRow lid := by
    refine run.invariant (P := fun s => s.Exclusive ∧ storedClaim s lid = some row ∧
      s.keyRow lid = db.keyRow lid) ?_ ⟨exclusive, stored, rfl⟩
    rintro s _ t step ⟨exclusive, stored, same⟩
    refine ⟨step.exclusive exclusive, ?_, ?_⟩
    · obtain ⟨_, found, _, kept⟩ := step.claims lid row stored
      rwa [kept completed] at found
    · rcases step.completes exclusive stored with unchanged | ⟨_, _, _, _, _, _, unfinished, _⟩
      · exact unchanged.trans same
      · rw [completed] at unfinished
        cases unfinished
  exact final.2.2

/-! ### Reservations -/

/-- No reservation names a claimed key. -/
theorem StorageStep.unreserved (step : StorageStep db event db') (fenced : db.Fenced lid) :
    (∀ row ∈ db'.creationJournal, row.1.names lid = true →
      ∃ old ∈ db.creationJournal, old.1 = row.1) ∧
    ∀ row ∈ db'.migrationJournal, row.1.names lid = true →
      ∃ old ∈ db.migrationJournal, old.1 = row.1 := by
  obtain ⟨_, _⟩ := event
  constructor
  · intro row member named
    rcases step.effect.mem_creations member with before | ⟨_, old, write, read⟩
    · exact ⟨row, before, rfl⟩
    · cases write with
      | reserve _ _ _ free => exact absurd fenced (free lid named).2
      | advance | publish => exact ⟨_, (storedJournal_eq_some.mp read).1, rfl⟩
  · intro row member named
    rcases step.effect.mem_migrations member with before | ⟨operation, old, write, read⟩
    · exact ⟨row, before, rfl⟩
    · cases write with
      | reserve _ snapshots => exact absurd fenced (snapshots.unfenced lid named)
      | own | stage | commit => exact ⟨_, (storedMigration_eq_some.mp read).1, rfl⟩

/-- **Destruction fence**: once `claim_destruction` has returned a claim on a key,
    in every later state of the run no live version comes to be wrapped under the
    key and no creation or migration that names it is reserved. The key's own row
    changes only by the completion of that claim, which leaves it destroyed, and
    never again after that. -/
theorem run_destruction_fence (start claimed db : Db) (before events : List Event) (lid : Lid)
    (expectedOcc : Nat) (now : DateTime) (fresh : {operation : Uuid // operation.isNil = false})
    (claim : DestructionClaim) (run : Run Db.empty before start)
    (committed : StorageStep start (.claimDestruction lid expectedOcc now fresh,
      .ok (.claimed (some claim))) claimed)
    (later : Run claimed events db) :
    (∀ more final, Run db more final → ∀ child number, final.Depends lid child number →
      db.Depends lid child number) ∧
    ∀ event next, StorageStep db event next →
      (next.keyRow lid = db.keyRow lid ∨
        ∃ ticket now reply record, event = (.completeDestruction ticket now, .ok reply) ∧
          ticket.operation = claim.operation ∧ next.keyRow lid = some (.of record) ∧
          record.state = .destroyed ∧
          ∀ more final, Run next more final → final.keyRow lid = some (.of record)) ∧
      (∀ row ∈ next.creationJournal, row.1.names lid = true →
        ∃ old ∈ db.creationJournal, old.1 = row.1) ∧
      ∀ row ∈ next.migrationJournal, row.1.names lid = true →
        ∃ old ∈ db.migrationJournal, old.1 = row.1 := by
  have reachable : Run Db.empty (before ++ _ :: events) db := run.append (.cons committed later)
  have exclusive : db.Exclusive :=
    reachable.invariant (fun _ _ _ step => step.exclusive) Db.exclusive_empty
  -- the claim that was returned is still stored, under the same operation
  obtain ⟨first, firstStored, operation⟩ := committed.effect.claimed
  obtain ⟨row, stored, kept, _⟩ := run_claims later lid first firstStored
  refine ⟨?_, ?_⟩
  · -- the fence and the exclusion hold all along, so each step only removes versions
    intro more final rest child number
    refine rest.relates
      (P := fun s => s.Exclusive ∧ ∃ row, storedClaim s lid = some row)
      (R := fun s t => t.Depends lid child number → s.Depends lid child number) ?_
      (fun _ => id) (fun _ _ _ first second => first ∘ second) ?_ ⟨exclusive, row, stored⟩
    · rintro s _ t step ⟨exclusive, row, stored⟩
      obtain ⟨row', stored', _⟩ := step.claims lid row stored
      exact ⟨step.exclusive exclusive, row', stored'⟩
    · rintro s _ t step ⟨exclusive, _, stored⟩
      exact step.depends exclusive (fenced_of_storedClaim stored)
  · intro _ _ step
    refine ⟨?_, step.unreserved (fenced_of_storedClaim stored)⟩
    rcases step.completes exclusive stored with same |
      ⟨ticket, time, reply, record, rfl, same, _, written, destroyed, completed⟩
    · exact Or.inl same
    · refine Or.inr ⟨ticket, time, reply, record, rfl, ?_, written, destroyed, ?_⟩
      · rw [same, kept, operation]
      · intro _ _ rest
        rw [run_destroyed rest (step.exclusive exclusive) completed rfl, written]

end

open Sample

/-- Key 1 with a deletion scheduled. -/
def scheduledDb : Db :=
  (replay Db.empty [.createKey (residentRecord (sampleLid 1)),
    .scheduleDestruction (sampleLid 1) 1 10 false 5]).2

def sampleClaim : DestructionClaim where
  operation := ⟨7⟩
  record := claimedRecord
    (movedRecord (residentRecord (sampleLid 1)) .pendingDeletion (some 10) 5) 20
  recovered := false
  assigned := seven_not_nil
  pending := by decide
  history := by decide

def claimSample : Op := .claimDestruction (sampleLid 1) 2 20 ⟨⟨7⟩, seven_not_nil⟩

/-- A key that would be wrapped under key 1, and the completion of the claim. -/
def fencedOps : List Op :=
  [.createKey (wrappedRecord (sampleLid 2) (sampleLid 1) plainReference),
    .completeDestruction sampleClaim 30]

theorem run_destruction_fence_completed :
    let claimed := (claimSample.run scheduledDb).2
    let final := (replay claimed fencedOps).2
    final.keyRow (sampleLid 2) = none ∧
      (final.keyRow (sampleLid 1)).map (·.record.state) = some .destroyed ∧
      ∀ child number, final.Depends (sampleLid 1) child number →
        claimed.Depends (sampleLid 1) child number :=
  have committed : StorageStep scheduledDb (claimSample, .ok (.claimed (some sampleClaim)))
      (claimSample.run scheduledDb).2 := storageStep_run (by decide +kernel)
  ⟨by decide +kernel, by decide +kernel,
    (run_destruction_fence _ _ _ _ _ _ _ _ _ _ (run_replay _ _) committed (.nil _)).1 _ _
      (run_replay _ fencedOps)⟩

end KeyRack.Sqlite
