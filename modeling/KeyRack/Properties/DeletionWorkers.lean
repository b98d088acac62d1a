import KeyRack.Properties.DestructionFence
import KeyRack.Service.Workers

/-!
# Concurrent deletion scans

A scan asks a provider to destroy only handles of versions of the record it holds
a claim on, and completes the claim only after every one of them was confirmed.
The claim is in the journal from the moment it is returned, so the record that the
completion destroys is the one whose handles are gone.
-/
namespace KeyRack.Service

open Fallible Process Trace Sqlite List

abbrev WorkerEvent : Type := Event WorkerCall WorkerCall.Reply

/-! ### What a scan does with its replies -/

/-- The scan was given this claim. -/
def Claims (past : List WorkerEvent) (claim : DestructionClaim) : Prop :=
  ∃ lid expectedOcc now,
    (⟨.claimDestruction lid expectedOcc now, .ok (some claim)⟩ : WorkerEvent) ∈ past

section
variable (defaultRef : ProviderRef)

/-- The provider a version is bound to: its own, its record's, or the default. -/
def ownBinding (record : KeyRecord) (version : KeyVersionRecord) : ProviderRef :=
  (version.providerRef.or record.providerRef).getD defaultRef

/-- The registry returned this entry for the binding. -/
def ResolvedAs (past : List WorkerEvent) (binding : ProviderRef) (entry : ProviderEntry) : Prop :=
  (⟨.resolve binding, .ok entry⟩ : WorkerEvent) ∈ past ∨
    binding = defaultRef ∧ (⟨.defaultEntry, .ok entry⟩ : WorkerEvent) ∈ past

/-- If the version is resident, its provider confirmed that its handle is gone. -/
def Erased (past : List WorkerEvent) (record : KeyRecord) (version : KeyVersionRecord) : Prop :=
  ∀ handle providerRef, version.material = .providerResident handle providerRef →
    ∃ entry outcome,
      (⟨.destroyKeyWithOutcome entry handle, .ok outcome⟩ : WorkerEvent) ∈ past ∧
        ResolvedAs defaultRef past (ownBinding defaultRef record version) entry

/-- The calls that carry out a claim, and what they depend on. -/
def Careful (past : List WorkerEvent) : WorkerCall → Prop
  | .destroyKeyWithOutcome entry handle => ∃ claim, Claims past claim ∧
      ∃ version ∈ claim.record.keyVersions, ∃ providerRef,
        version.material = .providerResident handle providerRef ∧
        ResolvedAs defaultRef past (ownBinding defaultRef claim.record version) entry
  | .completeDestruction claim => Claims past claim ∧
      ∀ version ∈ claim.record.keyVersions, Erased defaultRef past claim.record version
  | .listKeys _ => False
  | .claimDestruction _ _ _ => False
  | _ => True

/-- The calls of a scan. -/
def Scanning (past : List WorkerEvent) : WorkerCall → Prop
  | .listKeys _ => True
  | .claimDestruction _ _ _ => True
  | c => Careful defaultRef past c

end

variable {defaultRef : ProviderRef} {past : List WorkerEvent} {claim : DestructionClaim}

theorem Claims.mono (claims : Claims past claim) (grows : past <+: later) : Claims later claim := by
  obtain ⟨lid, expectedOcc, now, member⟩ := claims
  exact ⟨lid, expectedOcc, now, grows.subset member⟩

theorem ResolvedAs.mono
    (resolved : ResolvedAs defaultRef past binding entry) (grows : past <+: later) :
    ResolvedAs defaultRef later binding entry := by
  rcases resolved with named | ⟨same, default⟩
  · exact .inl (grows.subset named)
  · exact .inr ⟨same, grows.subset default⟩

variable {version : KeyVersionRecord}

theorem validateVersions_nodup (passed : validateVersions record versions seen = .ok u) :
    (versions.map (·.versionNumber)).Nodup ∧ seen.Disjoint (versions.map (·.versionNumber)) := by
  induction versions generalizing seen with
  | nil => simp
  | cons _ _ ih =>
    simp only [validateVersions, eq_ok, not_or] at passed
    obtain ⟨_, ⟨_, unseen, _⟩, _, _, others⟩ := passed
    obtain ⟨distinct, fresh⟩ := ih others
    obtain ⟨new, fresh⟩ := disjoint_cons_left.mp fresh
    exact ⟨nodup_cons.mpr ⟨new, distinct⟩, disjoint_cons_right.mpr ⟨unseen, fresh⟩⟩

/-- In the history of a claim a version is found under its own number. -/
theorem DestructionClaim.getVersion (claim : DestructionClaim)
    (member : version ∈ claim.record.keyVersions) :
    claim.record.getVersion version.versionNumber = some version := by
  have passed := claim.history
  simp only [validateDestructionHistory, bind_eq_ok] at passed
  obtain ⟨_, _, versions⟩ := passed
  exact KeyRecord.getVersion_of_nodup (validateVersions_nodup versions).1 member

theorem DestructionClaim.bindingOf_eq (claim : DestructionClaim)
    (member : version ∈ claim.record.keyVersions) :
    bindingOf defaultRef claim.record version.versionNumber =
      ownBinding defaultRef claim.record version := by
  rw [bindingOf, KeyRecord.effectiveProviderRef, DestructionClaim.getVersion claim member]
  rfl

/-! ### The parts of a scan -/

theorem emitAudit_ok :
    Obeys (Careful defaultRef) (fun _ result => result = .ok ()) past (emitAudit event).run :=
  obeys_observe_then trivial fun _ => rfl

/-- What follows an audit record starts from a longer past. -/
theorem obeys_emit_then {α : Type} {f : Unit → Worker α}
    {ensures : List WorkerEvent → Except KeyRackError α → Prop}
    (rest : ∀ later, past <+: later → Obeys (Careful defaultRef) ensures later (f ()).run) :
    Obeys (Careful defaultRef) ensures past (emitAudit event >>= f).run := by
  refine obeys_try.mpr (emitAudit_ok.extends.mono ?_)
  rintro later _ ⟨grows, rfl⟩
  exact rest later grows

theorem resolveForVersion_obeys (claim : DestructionClaim)
    (member : version ∈ claim.record.keyVersions) :
    Obeys (Careful defaultRef)
      (fun later result => ∀ entry, result = .ok entry →
        ResolvedAs defaultRef later (ownBinding defaultRef claim.record version) entry)
      past (resolveForVersion claim.record version.versionNumber).run := by
  unfold resolveForVersion
  rw [DestructionClaim.getVersion claim member]
  refine obeys_check_then nofun ?_
  rintro _ ⟨⟩
  cases named : version.providerRef.or claim.record.providerRef with
  | some =>
    refine ⟨trivial, ?_⟩
    rintro _ _ rfl
    refine .inl (mem_append_right _ ?_)
    rw [ownBinding, named]
    exact mem_singleton_self _
  | none =>
    refine ⟨trivial, ?_⟩
    rintro _ _ rfl
    refine .inr ⟨?_, mem_concat_self⟩
    rw [ownBinding, named]
    rfl

/-- Every pinned entry is what the registry returned for its binding. -/
def Pinned (defaultRef : ProviderRef) (past : List WorkerEvent)
    (pinned : List (ProviderRef × ProviderEntry)) : Prop :=
  ∀ binding entry, pinned.lookup binding = some entry → ResolvedAs defaultRef past binding entry

theorem pinProviders_obeys (claim : DestructionClaim)
    (members : ∀ version ∈ versions, version ∈ claim.record.keyVersions)
    (good : Pinned defaultRef past pinned) :
    Obeys (Careful defaultRef)
      (fun later result => (∃ all, result = .ok all) ∧
        ∀ all, result = .ok (some all) → Pinned defaultRef later all)
      past (pinProviders defaultRef claim versions pinned).run := by
  induction versions generalizing past pinned with
  | nil =>
    refine ⟨⟨_, rfl⟩, ?_⟩
    rintro _ ⟨⟩
    exact good
  | cons version rest ih =>
    have restMembers : ∀ v ∈ rest, v ∈ claim.record.keyVersions := fun v member =>
      members v (mem_cons_of_mem _ member)
    unfold pinProviders
    dsimp only
    split
    next => exact ih restMembers good
    next =>
      have member := members version mem_cons_self
      refine obeys_lift_then ((resolveForVersion_obeys claim member).extends.mono ?_)
      rintro later result ⟨grows, resolved⟩
      cases result with
      | ok entry =>
        refine ih restMembers fun binding other found => ?_
        -- the new entry stands for the version's own binding
        rw [lookup_cons] at found
        split at found
        next same =>
          cases found
          rw [beq_iff_eq] at same
          rw [same, DestructionClaim.bindingOf_eq claim member]
          exact resolved entry rfl
        next => exact (good binding other found).mono grows
      | error =>
        exact obeys_emit_then fun _ _ => ⟨⟨_, rfl⟩, nofun⟩

theorem destroyVersions_obeys (members : ∀ version ∈ versions, version ∈ claim.record.keyVersions)
    (claims : Claims past claim) (good : Pinned defaultRef past pinned) :
    Obeys (Careful defaultRef)
      (fun later result => (∃ confirmed, result = .ok confirmed) ∧
        (result = .ok true → ∀ version ∈ versions, Erased defaultRef later claim.record version))
      past (destroyVersions defaultRef claim pinned versions).run := by
  induction versions generalizing past with
  | nil => exact ⟨⟨true, rfl⟩, nofun⟩
  | cons version _ ih =>
    unfold destroyVersions
    split
    next handle entry isResident found =>
      have member := members version mem_cons_self
      rw [DestructionClaim.bindingOf_eq claim member] at found
      have resolved := good _ _ found
      obtain ⟨providerRef, material⟩ : ∃ providerRef,
          version.material = .providerResident handle providerRef := by
        unfold KeyVersionRecord.residentHandle at isResident
        split at isResident
        next providerRef material =>
          cases isResident
          exact ⟨providerRef, material⟩
        next => cases isResident
      refine obeys_observe_then ⟨claim, claims, version, member, providerRef, material, resolved⟩
        fun outcome => obeys_emit_then fun _ grows => ?_
      have called := (prefix_append past _).trans grows
      cases outcome with
      | error => exact ⟨⟨false, rfl⟩, nofun⟩
      | ok outcome =>
        refine (ih (fun v member => members v (mem_cons_of_mem _ member))
          (claims.mono called) fun binding entry found => (good binding entry found).mono called)
          |>.extends.mono ?_
        rintro _ _ ⟨lasts, returns, erased⟩
        refine ⟨returns, fun confirmed other otherMember => ?_⟩
        rcases mem_cons.mp otherMember with rfl | inRest
        · intro _ _ material'
          cases material.symm.trans material'
          exact ⟨entry, outcome, lasts.subset (grows.subset
            mem_concat_self), (resolved.mono called).mono lasts⟩
        · exact erased confirmed other inRest
    next => exact ⟨⟨false, rfl⟩, nofun⟩

theorem destroyBackendMaterial_obeys (claims : Claims past claim) :
    Obeys (Careful defaultRef)
      (fun later result => (∃ confirmed, result = .ok confirmed) ∧
        (result = .ok true →
          ∀ version ∈ claim.record.keyVersions, Erased defaultRef later claim.record version))
      past (destroyBackendMaterial defaultRef claim).run := by
  have members : ∀ version ∈ claim.record.keyVersions.filter (·.isResident),
      version ∈ claim.record.keyVersions := fun _ member => (mem_filter.mp member).1
  unfold destroyBackendMaterial
  rw [claim.history]
  have nothing : Pinned defaultRef past [] := nofun
  refine obeys_try.mpr ((pinProviders_obeys claim members nothing).extends.mono ?_)
  rintro _ _ ⟨grows, ⟨pins, rfl⟩, pinned⟩
  cases pins with
  | none => exact ⟨⟨false, rfl⟩, nofun⟩
  | some pins =>
    refine (destroyVersions_obeys members (claims.mono grows) (pinned pins rfl)).mono ?_
    rintro _ _ ⟨returns, erased⟩
    refine ⟨returns, fun confirmed version member handle providerRef material => ?_⟩
    -- only resident versions have anything to erase
    have isResident : version.isResident = true := by
      simp [KeyVersionRecord.isResident, material, KeyMaterial.wrapped?]
    exact erased confirmed version (mem_filter.mpr ⟨member, isResident⟩) handle providerRef
      material

theorem announceResumed_obeys :
    Obeys (Careful defaultRef) (fun _ result => result = .ok ()) past
      (announceResumed claim).run := by
  unfold announceResumed
  split
  next => exact emitAudit_ok
  next => rfl

theorem carryOut_obeys (claims : Claims past claim) :
    Obeys (Careful defaultRef) (fun _ result => result = .ok ()) past
      (carryOut defaultRef lid claim).run := by
  refine obeys_try.mpr (announceResumed_obeys.extends.mono ?_)
  rintro _ _ ⟨grows, rfl⟩
  have claims := claims.mono grows
  refine obeys_try.mpr ((destroyBackendMaterial_obeys claims).extends.mono ?_)
  rintro _ _ ⟨grows, ⟨confirmed, rfl⟩, erased⟩
  cases confirmed with
  | false => exact emitAudit_ok
  | true =>
    refine obeys_observe_then ⟨claims.mono grows, erased rfl⟩ fun reply => ?_
    cases reply with
    | ok | error => exact emitAudit_ok

/-- A careful call may be made by a scan, and is no claim. -/
theorem Careful.scanning (careful : Careful defaultRef past c) : Scanning defaultRef past c := by
  cases c <;> first | exact careful | trivial

/-- The scan tried to claim the key. -/
def Attempted (past : List WorkerEvent) (lid : Lid) : Prop :=
  ∃ expectedOcc now reply, (⟨.claimDestruction lid expectedOcc now, reply⟩ : WorkerEvent) ∈ past

/-- Carrying out a claim attempts no other. -/
theorem careful_attempts {α : Type} {ensures : List WorkerEvent → Except KeyRackError α → Prop}
    {part : Worker α} (obeys : Obeys (Careful defaultRef) ensures past part.run) :
    Obeys (Scanning defaultRef)
      (fun later result => ensures later result ∧ ∀ lid, Attempted later lid ↔ Attempted past lid)
      past part.run := by
  refine (obeys.events.extends.mono ?_).weaken fun _ _ => Careful.scanning
  rintro _ _ ⟨grows, holds, events⟩
  refine ⟨holds, fun _ => ⟨?_, ?_⟩⟩
  · rintro ⟨expectedOcc, now, reply, member⟩
    rcases events _ member with old | ⟨_, impossible⟩
    · exact ⟨expectedOcc, now, reply, old⟩
    · exact impossible.elim
  · rintro ⟨expectedOcc, now, reply, member⟩
    exact ⟨expectedOcc, now, reply, grows.subset member⟩

variable {now : DateTime}

theorem attempted_append :
    Attempted (past ++ [⟨.claimDestruction other expectedOcc now, reply⟩]) lid ↔
      Attempted past lid ∨ other = lid := by
  constructor
  · rintro ⟨occ, time, answer, member⟩
    rcases mem_concat.mp member with old | new
    · exact .inl ⟨occ, time, answer, old⟩
    · cases new
      exact .inr rfl
  · rintro (⟨occ, time, answer, old⟩ | rfl)
    · exact ⟨occ, time, answer, mem_append_left _ old⟩
    · exact ⟨expectedOcc, now, reply, mem_concat_self⟩

/-- One listed record: a due key is attempted, whatever becomes of the attempt. -/
theorem scanRecord_obeys :
    Obeys (Scanning defaultRef)
      (fun later result => result = .ok () ∧ ∀ lid, Attempted later lid ↔
        Attempted past lid ∨ pastDue now record = true ∧ record.lid = lid)
      past (scanRecord defaultRef now record).run := by
  unfold scanRecord
  split
  next due =>
    refine obeys_observe_then trivial fun reply => ?_
    have attempted (later : List WorkerEvent)
        (same : ∀ lid, Attempted later lid ↔ Attempted (past ++ [⟨_, reply⟩]) lid) :
        ∀ lid, Attempted later lid ↔
          Attempted past lid ∨ pastDue now record = true ∧ record.lid = lid := by
      intro _
      rw [same, attempted_append]
      simp [due]
    cases reply with
    | error => exact (careful_attempts emitAudit_ok).mono fun later _ after =>
        ⟨after.1, attempted later after.2⟩
    | ok claimed =>
      cases claimed with
      | none => exact ⟨rfl, attempted _ fun _ => Iff.rfl⟩
      | some claim =>
        have claims : Claims (past ++ [⟨.claimDestruction record.lid record.occVersion now,
            .ok (some claim)⟩]) claim := ⟨_, _, _, mem_concat_self⟩
        exact (careful_attempts (carryOut_obeys claims)).mono fun later _ after =>
          ⟨after.1, attempted later after.2⟩
  next notDue =>
    refine ⟨rfl, fun _ => ?_⟩
    simp [notDue]

/-- A scan attempts exactly the due keys among those it listed. -/
theorem scanRecords_obeys :
    Obeys (Scanning defaultRef)
      (fun later _ => ∀ lid, Attempted later lid ↔ Attempted past lid ∨
        ∃ record ∈ records, pastDue now record = true ∧ record.lid = lid)
      past (scanRecords defaultRef now records).run := by
  induction records generalizing past with
  | nil =>
    intro _
    simp
  | cons _ _ ih =>
    refine obeys_try.mpr (scanRecord_obeys.mono ?_)
    rintro _ _ ⟨rfl, first⟩
    refine ih.mono fun _ _ others _ => ?_
    rw [others, first, exists_mem_cons_iff, or_assoc]

theorem runDeletionScanAt_obeys :
    Obeys (Scanning defaultRef) (fun _ _ => True) [] (runDeletionScanAt defaultRef now).run :=
  obeys_perform_then trivial (fun _ => trivial) fun _ => scanRecords_obeys.mono fun _ _ _ => trivial

end KeyRack.Service

namespace KeyRack.Sqlite

open Store

section
variable [UuidText] [Blake3] [IntentEncoding]

/-! ### What the backend destroys -/

variable {db db' : Db} {event : Event}

section
variable (step : StorageStep db event db')
include step

/-- A live key is destroyed only by the completion of its claim. -/
theorem StorageStep.destroys
    (stored : db.keyRow lid = some row) (live : row.record.state ≠ .destroyed)
    (stored' : db'.keyRow lid = some row') (destroyed : row'.record.state = .destroyed) :
    ∃ claim now, event.1 = .completeDestruction claim now ∧ claim.record.lid = lid := by
  obtain ⟨_, _⟩ := event
  rcases step.keyRow_cases stored' with before | ⟨_, _, write, read, rfl, rfl⟩
  · cases stored.symm.trans before
    exact absurd destroyed live
  · cases write with
    | create =>
      rw [key_eq_none.mp read] at stored
      cases stored
    | update change => exact absurd destroyed change.live
    | publish _ _ _ accepted =>
      cases accepted with
      | fresh =>
        rw [key_eq_none.mp read] at stored
        cases stored
      | next _ enabled _ _ _ proposal =>
        rw [proposal] at destroyed
        exact absurd (enabled.symm.trans destroyed) (by decide)
    | migrate _ _ _ valid =>
      rw [valid.proposal] at destroyed
      exact absurd (valid.enabled.symm.trans destroyed) (by decide)
    | schedule | cancel => cases destroyed
    | claim pending => exact absurd (pending.symm.trans destroyed) (by decide)
    | complete => exact ⟨_, _, rfl, rfl⟩

/-- The journal row of a claim keeps its operation and its snapshot. -/
def SnapshotKept (a b : DestructionIndex × DestructionRow) : Prop :=
  b.1 = a.1 ∧ b.2.record = a.2.record

theorem StorageStep.snapshots :
    Evolves SnapshotKept (Destruction.storedClaim db) (Destruction.storedClaim db') := by
  obtain ⟨_, _⟩ := event
  rcases step.effect.claimRow with same | ⟨_, _, _, write, read, rows⟩
  · rw [same]
    exact .refl (fun _ => ⟨rfl, rfl⟩) _
  · rw [rows]
    refine .update (fun _ => ⟨rfl, rfl⟩) fun _ stored => ?_
    rw [read] at stored
    cases write with
    | claim => cases stored
    | complete =>
      cases stored
      exact ⟨rfl, rfl⟩

/-- The claim is in the journal, under its operation and with its snapshot. -/
def Db.Committed (db : Db) (claim : DestructionClaim) : Prop :=
  ∃ row, Destruction.storedClaim db claim.record.lid = some row ∧
    row.1.operationId = claim.operation ∧ row.2.record = claim.record

theorem StorageStep.committed (committed : db.Committed claim) : db'.Committed claim := by
  obtain ⟨row, stored, operation, record⟩ := committed
  obtain ⟨later, found, index, snapshot⟩ := step.snapshots _ row stored
  exact ⟨later, found, by rw [index, operation], by rw [snapshot, record]⟩

end

/-- A claim that was returned has been committed. -/
theorem Effect.commits
    {fresh : {operation : Uuid // operation.isNil = false}} {claim : DestructionClaim}
    (effect : Effect db (.claimDestruction lid expectedOcc now fresh)
      (.ok (.claimed (some claim))) db') : db'.Committed claim := by
  cases effect with
  | repeated repeats => exact repeats.elim
  | advance _ _ _ step => cases step
  | recover stored _ current operation record =>
    obtain ⟨_, own⟩ := key_eq_some.mp current
    refine ⟨_, ?_, operation.symm, record.symm⟩
    rw [record, own]
    exact stored
  | claim stored _ _ _ _ operation claimed _ rows =>
    obtain ⟨_, own⟩ := key_eq_some.mp stored
    refine ⟨(⟨lid, fresh.1⟩, ⟨claimedRecord _ now, false⟩), ?_, operation.symm, claimed.symm⟩
    have same : claim.record.lid = lid := by rw [claimed, ← own]; rfl
    rw [same]
    exact (congrFun rows lid).trans (Function.update_self ..)

end
end KeyRack.Sqlite

namespace KeyRack.Service

open Process Trace Sqlite

section
variable [UuidText] [Blake3] [IntentEncoding] {ι : Type} [DecidableEq ι]

abbrev WorkerLabel (ι : Type) : Type := Label ι WorkerCall WorkerCall.Reply Sqlite.Event

abbrev WorkerSystem (ι : Type) : Type :=
  System Db ι WorkerCall WorkerCall.Reply (Except KeyRackError Unit)

variable {s : WorkerSystem ι} {past : List (WorkerLabel ι)}

/-! ### The steps of the system -/

/-- Which storage operation stands behind a label. -/
inductive Backs : Op → Except KeyRackError Sqlite.Reply → WorkerLabel ι → Prop where
  | claim (i : ι) (lid : Lid) (expectedOcc : Nat) (now : DateTime)
      (fresh : {operation : Uuid // operation.isNil = false})
      (reply : Except KeyRackError (Option DestructionClaim))
      (outcome : Except KeyRackError Sqlite.Reply)
      (told : ∀ claim, reply = .ok claim → outcome = .ok (.claimed claim)) :
      Backs (.claimDestruction lid expectedOcc now fresh) outcome
        (.called i ⟨.claimDestruction lid expectedOcc now, reply⟩)
  | complete (i : ι) (claim : DestructionClaim) (now : DateTime)
      (reply : Except KeyRackError KeyRecord) (outcome : Except KeyRackError Sqlite.Reply) :
      Backs (.completeDestruction claim now) outcome (.called i ⟨.completeDestruction claim, reply⟩)
  | other (event : Sqlite.Event) (incomplete : Completes event.1 = false) :
      Backs event.1 event.2 (.environment event)

/-- A step leaves the tables alone or runs one storage operation; a claim is returned
    by running it. -/
theorem workerStep_storage (step : Step (workerRules ι defaultRef) s label t) :
    (t.world = s.world ∧ ∀ i lid expectedOcc now claim,
      label ≠ .called i ⟨.claimDestruction lid expectedOcc now, .ok (some claim)⟩) ∨
      ∃ op outcome, StorageStep s.world (op, outcome) t.world ∧ Backs op outcome label := by
  cases step with
  | start => exact .inl ⟨rfl, by rintro _ _ _ _ _ ⟨⟩⟩
  | drop _ _ _ _ _ left => exact .inl ⟨left, by rintro _ _ _ _ _ ⟨⟩⟩
  | environment event _ changed =>
    exact .inr ⟨event.1, event.2, changed.1, .other event changed.2⟩
  | call i _ _ reply _ _ answered =>
    cases answered with
    | claim lid expectedOcc now fresh reply _ attempt =>
      rcases attempt.cases with ⟨same, e, rfl⟩ | ⟨outcome, step, told⟩
      · exact .inl ⟨same, by rintro _ _ _ _ _ ⟨⟩⟩
      · exact .inr ⟨_, outcome, step, .claim i lid expectedOcc now fresh reply outcome told⟩
    | complete claim now reply _ attempt =>
      rcases attempt.cases with ⟨same, e, rfl⟩ | ⟨outcome, step, _⟩
      · exact .inl ⟨same, by rintro _ _ _ _ _ ⟨⟩⟩
      · exact .inr ⟨_, outcome, step, .complete i claim now reply outcome⟩
    | _ => exact .inl ⟨rfl, by rintro _ _ _ _ _ ⟨⟩⟩

/-- Every claim that a scan was given is in the journal. -/
def ClaimsCommitted (past : List (WorkerLabel ι)) (s : WorkerSystem ι) : Prop :=
  ∀ i claim, Claims (own i past) claim → s.world.Committed claim

theorem ClaimsCommitted.step (step : Step (workerRules ι defaultRef) s label t)
    (committed : ClaimsCommitted past s) : ClaimsCommitted (past ++ [label]) t := by
  rintro i claim ⟨lid, expectedOcc, now, member⟩
  rcases mem_concat.mp (mem_own.mp member) with before | given
  · have earlier := committed i claim ⟨lid, expectedOcc, now, mem_own.mpr before⟩
    rcases workerStep_storage step with ⟨same, _⟩ | ⟨_, _, step, _⟩
    · rw [same]
      exact earlier
    · exact step.committed earlier
  · cases given
    rcases workerStep_storage step with ⟨_, none⟩ | ⟨_, _, step, backs⟩
    · exact absurd rfl (none i lid expectedOcc now claim)
    · cases backs with
      | claim _ _ _ _ _ _ _ told =>
        cases told (some claim) rfl
        exact step.effect.commits

/-- **Deletion scans**: whatever the interleaving of any number of scans and other
    writers, and wherever storage and provider calls fail, a live key becomes
    destroyed only when a scan has had every resident handle of its claimed
    snapshot confirmed gone, each at the provider its version is bound to; and a
    scan that asks a provider to destroy a handle, answered or not, does so while a
    claim is committed whose snapshot has this handle in a resident version of its
    own, at the provider that version is bound to. -/
theorem deletion_scans (defaultRef : ProviderRef) (labels : List (WorkerLabel ι))
    (s t : WorkerSystem ι) (label : WorkerLabel ι)
    (steps : Steps (Step (workerRules ι defaultRef)) ⟨Db.empty, fun _ => .idle⟩ labels s)
    (step : Step (workerRules ι defaultRef) s label t) :
    (∀ lid row row', s.world.keyRow lid = some row → row.record.state ≠ .destroyed →
      t.world.keyRow lid = some row' → row'.record.state = .destroyed →
      ∃ i claim, claim.record.lid = lid ∧ Claims (own i labels) claim ∧
        s.world.Committed claim ∧ ∀ version ∈ claim.record.keyVersions,
          Erased defaultRef (own i labels) claim.record version) ∧
    ∀ i entry handle next,
      s.threads i = .live (.call (.destroyKeyWithOutcome entry handle) next) →
      ∃ claim, s.world.Committed claim ∧ ∃ version ∈ claim.record.keyVersions, ∃ providerRef,
        version.material = .providerResident handle providerRef ∧
        ResolvedAs defaultRef (own i labels) (ownBinding defaultRef claim.record version)
          entry := by
  have every (p : Prog WorkerCall WorkerCall.Reply (Except KeyRackError Unit))
      (starts : (workerRules ι defaultRef).starts p) :
      Obeys (Scanning defaultRef) (fun _ _ => True) [] p := by
    obtain ⟨_, rfl⟩ := starts
    exact runDeletionScanAt_obeys
  have unclaimed : ClaimsCommitted [] (⟨Db.empty, fun _ => .idle⟩ : WorkerSystem ι) := by
    rintro i _ ⟨_, _, _, impossible⟩
    cases impossible
  obtain ⟨following, committed⟩ := steps_guided every
    (fun _ _ _ _ step _ _ committed => ClaimsCommitted.step step committed)
    steps (fun _ => rfl) unclaimed
  obtain ⟨allowed, _⟩ := step.following every following
  constructor
  · intro _ _ _ stored live stored' destroyed
    rcases workerStep_storage step with ⟨same, _⟩ | ⟨_, _, stored'', backs⟩
    · rw [same, stored] at stored'
      cases stored'
      exact absurd destroyed live
    · obtain ⟨claim, now, isCompletion, own⟩ := stored''.destroys stored live stored' destroyed
      cases backs with
      | claim => cases isCompletion
      | complete i =>
        cases isCompletion
        exact ⟨i, claim, own, allowed.1, committed i claim allowed.1, allowed.2⟩
      | other event incomplete =>
        rw [show event.1 = .completeDestruction claim now from isCompletion] at incomplete
        cases incomplete
  · intro i _ _ _ waits
    obtain ⟨claim, claims, version, member, providerRef, material, resolved⟩ :=
      (following.live i _ waits).1
    exact ⟨claim, committed i claim claims, version, member, providerRef, material, resolved⟩

end

open Sample

/-- The claim as the caller gets it. -/
def claimAnswer (db : Db) (op : Op) : Except KeyRackError (Option DestructionClaim) × Db :=
  match op.run db with
  | (.ok (.claimed claim), db') => (.ok claim, db')
  | (.ok _, db') => (.error .panicked, db')
  | (.error e, db') => (.error e, db')

theorem claimAnswer_attempt (db : Db) (op : Op) :
    Attempt op .claimed db (claimAnswer db op).1 (claimAnswer db op).2 := by
  unfold claimAnswer
  split
  next claim db' ran => exact .returned (.ok claim) db' ran
  next outcome db' _ ran => exact .lost (.ok outcome) .panicked db' ran
  next e db' ran => exact .returned (.error e) db' ran

/-- The backend answers every call, and every provider confirms. -/
def confirmingAnswer (db : Db) : (c : WorkerCall) → c.Reply × Db
  | .listKeys filter => (.ok (listKeys db filter), db)
  | .claimDestruction lid expectedOcc now =>
    claimAnswer db (.claimDestruction lid expectedOcc now ⟨⟨7⟩, seven_not_nil⟩)
  | .completeDestruction claim => settle (Destruction.destructionComplete claim 30) db
  | .resolve _ => (.ok ⟨1, .software⟩, db)
  | .defaultEntry => (.ok ⟨0, .software⟩, db)
  | .destroyKeyWithOutcome _ _ => (.ok DestroyKeyOutcome.completed, db)
  | .emit _ => (.ok (), db)

theorem confirmingAnswer_answers (db : Db) (c : WorkerCall) :
    c.Answers db (confirmingAnswer db c).1 (confirmingAnswer db c).2 := by
  cases c with
  | listKeys filter => exact .list filter _ (.inl rfl)
  | claimDestruction lid expectedOcc now =>
    exact .claim lid expectedOcc now _ _ _ (claimAnswer_attempt db _)
  | completeDestruction claim => exact .complete claim 30 _ _ (.settle rfl db)
  | resolve name => exact .resolve name _
  | defaultEntry => exact .defaultEntry _
  | destroyKeyWithOutcome entry handle => exact .destroy entry handle _
  | emit event => exact .emit event _

/-- A scan up to its completion, and the completion. -/
abbrev confirmedScan :
    List WorkerEvent × Db × Prog WorkerCall WorkerCall.Reply (Except KeyRackError Unit) :=
  solo confirmingAnswer 5 scheduledDb (runDeletionScanAt ⟨"hsm"⟩ 20).run

abbrev completedScan :
    List WorkerEvent × Db × Prog WorkerCall WorkerCall.Reply (Except KeyRackError Unit) :=
  solo confirmingAnswer 1 confirmedScan.2.1 confirmedScan.2.2

/-- The key is destroyed by the scan that had its handle confirmed gone. -/
theorem deletion_scans_completed :
    (confirmedScan.2.1.keyRow (sampleLid 1)).map (·.record.state) = some .pendingDeletion ∧
    (completedScan.2.1.keyRow (sampleLid 1)).map (·.record.state) = some .destroyed ∧
    ∃ claim, claim.record.lid = sampleLid 1 ∧ confirmedScan.2.1.Committed claim := by
  have prepared : Steps (workerRules Unit ⟨"hsm"⟩).environment Db.empty _ scheduledDb :=
    steps_play (fun db op => op.run db) (fun _ op => Completes op = false) Db.empty
      [.createKey (residentRecord (sampleLid 1)), .scheduleDestruction (sampleLid 1) 1 10 false 5]
      (by simp [Completes])
  have answers : ∀ db c, (workerRules Unit ⟨"hsm"⟩).answers db () c (confirmingAnswer db c).1
      (confirmingAnswer db c).2 := confirmingAnswer_answers
  have started : Step (workerRules Unit ⟨"hsm"⟩) ⟨scheduledDb, fun _ => .idle⟩ (.started ()) _ :=
    .start _ () (runDeletionScanAt ⟨"hsm"⟩ 20).run rfl ⟨20, rfl⟩
  have scanned := steps_solo answers 5 (runDeletionScanAt ⟨"hsm"⟩ 20).run (fun _ => .idle)
    scheduledDb
  have completing := steps_solo answers 1 confirmedScan.2.2 (fun _ => .idle) confirmedScan.2.1
  have pending : (confirmedScan.2.1.keyRow (sampleLid 1)).map (·.record.state) =
      some .pendingDeletion := by decide +kernel
  have destroyed : (completedScan.2.1.keyRow (sampleLid 1)).map (·.record.state) =
      some .destroyed := by decide +kernel
  have single : completedScan.1.length = 1 := by decide +kernel
  refine ⟨pending, destroyed, ?_⟩
  obtain ⟨row, stored, live⟩ := Option.map_eq_some_iff.mp pending
  obtain ⟨row', stored', gone⟩ := Option.map_eq_some_iff.mp destroyed
  obtain ⟨_, only⟩ := List.length_eq_one_iff.mp single
  rw [only] at completing
  cases completing with
  | cons step rest =>
    cases rest
    obtain ⟨i, claim, own, _, committed, _⟩ := (deletion_scans ⟨"hsm"⟩ _ _ _ _
      ((steps_environment prepared _).append (.cons started scanned)) step).1 (sampleLid 1) row row'
      stored (by rw [live]; decide) stored' gone
    exact ⟨claim, own, committed⟩

end KeyRack.Service
