import KeyRack.Core.Migration
import KeyRack.Properties.CreationJournal

/-!
# What accepted requests propose

A creation that passes `validateRecords` appends one wrapped version to the exact
record that was read, or makes a first version where there is none. A migration
that passes `validate` rewraps every version under the new parent: the numbers
stay and each new reference names the operation and its version. Both move the
counter on by one.
-/
namespace KeyRack

open Fallible List CreationRequest MigrationRequest

/-! ### Creation -/

private theorem le_foldl_max (numbers : List Nat) (start : Nat) :
    start ≤ numbers.foldl max start ∧ ∀ n ∈ numbers, n ≤ numbers.foldl max start := by
  induction numbers generalizing start with
  | nil => simp
  | cons head _ ih =>
    obtain ⟨grows, bounds⟩ := ih (max start head)
    simp only [foldl_cons, forall_mem_cons]
    exact ⟨le_trans (le_max_left _ _) grows, le_trans (le_max_right _ _) grows, bounds⟩

/-- How an accepted creation relates to the child's current record. -/
inductive CreationRequest.Extends (request : CreationRequest) : Option KeyRecord → Prop where
  | fresh (expected : request.expectedKeyOcc = none) (occVersion : request.record.occVersion = 1)
      (single : request.record.keyVersions.length = 1) : request.Extends none
  | next {current : KeyRecord}
      (expected : request.expectedKeyOcc = some current.occVersion)
      (enabled : current.state = .enabled) (clean : current.hasCompromiseHistory = false)
      (primary : request.record.primaryVersion = some version)
      (newer : ∀ old ∈ current.keyVersions, old.versionNumber < request.record.currentKeyVersion)
      (proposal : request.record = request.proposed current (current.occVersion + 1)
        request.record.currentKeyVersion version) : request.Extends (some current)

variable {request : CreationRequest}

/-- A next version is numbered one above the highest in the history that was read. -/
theorem CreationRequest.validateChild_next {current : KeyRecord}
    (passed : request.validateChild (some current) = .ok ()) :
    ∃ version, request.record.primaryVersion = some version ∧
      request.expectedKeyOcc = some current.occVersion ∧ current.state = .enabled ∧
      current.hasCompromiseHistory = false ∧
      request.record.currentKeyVersion =
        (current.keyVersions.map (·.versionNumber)).foldl max 0 + 1 ∧
      request.record = request.proposed current (current.occVersion + 1)
        request.record.currentKeyVersion version := by
  unfold validateChild at passed
  split at passed
  next impossible => cases impossible
  next expected same =>
    cases same
    simp only [eq_ok, nextVersion, checkedSucc_eq_some, not_or, not_not,
      Bool.not_eq_true] at passed
    obtain ⟨_, rfl, _, ⟨_, highest⟩, _, ⟨numbered, enabled, clean⟩, _, ⟨_, rfl⟩, version,
      primary, _, compared, accepted⟩ := passed
    subst numbered
    exact ⟨version, primary, expected, enabled, clean, highest,
      (eq_of_sameJson compared accepted).symm⟩
  next => cases passed

theorem CreationRequest.validateChild_extends
    (passed : request.validateChild current = .ok ()) : request.Extends current := by
  cases current with
  | none =>
    unfold validateChild at passed
    split at passed
    next expected _ =>
      rw [refuseIf_eq_ok, not_not] at passed
      exact .fresh expected passed.1 passed.2.2
    next impossible => cases impossible
    next => cases passed
  | some current =>
    obtain ⟨version, primary, expected, enabled, clean, highest, proposal⟩ :=
      validateChild_next passed
    refine .next expected enabled clean primary ?_ proposal
    intro old member
    have bound := (le_foldl_max (current.keyVersions.map (·.versionNumber)) 0).2 old.versionNumber
      (mem_map_of_mem member)
    rw [highest]
    exact Nat.lt_succ_of_le bound

theorem CreationRequest.validateRecords_ok [UuidText]
    (passed : request.validateRecords current parent = .ok ()) :
    request.validate = .ok () ∧ request.Extends current := by
  simp only [validateRecords, bind_eq_ok] at passed
  obtain ⟨_, valid, _, _, _, _, _, _, _, _, _, _, child⟩ := passed
  exact ⟨valid, validateChild_extends child⟩

variable {version : KeyVersionRecord}

theorem CreationRequest.primaryVersion_number {record : KeyRecord}
    (primary : record.primaryVersion = some version) :
    version ∈ record.keyVersions ∧ version.versionNumber = record.currentKeyVersion := by
  refine ⟨mem_of_find?_eq_some primary, ?_⟩
  simpa using List.find?_some primary

/-- The proposed history: the current one, no longer primary, and the new version. -/
theorem CreationRequest.Extends.versions {material : ParentWrappedMaterial}
    (accepted : request.Extends current) (given : request.material = .ok material) :
    ∃ version, version.versionNumber = request.record.currentKeyVersion ∧
      version.material = .parentWrapped material ∧
      ∀ v, v ∈ request.record.keyVersions ↔
        v = version ∨ ∃ record, current = some record ∧
          ∃ old ∈ record.keyVersions, v = { old with isPrimary := false } := by
  obtain ⟨version, primary, wrapped⟩ := material_ok given
  obtain ⟨member, number⟩ := primaryVersion_number primary
  refine ⟨version, number, wrapped, fun v => ?_⟩
  cases accepted with
  | fresh _ _ single =>
    obtain ⟨_, same⟩ := length_eq_one_iff.mp single
    rw [same, mem_singleton] at member
    simp [same, member]
  | @next newest _ _ _ _ newestPrimary _ proposal =>
    have same : newest = version := by
      rw [newestPrimary] at primary
      exact Option.some.inj primary
    rw [proposal, proposed, same]
    simp only [mem_append, mem_map, mem_singleton, Option.some.injEq, exists_eq_left']
    constructor
    · rintro (⟨old, oldMember, rfl⟩ | rfl)
      · exact Or.inr ⟨old, oldMember, rfl⟩
      · exact Or.inl rfl
    · rintro (rfl | ⟨old, oldMember, rfl⟩)
      · exact Or.inr rfl
      · exact Or.inl ⟨old, oldMember, rfl⟩

/-- **Accepted creations**: `validate_records` accepts, over a current record, only that
    record with one primary version appended, numbered one above the highest in its
    history; and in every accepted request the new version is wrapped under the parent's
    current version, which is resident on the provider that the wrapping names, between
    two different keys that are enabled, never compromised and not scheduled for deletion. -/
theorem accepted_creation_extends [UuidText] (request : CreationRequest)
    (current : Option KeyRecord) (parent : KeyRecord)
    (accepted : request.validateRecords current parent = .ok ()) :
    ∃ version material parentVersion keyHandle,
      request.record.primaryVersion = some version ∧ version.isPrimary = true ∧
      (∀ before, current = some before →
        version.versionNumber = (before.keyVersions.map (·.versionNumber)).foldl max 0 + 1 ∧
        request.record = { before with
          occVersion := before.occVersion + 1
          currentKeyVersion := version.versionNumber
          updatedAt := request.record.updatedAt
          keyVersions :=
            (before.keyVersions.map fun old => { old with isPrimary := false }) ++ [version] }) ∧
      version.material = .parentWrapped material ∧ material.parent.lid = parent.lid ∧
      material.parent.version = parent.currentKeyVersion ∧
      parent.primaryVersion = some parentVersion ∧
      parentVersion.material = .providerResident keyHandle (some material.providerRef) ∧
      request.record.lid ≠ parent.lid ∧
      ∀ key ∈ request.record :: parent :: current.toList, key.state = .enabled ∧
        key.hasCompromiseHistory = false ∧ key.scheduledDeletionAt = none := by
  simp only [validateRecords, eq_ok, not_or, not_not, Bool.not_eq_true,
    Option.isSome_eq_false_iff, Option.isNone_iff_eq_none] at accepted
  obtain ⟨_, validated, material, given, _, ⟨named, _, enabled, clean, unscheduled, _⟩, _, newest,
    parentVersion, found, _, resident, child⟩ := accepted
  obtain ⟨version, primary, wrapped⟩ := material_ok given
  obtain ⟨member, number⟩ := primaryVersion_number primary
  obtain ⟨_, valid⟩ := validate_valid validated
  cases given.symm.trans valid.given
  obtain ⟨keyHandle, bound⟩ : ∃ keyHandle,
      parentVersion.material = .providerResident keyHandle (some material.providerRef) := by
    unfold validateResident at resident
    split at resident
    next keyHandle _ stored =>
      simp only [eq_ok, not_or, not_not] at resident
      exact ⟨keyHandle, by rw [stored, resident.1]⟩
    next => cases resident
  simp only [CreationRequest.validate, eq_ok] at validated
  obtain ⟨_, _, _, _, _, _, _, _, _, _, _, history, _⟩ := validated
  have isPrimary := ((checkHistory_ok history).1 version member).2
  rw [number, beq_self_eq_true] at isPrimary
  rw [newest] at found
  refine ⟨version, material, parentVersion, keyHandle, primary, isPrimary, ?_, wrapped, named.symm,
    newest, found, bound, named ▸ valid.notOwnParent, ?_⟩
  · rintro before rfl
    obtain ⟨next, same, _, _, _, highest, proposal⟩ := validateChild_next child
    cases primary.symm.trans same
    rw [number]
    exact ⟨highest, proposal⟩
  · intro key among
    simp only [mem_cons, Option.mem_toList] at among
    rcases among with rfl | rfl | present
    · exact ⟨valid.enabled, valid.clean, valid.unscheduled⟩
    · exact ⟨enabled, clean, unscheduled⟩
    · cases present
      obtain ⟨_, _, _, enabled, clean, _, proposal⟩ := validateChild_next child
      refine ⟨enabled, clean, ?_⟩
      have kept := valid.unscheduled
      rw [proposal] at kept
      exact kept

section
attribute [local instance] hyphenatedText

/-- The request for a second version of the key that `creationRequest` makes. -/
def rotationRequest : CreationRequest :=
  let first := creationRequest.record
  { sampleRequest ⟨1⟩ { first with
      occVersion := 2
      currentKeyVersion := 2
      keyVersions := (first.keyVersions.map fun old => { old with isPrimary := false }) ++
        [⟨2, .parentWrapped (sampleMaterial (sampleLid 1) sampleReference), 0, true⟩] } with
    expectedKeyOcc := some 1 }

theorem rotation_extends :
    ∃ version, rotationRequest.record.primaryVersion = some version ∧
      version.versionNumber = 2 ∧ version.isPrimary = true := by
  obtain ⟨version, _, _, _, primary, isPrimary, appended, _⟩ :=
    accepted_creation_extends rotationRequest (some creationRequest.record)
      (residentRecord (sampleLid 1)) (by decide +kernel)
  exact ⟨version, primary, (appended _ rfl).1.trans (by decide +kernel), isPrimary⟩

end

/-! ### Migration -/

/-- If the numbers are distinct, a version is found under its own. -/
theorem KeyRecord.getVersion_of_nodup {record : KeyRecord}
    (distinct : (record.keyVersions.map (·.versionNumber)).Nodup)
    (member : version ∈ record.keyVersions) :
    record.getVersion version.versionNumber = some version := by
  cases found : record.getVersion version.versionNumber with
  | none =>
    have absent := List.find?_eq_none.mp found version member
    simp at absent
  | some other =>
    have otherMember := mem_of_find?_eq_some found
    have same : other.versionNumber = version.versionNumber := by
      simpa using List.find?_some found
    -- numbers are distinct, so the first hit is the version itself
    rw [inj_on_of_nodup_map distinct otherMember member same]

variable [UuidText]

/-- A version as a migration leaves it. -/
def MigrationRequest.Rewrapped (request : MigrationRequest) (version : KeyVersionRecord) : Prop :=
  ∃ material, version.material = .parentWrapped material ∧
    material.parent.lid = request.newParent.lid ∧
    material.wrappedMaterialRef.asStr = envelopeReference request.operation version.versionNumber

theorem rewrapVersions_ok {request : MigrationRequest}
    (ran : request.rewrapVersions target versions seen = .ok (rewrapped, seen')) :
    rewrapped.map (·.versionNumber) = versions.map (·.versionNumber) ∧
      (versions.map (·.versionNumber)).Nodup ∧
      seen.Disjoint (versions.map (·.versionNumber)) ∧
      ∀ version ∈ rewrapped, request.Rewrapped version := by
  induction versions generalizing seen rewrapped with
  | nil =>
    cases ran
    simp
  | cons _ _ ih =>
    simp only [rewrapVersions, eq_ok, Prod.exists, Prod.mk.injEq, not_or] at ran
    obtain ⟨_, ⟨_, unseen, _⟩, _, _, _, _, _, _, _, parentMade, _,
      referenceMade, _, _, tailRan, rfl, rfl⟩ := ran
    obtain ⟨numbers, distinct, fresh, all⟩ := ih tailRan
    -- the recursive call has this number among the seen ones
    obtain ⟨new, fresh⟩ := disjoint_cons_left.mp fresh
    refine ⟨by simp [numbers], nodup_cons.mpr ⟨new, distinct⟩,
      disjoint_cons_right.mpr ⟨unseen, fresh⟩, ?_⟩
    · intro v member
      rcases mem_cons.mp member with rfl | later
      · exact ⟨_, rfl, (VersionedKeyId.new_eq_ok.mp parentMade).1,
          WrappingIdentifier.new_eq_ok.mp referenceMade⟩
      · exact all v later

/-- The facts a passed validation leaves behind. -/
structure MigrationRequest.Valid (request : MigrationRequest) : Prop where
  enabled : request.child.state = .enabled
  clean : request.child.hasCompromiseHistory = false
  occBound : request.child.occVersion < i64Max
  nonempty : request.child.keyVersions ≠ []
  proposal : request.proposed = { request.child with
    parentLid := some request.newParent.lid
    occVersion := request.child.occVersion + 1
    updatedAt := request.proposed.updatedAt
    keyVersions := request.proposed.keyVersions }
  numbers : request.proposed.keyVersions.map (·.versionNumber) =
    request.child.keyVersions.map (·.versionNumber)
  distinct : (request.child.keyVersions.map (·.versionNumber)).Nodup
  rewrapped : ∀ version ∈ request.proposed.keyVersions, request.Rewrapped version

theorem MigrationRequest.validate_valid {request : MigrationRequest}
    (validated : request.validate = .ok ()) : request.Valid := by
  simp only [validate, eq_ok, Bool.not_eq_true, Prod.exists] at validated
  obtain ⟨_, _, _, _, _, _, _, eligible, _, _, _, _, keyVersions, _, ran, _, _, _,
    compared, _, accepted, _⟩ := validated
  simp only [ineligibleChild, Bool.or_eq_false_iff, bne_eq_false_iff_eq,
    decide_eq_false_iff_not, not_le, ge_iff_le] at eligible
  obtain ⟨⟨⟨⟨⟨⟨⟨⟨⟨⟨⟨_, _⟩, occBound⟩, nonempty⟩, _⟩, _⟩, _⟩, _⟩, enabled⟩, _⟩, clean⟩, _⟩ :=
    eligible
  obtain ⟨numbers, distinct, _, all⟩ := rewrapVersions_ok ran
  -- the recomputed record is the proposal, its versions included
  have proposal := eq_of_sameJson compared accepted
  have versions : keyVersions = request.proposed.keyVersions := by rw [← proposal]
  subst versions
  exact ⟨enabled, clean, occBound, by simpa using nonempty, proposal.symm, numbers, distinct, all⟩

namespace MigrationRequest.Valid

variable {request : MigrationRequest} (valid : request.Valid)

include valid

theorem proposed_lid : request.proposed.lid = request.child.lid := by rw [valid.proposal]

theorem proposed_occVersion : request.proposed.occVersion = request.child.occVersion + 1 := by
  rw [valid.proposal]

/-- Every version of the proposal is found under its own number. -/
theorem getVersion (member : version ∈ request.proposed.keyVersions) :
    request.proposed.getVersion version.versionNumber = some version := by
  have distinct := valid.distinct
  rw [← valid.numbers] at distinct
  exact KeyRecord.getVersion_of_nodup distinct member

end MigrationRequest.Valid
end KeyRack
