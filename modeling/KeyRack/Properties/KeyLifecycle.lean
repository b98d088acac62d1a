import KeyRack.Core.Key
import KeyRack.Lib.Trace

/-!
# Latches of a key record

The three mutations of a key record, in any order and from any record, legacy
ones included. One inversion says what a returning call can do to the record;
the latches are a preorder on records that every such change respects.
-/
namespace KeyRack

open Trace Option KeyRecord

/-- A call of one of the mutations, with the time the clock shows. -/
inductive KeyCall where
  | transitionTo (target : KeyState) (now : DateTime)
  | transitionExportability (target : Exportability) (now : DateTime)
  | markExported (now : DateTime)

/-- Whether the call returned `Ok`, and the record after it. -/
def KeyCall.apply (call : KeyCall) (record : KeyRecord) : Bool × KeyRecord :=
  match call with
  | .transitionTo target now => (record.transitionTo target now).map Except.isOk id
  | .transitionExportability target now =>
    (record.transitionExportability target now).map Except.isOk id
  | .markExported now => (true, record.markExported now)

/-- A call takes the record to `next`. -/
def KeyStep (record : KeyRecord) (call : KeyCall) (next : KeyRecord) : Prop :=
  (call.apply record).2 = next

/-! ### What a call can change -/

/-- The three real changes of a record. -/
inductive KeyChange (record : KeyRecord) : KeyRecord → Prop where
  | state (target : KeyState) (now : DateTime)
      (allowed : record.transitionAllowed target = true) :
      KeyChange record { record with
        wasCompromised := record.hasCompromiseHistory || target == .compromised
        state := target
        occVersion := wrappingSucc record.occVersion
        updatedAt := now }
  | exportability (target : Exportability) (now : DateTime)
      (different : record.exportability ≠ target)
      (unexported : target = .nonExportable → record.firstExportedAt = none) :
      KeyChange record { record with
        exportability := target, occVersion := wrappingSucc record.occVersion, updatedAt := now }
  | exported (now : DateTime) (first : record.firstExportedAt = none) :
      KeyChange record { record with
        firstExportedAt := some now, occVersion := wrappingSucc record.occVersion,
        updatedAt := now }

variable {record : KeyRecord} {target : KeyState}

/-- A destroyed record has no edge to leave by. -/
theorem not_destroyed_of_transitionAllowed (allowed : record.transitionAllowed target = true) :
    record.state ≠ .destroyed := by
  intro was
  simp [transitionAllowed, KeyState.canTransitionTo, KeyState.validTransitions, was] at allowed

variable {next : KeyRecord} {now : DateTime}

theorem transitionTo_cases (returned : record.transitionTo target now = (result, next)) :
    (result = .error (record.state, target) ∧ next = record ∧
        record.transitionAllowed target = false) ∨
      (result = .ok target ∧ record.transitionAllowed target = true ∧
        next = { record with
          wasCompromised := record.hasCompromiseHistory || target == .compromised
          state := target
          occVersion := wrappingSucc record.occVersion
          updatedAt := now }) := by
  unfold transitionTo at returned
  split at returned
  next allowed =>
    cases returned
    exact .inr ⟨rfl, allowed, rfl⟩
  next refused =>
    cases returned
    exact .inl ⟨rfl, rfl, by simpa using refused⟩

/-- A call leaves the record alone or makes one real change and returns `Ok`. -/
theorem KeyCall.apply_cases (call : KeyCall) (record : KeyRecord) :
    (call.apply record).2 = record ∨
      (call.apply record).1 = true ∧ KeyChange record (call.apply record).2 := by
  cases call with
  | transitionTo target now =>
    by_cases allowed : record.transitionAllowed target = true
    · simp only [KeyCall.apply, KeyRecord.transitionTo, allowed, if_true]
      exact .inr ⟨rfl, .state target now allowed⟩
    · simp [KeyCall.apply, KeyRecord.transitionTo, allowed]
  | transitionExportability _ now =>
    simp only [KeyCall.apply, KeyRecord.transitionExportability]
    split
    next => exact .inl rfl
    next different =>
      split
      next => exact .inr ⟨rfl, .exportability _ now different (by simp)⟩
      next =>
        -- tightening is refused once material has left
        split
        next => exact .inl rfl
        next unexported =>
          exact .inr ⟨rfl, .exportability _ now different fun _ => by simpa using unexported⟩
      next => exact .inl rfl
  | markExported now =>
    simp only [KeyCall.apply, KeyRecord.markExported]
    split
    next first => exact .inr ⟨trivial, .exported now first⟩
    next => exact .inl rfl

/-! ### The latches -/

/-- What one record fixes for all later ones. -/
structure LatchedBy (record later : KeyRecord) : Prop where
  history : record.hasCompromiseHistory = true → later.hasCompromiseHistory = true
  destroyed : record.state = .destroyed → later.state = .destroyed
  exported : ∀ stamp, record.firstExportedAt = some stamp → later.firstExportedAt = some stamp
  exportable : record.firstExportedAt ≠ none → record.exportability = .exportable →
    later.exportability = .exportable

theorem LatchedBy.refl (record : KeyRecord) : LatchedBy record record :=
  ⟨id, id, fun _ same => same, fun _ same => same⟩

theorem LatchedBy.trans (ab : LatchedBy a b) (bc : LatchedBy b c) :
    LatchedBy a c where
  history was := bc.history (ab.history was)
  destroyed was := bc.destroyed (ab.destroyed was)
  exported stamp was := bc.exported stamp (ab.exported stamp was)
  exportable was isOpen := by
    -- the latch is still set in the middle, so the second step applies
    obtain ⟨stamp, latch⟩ := ne_none_iff_exists'.mp was
    refine bc.exportable ?_ (ab.exportable was isOpen)
    rw [ab.exported stamp latch]
    simp

theorem KeyChange.latchedBy (change : KeyChange record next) : LatchedBy record next := by
  cases change with
  | state _ _ allowed =>
    refine ⟨?_, ?_, fun _ same => same, fun _ same => same⟩
    · intro was
      -- history is the marker or the live state; both end up in the marker
      simp [hasCompromiseHistory] at was ⊢
      rcases was with was | was <;> simp [was]
    · exact fun was => absurd was (not_destroyed_of_transitionAllowed allowed)
  | exportability target _ _ unexported =>
    refine ⟨fun was => was, fun was => was, fun _ same => same, ?_⟩
    intro exported was
    cases target with
    | exportable => rfl
    -- closing again was refused once the stamp is set
    | nonExportable => exact absurd (unexported rfl) exported
  | exported _ first =>
    refine ⟨fun was => was, fun was => was, ?_, fun exported _ => absurd first exported⟩
    intro _ was
    simp [first] at was

theorem KeyStep.latchedBy (step : KeyStep record call next) : LatchedBy record next := by
  subst step
  rcases KeyCall.apply_cases call record with same | ⟨_, change⟩
  · rw [same]
    exact .refl _
  · exact change.latchedBy

/-- From any record, every later record is latched by it. -/
theorem keySteps_latchedBy (steps : Steps KeyStep record calls later) : LatchedBy record later :=
  steps.relates_of_step LatchedBy.refl (fun _ _ _ => LatchedBy.trans)
    fun _ _ _ step => step.latchedBy

/-! ### Consequences of compromise history -/

theorem permits_of_hasCompromiseHistory (was : record.hasCompromiseHistory = true) :
    record.permitsEncrypt = false ∧ record.permitsDecrypt = false ∧
      record.permitsExport = false := by
  simp [permitsEncrypt, permitsDecrypt, permitsExport, was]

/-- **Key lifecycle**: along any sequence of calls from any record, compromise
    history stays and denies encrypt, decrypt and export and bars every successful
    transition to enabled; a destroyed key has no further lifecycle transition; the
    export latch stays and keeps an exportable key exportable; a failed call changes
    nothing, and one that changes the record returns `Ok` and raises the counter by one
    exactly if the counter is not at its maximum. -/
theorem keySteps_lifecycle (record later : KeyRecord) (calls : List KeyCall)
    (steps : Steps KeyStep record calls later) :
    (record.hasCompromiseHistory = true →
      later.hasCompromiseHistory = true ∧ later.permitsEncrypt = false ∧
        later.permitsDecrypt = false ∧ later.permitsExport = false ∧
        ∀ target now reached next, later.transitionTo target now = (.ok reached, next) →
          next.state ≠ .enabled) ∧
    (record.state = .destroyed → ∀ target now,
      later.transitionTo target now = (.error (.destroyed, target), later)) ∧
    (∀ first, record.firstExportedAt = some first → later.firstExportedAt = some first ∧
      (record.exportability = .exportable → later.exportability = .exportable)) ∧
    ∀ call ok next, KeyCall.apply call later = (ok, next) →
      (ok = false → next = later) ∧
        (next = later ∨
          ok = true ∧ (next.occVersion = later.occVersion + 1 ↔ later.occVersion < u64Max)) := by
  have latched := keySteps_latchedBy steps
  refine ⟨fun was => ?_, fun was target now => ?_, fun first was => ?_, fun call _ _ returned => ?_⟩
  · have history := latched.history was
    obtain ⟨encrypt, decrypt, exports⟩ := permits_of_hasCompromiseHistory history
    refine ⟨history, encrypt, decrypt, exports, ?_⟩
    intro target _ _ _ moved
    rcases transitionTo_cases moved with ⟨failed, _⟩ | ⟨_, allowed, rfl⟩
    · cases failed
    · rintro (rfl : target = .enabled)
      simp [transitionAllowed, history] at allowed
  · have terminal := latched.destroyed was
    simp [transitionTo, transitionAllowed, KeyState.canTransitionTo,
      KeyState.validTransitions, terminal]
  · exact ⟨latched.exported first was, latched.exportable (by simp [was])⟩
  · have cases := call.apply_cases later
    rw [returned] at cases
    rcases cases with rfl | ⟨rfl, change⟩
    · exact ⟨fun _ => rfl, .inl rfl⟩
    · refine ⟨by simp, .inr ⟨rfl, ?_⟩⟩
      cases change <;> exact wrappingSucc_eq_iff

/-- A record from before the compromise marker: compromised, with the marker unset. -/
def legacyRecord : KeyRecord where
  lid := ⟨Vector.replicate 32 0⟩
  canonicalizationVersion := .v2
  parentLid := none
  occVersion := 7
  currentKeyVersion := 1
  state := .compromised
  wasCompromised := false
  keyUsage := .encryptDecrypt
  keySpec := .aes256
  origin := .keyRack
  providerClass := .software
  providerRef := none
  exportability := .exportable
  firstExportedAt := some 3
  ownerPrincipalId := none
  identityTags := .empty
  userTags := .empty
  createdAt := 0
  updatedAt := 0
  scheduledDeletionAt := none
  description := ""
  keyVersions := []

/-- The legacy record scheduled for deletion, as `transitionTo` leaves it. -/
def legacyPending : KeyRecord :=
  { legacyRecord with
    wasCompromised := true, state := .pendingDeletion, occVersion := 8, updatedAt := 5 }

theorem keySteps_lifecycle_legacy :
    legacyRecord.hasCompromiseHistory = true ∧ legacyPending.permitsDecrypt = false :=
  have steps : Steps KeyStep legacyRecord [.transitionTo .pendingDeletion 5] legacyPending :=
    .cons rfl (.nil _)
  ⟨by decide, ((keySteps_lifecycle legacyRecord legacyPending _ steps).1 (by decide)).2.2.1⟩

/-- At its maximum the counter starts again, although the transition succeeds. A destroyed
    record has no lifecycle transition, but its exportability still changes. -/
theorem full_counter_starts_again :
    KeyCall.apply (.transitionTo .disabled 5)
        { legacyRecord with state := .enabled, occVersion := u64Max } =
      (true, { legacyRecord with state := .disabled, occVersion := 0, updatedAt := 5 }) ∧
    KeyCall.apply (.transitionExportability .exportable 5)
        { legacyRecord with state := .destroyed, exportability := .nonExportable } =
      (true, { legacyRecord with state := .destroyed, occVersion := 8, updatedAt := 5 }) := by
  decide

end KeyRack
