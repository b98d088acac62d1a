import KeyRack.Properties.StorageReads

/-!
# From a prepared claim to the completed record

Four steps in different transactions: a due row is prepared, the claim is made of it,
the claimed row is completed, and a completion that was repeated is recognized. Each
leaves the next one what it needs.
-/
namespace KeyRack

open Fallible Sqlite.Destruction

/-- The terminal snapshot of a claim, whenever it was completed. -/
theorem validateCompletedRecord_eq_ok :
    validateCompletedRecord claim current = .ok u ↔
      ∃ later, completedRecord claim claim.record later = .ok current := by
  simp only [validateCompletedRecord, eq_ok]
  constructor
  · rintro ⟨_, made, _, compared, accepted⟩
    cases eq_of_sameJson compared accepted
    exact ⟨_, made⟩
  · rintro ⟨later, made⟩
    obtain ⟨_, room, rfl⟩ := completedRecord_eq_ok.mp made
    have stored := serializable_claim claim
    exact ⟨_, made, true, sameJson_eq_ok.mpr ⟨stored, stored, by simp⟩, by simp⟩

/-- **Destruction claims**: what `prepare_claim` returns can be claimed under any operation
    and completed at any time, with a record that differs from the first one in its state,
    its time and a counter that is two higher; a repeated completion is recognized exactly
    by that record up to its time, so no completed record of a claim passes for a claim
    of a record that differs in anything but the time. -/
theorem prepared_claim_completes (record claimed : KeyRecord) (expected : Nat) (now : DateTime)
    (prepared : prepareClaim record expected now = .ok claimed) (operation : Uuid)
    (assigned : operation.isNil = false) :
    record.occVersion + 2 ≤ i64Max ∧
    ∃ claim, DestructionClaim.issue operation claimed false = .ok claim ∧
      claim.operation = operation ∧
      (∀ later, completedRecord claim claimed later = .ok { record with
        state := .destroyed, updatedAt := later, occVersion := record.occVersion + 2 }) ∧
      (∀ current, validateCompletedRecord claim current = .ok () ↔ current = { record with
        state := .destroyed
        updatedAt := current.updatedAt
        occVersion := record.occVersion + 2 }) ∧
      ∀ other later completed, completedRecord other other.record later = .ok completed →
        validateCompletedRecord claim completed = .ok () →
        other.record = { claimed with updatedAt := other.record.updatedAt } := by
  obtain ⟨_, pending, history, bounded, rfl⟩ := prepareClaim_ok prepared
  obtain ⟨claim, issued, named, own⟩ := issue_ok false assigned
    ((validateDestructionHistory_claimed record (record.occVersion + 1) now).trans history) pending
  have completes (later : DateTime) : completedRecord claim
      { record with occVersion := record.occVersion + 1, updatedAt := now } later =
      .ok { record with
        state := .destroyed, updatedAt := later, occVersion := record.occVersion + 2 } := by
    rw [completedRecord_eq_ok, own]
    exact ⟨rfl, Nat.lt_of_succ_le bounded, rfl⟩
  have recognizes (current : KeyRecord) : validateCompletedRecord claim current = .ok () ↔
      current = { record with
        state := .destroyed
        updatedAt := current.updatedAt
        occVersion := record.occVersion + 2 } := by
    rw [validateCompletedRecord_eq_ok, own]
    constructor
    · rintro ⟨later, made⟩
      cases (completes later).symm.trans made
      rfl
    · intro same
      exact ⟨current.updatedAt, same ▸ completes current.updatedAt⟩
  refine ⟨bounded, claim, issued, named, completes, recognizes, ?_⟩
  intro other later completed made accepted
  obtain ⟨_, _, rfl⟩ := completedRecord_eq_ok.mp made
  -- undo the completion on both sides
  have same := congrArg (fun r : KeyRecord => { r with
    state := .pendingDeletion
    occVersion := r.occVersion - 1
    updatedAt := other.record.updatedAt }) ((recognizes _).mp accepted)
  calc other.record
    _ = { other.record with state := .pendingDeletion } := by rw [← other.pending]
    _ = { record with
          state := .pendingDeletion
          occVersion := record.occVersion + 1
          updatedAt := other.record.updatedAt } := same
    _ = _ := by rw [← pending]

/-- A due key that is claimed at version 1. -/
theorem due_claim_completes :
    ∃ claim, DestructionClaim.issue ⟨7⟩ { residentRecord (sampleLid 1) with
        state := .pendingDeletion, scheduledDeletionAt := some 5, occVersion := 2, updatedAt := 6 }
        false = .ok claim ∧
      validateCompletedRecord claim { residentRecord (sampleLid 1) with
        state := .destroyed, scheduledDeletionAt := some 5, occVersion := 3, updatedAt := 9 } =
        .ok () := by
  obtain ⟨_, claim, issued, _, _, recognizes, _⟩ := prepared_claim_completes
    { residentRecord (sampleLid 1) with state := .pendingDeletion, scheduledDeletionAt := some 5 }
    _ 1 6 rfl ⟨7⟩ (by decide)
  exact ⟨claim, issued, (recognizes _).mpr rfl⟩

end KeyRack
