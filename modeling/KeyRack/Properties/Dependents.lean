import KeyRack.Core.Destruction

/-!
# What depends on a key

The scan of the records counts what it finds and collects the wrapping edges, sorted
and without repetition. Its result depends on the set of the records only: neither on
their order nor on the sorting on the way.
-/
namespace KeyRack

open Fallible List DestructionDependencies

/-- A version of another key, not a destroyed one, that is wrapped under `lid`. -/
def RecordEdge (lid : Lid) (record : KeyRecord) (edge : DestructionDependent) : Prop :=
  record.lid ≠ lid ∧ record.state ≠ .destroyed ∧
    ∃ version ∈ record.keyVersions, ∃ material, version.material = .parentWrapped material ∧
      material.parent.lid = lid ∧
      edge = ⟨record.lid, version.versionNumber, material.parent.version,
        material.wrappedMaterialRef.asStr⟩

/-! ### Sorted edges -/

private theorem mem_destutter' {α : Type} [DecidableEq α] {x a : α} {l : List α} :
    x ∈ l.destutter' (· ≠ ·) a ↔ x = a ∨ x ∈ l := by
  induction l generalizing a with
  | nil => simp
  | cons b l ih =>
    by_cases same : a = b
    · -- the repeated element is dropped, and is there already
      subst same
      rw [List.destutter'_cons_neg _ (by simp), ih, mem_cons]
      tauto
    · rw [List.destutter'_cons_pos _ same, mem_cons, ih, mem_cons]

variable {edge : DestructionDependent}

theorem mem_sortDependents : edge ∈ sortDependents edges ↔ edge ∈ edges := by
  have sorted := mem_insertionSort (fun a b : DestructionDependent => a.sortKey ≤ b.sortKey)
    (l := edges) (x := edge)
  unfold sortDependents
  cases kept : edges.insertionSort (fun a b => a.sortKey ≤ b.sortKey) with
  | nil => rw [← sorted, kept, destutter_nil]
  | cons => rw [← sorted, kept, destutter_cons', mem_destutter', mem_cons]

theorem sortKey_inj {a b : DestructionDependent} (same : a.sortKey = b.sortKey) : a = b := by
  have bytes : Function.Injective (map UInt8.toNat) := map_injective_iff.mpr fun _ _ =>
    UInt8.toNat_inj.mp
  obtain ⟨lids, rest⟩ := append_inj same (by simp)
  obtain ⟨versions, rest⟩ := cons.inj rest
  obtain ⟨parents, references⟩ := cons.inj rest
  cases a
  cases b
  have digests := Vector.toList_inj.mp (bytes lids)
  simp only [DestructionDependent.mk.injEq]
  exact ⟨congrArg Lid.mk digests, versions, parents, utf8_inj (bytes references)⟩

/-- Sorted, and free of repetition. -/
abbrev Ascending : List DestructionDependent → Prop := Pairwise fun a b => a.sortKey < b.sortKey

private theorem ascending_destutter' (sorted : (a :: l).Pairwise fun a b => a.sortKey ≤ b.sortKey) :
    Ascending (l.destutter' (· ≠ ·) a) := by
  induction l generalizing a with
  | nil => simp
  | cons b l ih =>
    obtain ⟨least, rest⟩ := pairwise_cons.mp sorted
    by_cases same : a = b
    · rw [same, destutter'_cons_neg _ (by simp)]
      exact ih rest
    · rw [destutter'_cons_pos _ same]
      refine .cons (fun x member => ?_) (ih rest)
      have below : a.sortKey < b.sortKey :=
        lt_of_le_of_ne (least b mem_cons_self) fun keys => same (sortKey_inj keys)
      rcases mem_destutter'.mp member with rfl | later
      · exact below
      · exact below.trans_le (rel_of_pairwise_cons rest later)

theorem ascending_sortDependents : Ascending (sortDependents edges) := by
  have : IsTrans DestructionDependent fun a b => a.sortKey ≤ b.sortKey := ⟨fun _ _ _ => le_trans⟩
  have : Std.Total fun a b : DestructionDependent => a.sortKey ≤ b.sortKey :=
    ⟨fun _ _ => le_total _ _⟩
  have sorted := pairwise_insertionSort (fun a b : DestructionDependent => a.sortKey ≤ b.sortKey)
    edges
  unfold sortDependents
  cases kept : edges.insertionSort (fun a b => a.sortKey ≤ b.sortKey) with
  | nil => exact .nil
  | cons => exact ascending_destutter' (kept ▸ sorted)

/-- The members determine the list. -/
theorem sortDependents_eq (ascending : Ascending edges)
    (same : ∀ edge, edge ∈ more ↔ edge ∈ edges) : sortDependents more = edges := by
  have : Std.Asymm fun a b : DestructionDependent => a.sortKey < b.sortKey := ⟨fun _ _ => lt_asymm⟩
  exact ascending_sortDependents.eq_of_mem_iff ascending fun edge =>
    mem_sortDependents.trans (same edge)

/-! ### Records -/

/-- Versions add to two counts and append their edges. -/
theorem foldl_includeVersion (lid : Lid) (record : KeyRecord) (versions : List KeyVersionRecord) :
    ∃ own edges, (∀ edge, edge ∈ edges ↔ record.lid ≠ lid ∧ ∃ version ∈ versions, ∃ material,
        version.material = .parentWrapped material ∧ material.parent.lid = lid ∧
        edge = ⟨record.lid, version.versionNumber, material.parent.version,
          material.wrappedMaterialRef.asStr⟩) ∧
      ∀ counts, versions.foldl (includeVersion lid record) counts = { counts with
        ownParentWrappedVersions := counts.ownParentWrappedVersions + own
        dependentWrappingEdges := counts.dependentWrappingEdges + edges.length
        dependents := counts.dependents ++ edges } := by
  induction versions with
  | nil => exact ⟨0, [], by simp, by simp⟩
  | cons version _ ih =>
    obtain ⟨own, edges, members, folds⟩ := ih
    simp only [foldl_cons, folds, includeVersion, exists_mem_cons_iff]
    cases version.material with
    | providerResident => exact ⟨own, edges, by simpa using members, fun _ => rfl⟩
    | parentWrapped inner =>
      by_cases same : record.lid = lid
      · refine ⟨own + 1, edges, by simpa [same] using members, fun _ => ?_⟩
        simp only [same, if_true, Nat.add_assoc, Nat.add_comm 1]
      · by_cases under : inner.parent.lid = lid
        · refine ⟨own, ⟨record.lid, version.versionNumber, inner.parent.version,
            inner.wrappedMaterialRef.asStr⟩ :: edges, ?_, fun _ => ?_⟩
          · simp [same, under, members]
          · simp [same, under, Nat.add_assoc, Nat.add_comm 1]
        · exact ⟨own, edges, by simpa [same, under] using members, by simp [same, under]⟩

/-- A record adds to the counts, and its edges to the sorted ones. -/
theorem includeRecord_eq (lid : Lid) (record : KeyRecord) :
    ∃ own edges, (∀ edge, edge ∈ edges ↔ RecordEdge lid record edge) ∧
      ∀ counts : DestructionDependencies, Ascending counts.dependents →
        counts.includeRecord lid record = do
          let logicalOnlyChildren ← counts.countLogicalOnly lid record
          return { counts with
            logicalOnlyChildren
            ownParentWrappedVersions := counts.ownParentWrappedVersions + own
            dependentWrappingEdges := counts.dependentWrappingEdges + edges.length
            dependents := sortDependents (counts.dependents ++ edges) } := by
  by_cases destroyed : record.state = .destroyed
  · refine ⟨0, [], by simp [RecordEdge, destroyed], fun counts ascending => ?_⟩
    have sorted : sortDependents (counts.dependents ++ []) = counts.dependents :=
      sortDependents_eq ascending (by simp)
    simp only [includeRecord, destroyed, if_true, sorted]
    rfl
  · obtain ⟨own, edges, members, folds⟩ := foldl_includeVersion lid record record.keyVersions
    refine ⟨own, edges, fun edge => ?_, fun counts _ => ?_⟩
    · simp [RecordEdge, destroyed, members]
    · simp only [includeRecord, destroyed, if_false, folds]

variable {lid : Lid} {counts : DestructionDependencies} {records other : List KeyRecord}

theorem includeRecord_comm (first second : KeyRecord) (ascending : Ascending counts.dependents) :
    (counts.includeRecord lid first >>= (·.includeRecord lid second)) =
      (counts.includeRecord lid second >>= (·.includeRecord lid first)) := by
  obtain ⟨own, edges, _, includes⟩ := includeRecord_eq lid first
  obtain ⟨own', edges', _, includes'⟩ := includeRecord_eq lid second
  have sorted : sortDependents (sortDependents (counts.dependents ++ edges) ++ edges') =
      sortDependents (sortDependents (counts.dependents ++ edges') ++ edges) :=
    sortDependents_eq ascending_sortDependents fun edge => by
      simp only [mem_sortDependents, mem_append, or_right_comm]
  -- the same number of logical children, or the same overflow
  cases next : checkedSucc counts.logicalOnlyChildren <;>
    by_cases logical : isLogicalOnlyChild lid first = true <;>
    by_cases logical' : isLogicalOnlyChild lid second = true <;>
    simp [next, logical, logical', okOr, bind, Except.bind, pure, Except.pure, includes, includes',
      ascending, ascending_sortDependents, countLogicalOnly, sorted, Nat.add_right_comm]

theorem foldlM_includeRecord_perm (perm : records ~ other)
    (ascending : Ascending counts.dependents) :
    records.foldlM (·.includeRecord lid ·) counts =
      other.foldlM (·.includeRecord lid ·) counts := by
  induction perm generalizing counts with
  | nil => rfl
  | cons record _ ih =>
    obtain ⟨_, _, _, includes⟩ := includeRecord_eq lid record
    rw [foldlM_cons, foldlM_cons, includes counts ascending]
    cases counts.countLogicalOnly lid record with
    | error => rfl
    | ok => exact ih ascending_sortDependents
  | swap first second =>
    simp only [foldlM_cons, ← bind_assoc]
    rw [includeRecord_comm second first ascending]
  | trans _ _ ih ih' => exact (ih ascending).trans (ih' ascending)

theorem foldlM_includeRecord_ok (ascending : Ascending counts.dependents)
    (folded : records.foldlM (·.includeRecord lid ·) counts = .ok counts') :
    Ascending counts'.dependents ∧
      counts'.inFlightCreationJournalRows = counts.inFlightCreationJournalRows ∧
      counts'.migrationJournalRows = counts.migrationJournalRows ∧
      ∀ edge, edge ∈ counts'.dependents ↔
        edge ∈ counts.dependents ∨ ∃ record ∈ records, RecordEdge lid record edge := by
  induction records generalizing counts with
  | nil =>
    cases pure_eq_ok.mp folded
    exact ⟨ascending, rfl, rfl, by simp⟩
  | cons record _ ih =>
    obtain ⟨_, _, members, includes⟩ := includeRecord_eq lid record
    simp only [foldlM_cons, includes counts ascending, eq_ok] at folded
    obtain ⟨_, ⟨_, _, rfl⟩, later⟩ := folded
    obtain ⟨sorted, creations, migrations, rest⟩ := ih ascending_sortDependents later
    refine ⟨sorted, creations, migrations, fun edge => ?_⟩
    rw [rest, mem_sortDependents, mem_append, members, exists_mem_cons_iff, or_assoc]

/-- The fold fails only where the logical children are more than the count can hold. -/
theorem foldlM_includeRecord_returns (ascending : Ascending counts.dependents)
    (fits : counts.logicalOnlyChildren ≤ u64Max) :
    (∃ counts', records.foldlM (·.includeRecord lid ·) counts = .ok counts') ↔
      counts.logicalOnlyChildren + records.countP (isLogicalOnlyChild lid) ≤ u64Max := by
  induction records generalizing counts with
  | nil => simpa [pure, Except.pure] using fits
  | cons record rest ih =>
    obtain ⟨_, _, _, includes⟩ := includeRecord_eq lid record
    rw [foldlM_cons, includes counts ascending, countLogicalOnly]
    by_cases logical : isLogicalOnlyChild lid record = true
    · rw [if_pos logical, countP_cons_of_pos logical]
      by_cases room : counts.logicalOnlyChildren < u64Max
      · rw [checkedSucc, if_pos room, ← Nat.add_assoc, Nat.add_right_comm]
        exact ih ascending_sortDependents room
      · rw [checkedSucc, if_neg room]
        refine iff_of_false (by rintro ⟨_, ⟨⟩⟩) (by omega)
    · rw [if_neg logical, countP_cons_of_neg logical]
      exact ih ascending_sortDependents fits

/-! ### Approvals -/

theorem validateIntent_eq_ok :
    counts.validateIntent intent = .ok u ↔
      (counts.inFlightCreationJournalRows = 0 ∧ counts.migrationJournalRows = 0) ∧
      (counts.dependents ≠ [] → intent.allowDependentDataLoss = true) ∧
      ∀ edge ∈ counts.dependents, edge ∈ intent.approvedDependents := by
  simp [validateIntent, eq_ok]

theorem approval_ok (approved : counts.approval allow = .ok intent) :
    intent = ⟨allow, if allow then counts.dependents else []⟩ := by
  simp only [approval, eq_ok] at approved
  obtain ⟨_, _, rfl⟩ := approved
  rfl

/-- The scan of the records, beside what the journals count. -/
def observed (lid : Lid) (creations inFlight migrations : Nat) (records : List KeyRecord) :
    Except KeyRackError DestructionDependencies :=
  records.foldlM (·.includeRecord lid ·) ⟨0, 0, 0, creations, inFlight, migrations, []⟩

/-- **Observed dependents**: the order of the records does not matter to what their scan
    observes; it observes a value unless the logical children are more than a `u64` counts,
    and its dependents are sorted, free of repetition and exactly the wrapping edges of the
    records. What one observation approves, another one accepts exactly if nothing
    is in flight and each of its dependents was there. -/
theorem observed_dependents (lid : Lid) (creations inFlight migrations : Nat)
    (records : List KeyRecord) :
    (∀ other, other ~ records → observed lid creations inFlight migrations other =
      observed lid creations inFlight migrations records) ∧
    ((∃ counts, observed lid creations inFlight migrations records = .ok counts) ↔
      records.countP (isLogicalOnlyChild lid) ≤ u64Max) ∧
    (∀ counts, observed lid creations inFlight migrations records = .ok counts →
      counts.dependents.Pairwise (fun a b => a.sortKey ≤ b.sortKey) ∧ counts.dependents.Nodup ∧
      ∀ edge, edge ∈ counts.dependents ↔ ∃ record ∈ records, RecordEdge lid record edge) ∧
    ∀ (s t : DestructionDependencies) (intent : DeletionIntent), s.approval true = .ok intent →
      (t.validateIntent intent = .ok () ↔ t.inFlightCreationJournalRows = 0 ∧
        t.migrationJournalRows = 0 ∧ ∀ edge ∈ t.dependents, edge ∈ s.dependents) := by
  refine ⟨fun _ perm => foldlM_includeRecord_perm perm .nil, ?_, fun counts scanned => ?_, ?_⟩
  · rw [observed, foldlM_includeRecord_returns .nil (Nat.zero_le _), Nat.zero_add]
  · obtain ⟨ascending, _, _, members⟩ := foldlM_includeRecord_ok .nil scanned
    refine ⟨ascending.imp le_of_lt, ascending.imp ?_, by simpa using members⟩
    rintro _ _ below rfl
    exact below.false
  · intro s t intent approved
    rw [approval_ok approved, validateIntent_eq_ok]
    simp [and_assoc]

end KeyRack
